/-
**Scalars: texts in quotes and without.**

A scalar that stands without quotes is a word of the data language if it is spelled like one: nothing, a
truth value, a whole number in one of five bases, or a number with a point. Any other is a text.

* `Yaml.ofPlain`: the value of such a scalar.

A spot is what is left of a text that is read by its indentation, with its line and its column. Blanks
between the parts of a text are spaces, line breaks and comments; a tab is none. A scalar may go on
over several lines; line breaks inside it are folded.

* `Spot.skip`: the next spot that is no blank;
* `Spot.fold`: the blanks inside a scalar, as the text that they stand for;
* `Scalar.read?`: the scalar at a spot;
* `Scalar.value`: what it means;
* `Scalar.colon?`: the spot past the colon that makes it a key.
-/

import AnimationCode.Text.Blank
import AnimationCode.Text.Reference
import AnimationCode.Value

namespace AnimationCode

namespace Yaml

/-! ### Words -/

/-- The spellings of nothing. -/
def nullWords : List String := ["", "~", "null", "Null", "NULL"]

/-- The spellings of truth. -/
def trueWords : List String :=
  ["yes", "Yes", "YES", "true", "True", "TRUE", "on", "On", "ON"]

/-- The spellings of falsehood. -/
def falseWords : List String :=
  ["no", "No", "NO", "false", "False", "FALSE", "off", "Off", "OFF"]

/-! ### Numbers -/

/-- A sign and what follows it. -/
def spanSign : List Char → Bool × List Char
  | '-' :: rest => (true, rest)
  | '+' :: rest => (false, rest)
  | cs => (false, cs)

/-- Whether a text has one of some characters or underscores, and nothing else. -/
def isRun (digit : Char → Bool) (cs : List Char) : Bool :=
  !cs.isEmpty && cs.all fun c => digit c || c == '_'

/-- A text without its underscores. -/
def withoutUnderscores (cs : List Char) : List Char := cs.filter (· != '_')

/-- The digits of a base. -/
def isDigitBelow (base : Nat) (c : Char) : Bool := (Text.hexValue? c).any (· < base)

/-- A sixtieth part: one or two digits below sixty. -/
def isSixtieth (cs : List Char) : Bool :=
  match cs with
  | [c] => c.isDigit
  | [c, d] => isDigitBelow 6 c && d.isDigit
  | _ => false

/-- The natural number that a text writes: in base two, eight, ten or sixteen, or in parts of sixty. -/
def natural? (cs : List Char) : Option Nat :=
  let inBase (base : Nat) (digits : List Char) : Option Nat :=
    if isRun (isDigitBelow base) digits then some (Text.numberOf base (withoutUnderscores digits))
    else none
  match cs with
  | ['0'] => some 0
  | '0' :: 'b' :: digits => inBase 2 digits
  | '0' :: 'x' :: digits => inBase 16 digits
  | '0' :: digits => inBase 8 digits
  | _ =>
    match Text.splitAt ':' cs with
    | [digits] => if digits.head?.any Char.isDigit then inBase 10 digits else none
    | digits :: parts =>
      if digits.head?.any Char.isDigit && parts.all isSixtieth then
        (inBase 10 digits).map fun whole =>
          parts.foldl (fun total part => 60 * total + Decimal.natOf part) whole
      else none
    | [] => none

/-- The whole number that a text writes. -/
def whole? (cs : List Char) : Option Int :=
  let (negative, digits) := spanSign cs
  (natural? digits).map fun n => if negative then -(n : Int) else n

/-- Whether an exponent with its sign, or nothing, is all there is. -/
def isExponent : List Char → Bool
  | [] => true
  | mark :: sign :: digits =>
    (mark == 'e' || mark == 'E') && (sign == '-' || sign == '+') &&
      !digits.isEmpty && digits.all Char.isDigit
  | _ => false

/-- Whether a text writes a number with a point: digits, the point, digits, an exponent. The digits
before the point may be missing if there is no sign. -/
def isPointed (signed : Bool) (cs : List Char) : Bool :=
  let isPart (c : Char) : Bool := c.isDigit || c == '_'
  let before := cs.takeWhile isPart
  match cs.dropWhile isPart with
  | '.' :: rest =>
    isExponent (rest.dropWhile isPart) &&
      (before.head?.any Char.isDigit || !signed && before.isEmpty && rest.head?.any Char.isDigit)
  | _ => false

/-- The number with a point, or the infinity, that a text writes. -/
def fraction? (cs : List Char) : Option Binary64 :=
  let (negative, digits) := spanSign cs
  let named := String.ofList digits
  let sign (x : Binary64) : Binary64 := if negative then x.neg else x
  if [".inf", ".Inf", ".INF"].contains named then some (.infinite negative)
  else if [".nan", ".NaN", ".NAN"].contains (String.ofList cs) then some .nan
  else if isPointed (digits.length < cs.length) digits then
    (Decimal.read? (withoutUnderscores digits)).map sign
  else none

/-- The value of a scalar without quotes. -/
def ofPlain (cs : List Char) : Value :=
  let word := String.ofList cs
  if nullWords.contains word then .null
  else if trueWords.contains word then .bool true
  else if falseWords.contains word then .bool false
  else match whole? cs, fraction? cs with
    | some n, _ => .int n
    | none, some x => .real x
    | none, none => .text word

/-- What is left of a text, and where it begins. -/
structure Spot where
  line : Nat
  column : Nat
  rest : List Char
deriving DecidableEq, Repr, Inhabited

/-- A space, a tab or a line break. -/
def isGap (c : Char) : Bool := c == ' ' || c == '\t' || c == '\n'

/-- Whether nothing, or a gap, comes first. -/
def beginsGap (cs : List Char) : Bool := cs.head?.all isGap

namespace Spot

/-- The spot past one character. -/
def next (s : Spot) : Spot :=
  match s.rest with
  | [] => s
  | '\n' :: rest => ⟨s.line + 1, 0, rest⟩
  | _ :: rest => ⟨s.line, s.column + 1, rest⟩

/-- The spot past some characters. -/
def forward : Nat → Spot → Spot
  | 0, s => s
  | n + 1, s => forward n s.next

/-- The spot past spaces, line breaks and comments, from within a comment or not. -/
def skipFrom (comment : Bool) (line column : Nat) : List Char → Spot
  | [] => ⟨line, column, []⟩
  | c :: rest =>
    if c = '\n' then skipFrom false (line + 1) 0 rest
    else if comment then skipFrom true line (column + 1) rest
    else if c = ' ' then skipFrom false line (column + 1) rest
    else if c = '#' then skipFrom true line (column + 1) rest
    else ⟨line, column, c :: rest⟩

/-- The spot past spaces, line breaks and comments. -/
def skip (s : Spot) : Spot := skipFrom false s.line s.column s.rest

/-- The spot past spaces of its line. -/
def skipSpaces (s : Spot) : Spot := s.forward (s.rest.takeWhile (· == ' ')).length

/-- Blanks as the text that they stand for: themselves within a line, a space for one line break, and one
line break less for several. -/
def foldedText (blanks : List Char) : List Char :=
  match blanks.count '\n' with
  | 0 => blanks
  | 1 => [' ']
  | n + 2 => List.replicate (n + 1) '\n'

/-- The blanks at a spot, where `inline` are those of a line, and the spot past them. -/
def fold (inline : Char → Bool) (s : Spot) : List Char × Spot :=
  let blanks := s.rest.takeWhile fun c => inline c || c == '\n'
  (blanks, s.forward blanks.length)

end Spot

/-- A scalar with its spot and the spot past it. -/
structure Scalar where
  text : List Char
  isPlain : Bool
  start : Spot
  stop : Spot
deriving DecidableEq, Repr, Inhabited

/-! ### Without quotes -/

/-- The characters that end an entry of a bracketed collection. -/
def isBracketMark (c : Char) : Bool := [',', '[', ']', '{', '}'].contains c

/-- Whether a scalar without quotes ends before a character. -/
def endsPlain (inBrackets : Bool) (c : Char) (rest : List Char) : Bool :=
  isGap c ||
  (c == ':' && rest.head?.all fun d => isGap d || inBrackets && isBracketMark d) ||
  (inBrackets && (isBracketMark c || c == '?'))

/-- The characters of a scalar without quotes up to a blank or an end. -/
def plainRun (inBrackets : Bool) : List Char → List Char
  | [] => []
  | c :: rest => if endsPlain inBrackets c rest then [] else c :: plainRun inBrackets rest

/-- The characters that begin no scalar without quotes. -/
def isIndicator (c : Char) : Bool :=
  ['-', '?', ':', ',', '[', ']', '{', '}', '#', '&', '*', '!', '|', '>', '\'', '"', '%', '@', '\x60'].contains c

/-- Whether a scalar without quotes begins here. -/
def beginsPlain (inBrackets : Bool) : List Char → Bool
  | [] => false
  | c :: rest =>
    !isGap c && (!isIndicator c ||
      !beginsGap rest && (c == '-' || !inBrackets && (c == '?' || c == ':')))

/-- The rest of a scalar without quotes after some blanks, and the spot past it. Outside brackets its lines
begin at a least column. -/
def plainFrom (inBrackets : Bool) (least : Nat) : Nat → List Char → Spot → List Char × Spot
  | 0, _, s => ([], s)
  | fuel + 1, blanks, s =>
    let run := plainRun inBrackets s.rest
    let stop := s.forward run.length
    let (gap, after) := stop.fold (· == ' ')
    let (text, stop) :=
      if gap.isEmpty || beginsPlainEnd after then ([], stop)
      else
        match plainFrom inBrackets least fuel gap after with
        | ([], _) => ([], stop)
        | found => found
    (Spot.foldedText blanks ++ run ++ text, stop)
where
  /-- Whether a scalar does not go on after blanks. -/
  beginsPlainEnd (after : Spot) : Bool :=
    (plainRun inBrackets after.rest).isEmpty || after.rest.head? == some '#' ||
      !inBrackets && after.column < least

/-! ### In quotes -/

/-- What an escaped character stands for. -/
def escapes : List (Char × Nat) := [
  ('0', 0), ('a', 7), ('b', 8), ('t', 9), ('\t', 9), ('n', 10), ('v', 11), ('f', 12), ('r', 13),
  ('e', 27), (' ', 32), ('"', 34), ('\\', 92), ('/', 47), ('N', 133), ('_', 160), ('L', 8232),
  ('P', 8233)]

/-- The number of digits of a numbered escape. -/
def numberedEscapes : List (Char × Nat) := [('x', 2), ('u', 4), ('U', 8)]

/-- What an escape after its backslash stands for, and its length. -/
def escape? : List Char → Option (List Char × Nat)
  | [] => none
  | c :: rest =>
    match escapes.lookup c, numberedEscapes.lookup c with
    | some n, _ => some ([Char.ofNat n], 1)
    | none, some count =>
      let digits := rest.take count
      if digits.length = count ∧ digits.all Text.isHexDigit ∧ (Text.numberOf 16 digits).isValidChar then
        some ([Char.ofNat (Text.numberOf 16 digits)], count + 1)
      else none
    | none, none => none

/-- The rest of a scalar in quotes, and the spot past its closing mark. -/
def quotedFrom (mark : Char) : Nat → Spot → Option (List Char × Spot)
  | 0, _ => none
  | fuel + 1, s =>
    let put (text : List Char) (found : Option (List Char × Spot)) : Option (List Char × Spot) :=
      found.map fun (more, stop) => (text ++ more, stop)
    match s.rest with
    | [] => none
    | c :: rest =>
      if c = mark then
        if mark = '\'' ∧ rest.head? = some '\'' then put ['\''] (quotedFrom mark fuel (s.forward 2))
        else some ([], s.next)
      else if isGap c then
        let (blanks, after) := s.fold fun d => d == ' ' || d == '\t'
        put (Spot.foldedText blanks) (quotedFrom mark fuel after)
      else if c = '\\' ∧ mark = '"' then
        if rest.head? = some '\n' then
          let (blanks, after) := s.next.fold fun d => d == ' ' || d == '\t'
          put (List.replicate (blanks.count '\n' - 1) '\n') (quotedFrom mark fuel after)
        else match escape? rest with
          | some (text, length) => put text (quotedFrom mark fuel (s.forward (length + 1)))
          | none => none
      else put [c] (quotedFrom mark fuel s.next)

/-! ### Scalars -/

namespace Scalar

/-- The scalar at a spot. -/
def read? (inBrackets : Bool) (least : Nat) (s : Spot) : Option Scalar :=
  match s.rest with
  | [] => none
  | c :: _ =>
    if c = '"' ∨ c = '\'' then
      (quotedFrom c s.rest.length s.next).map fun (text, stop) => ⟨text, false, s, stop⟩
    else if beginsPlain inBrackets s.rest then
      let (text, stop) := plainFrom inBrackets least s.rest.length [] s
      some ⟨text, true, s, stop⟩
    else none

/-- The text of a scalar. -/
def name (scalar : Scalar) : String := String.ofList scalar.text

/-- What a scalar means: a text if it is in quotes. -/
def value (scalar : Scalar) : Value :=
  if scalar.isPlain then ofPlain scalar.text else .text scalar.name

/-- The spot past the colon that makes a scalar of one line a key. -/
def colon? (inBrackets : Bool) (scalar : Scalar) : Option Spot :=
  let after := scalar.stop.skipSpaces
  match after.rest with
  | ':' :: rest =>
    if scalar.start.line = scalar.stop.line ∧ (inBrackets ∨ beginsGap rest) then some after.next
    else none
  | _ => none

end Scalar

end Yaml

end AnimationCode
