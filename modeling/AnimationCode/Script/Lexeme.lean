/-
**Lexemes of the script language.**

Each function here looks at the beginning of a text and says how many characters a lexeme takes, or
that there is none. Names, numbers, strings, regular expressions, comments, and the places where a
line break ends a statement are all decided on the text alone.

* `nameLength`, `numberLength?`, `stringLength?`, `regexLength?`: the length of a lexeme;
* `remark?`: a comment;
* `statementEnds`: whether a statement may end here without a semicolon.
-/

import AnimationCode.Script.Node
import AnimationCode.Text.Reference

namespace AnimationCode

namespace Script

open Text (isHexDigit startsWith)

/-! ### Blanks, names and keywords -/

/-- The blanks between lexemes. -/
def isSpace (c : Char) : Bool :=
  let n := c.toNat
  (9 ≤ n && n ≤ 13) || n == 0x20 || n == 0xa0 || n == 0x1680 || (0x2000 ≤ n && n ≤ 0x200b) ||
    n == 0x2028 || n == 0x2029 || n == 0x202f || n == 0x205f || n == 0x2060 || n == 0x3000 ||
    n == 0xfeff

/-- The blanks among which a line break is looked for. -/
def isLineSpace (c : Char) : Bool :=
  let n := c.toNat
  (9 ≤ n && n ≤ 13) || n == 0x20 || n == 0x1680 || (0x2000 ≤ n && n ≤ 0x2006) ||
    (0x2008 ≤ n && n ≤ 0x200a) || n == 0x2028 || n == 0x2029 || n == 0x205f || n == 0x3000

/-- The end of a line. -/
def isLineEnd (c : Char) : Bool := c == '\n' || c.toNat == 0x2028 || c.toNat == 0x2029

/-- The signs that end a name. -/
def nameSigns : List Char := ":;`\"'@#.,|^&<=>+-*/\\%?!~()[]\x7b\x7d".toList

/-- A character inside a name. -/
def isNameRest (c : Char) : Bool := !(c.toNat < 32 || isSpace c || nameSigns.contains c)

/-- A character that may begin a name. -/
def isNameFirst (c : Char) : Bool := isNameRest c && !c.isDigit

/-- The length of a code point escape `\uXXXX` or with braces, after its backslash. -/
def codeEscapeLength? : List Char → Option Nat
  | 'u' :: '\x7b' :: cs =>
    let digits := cs.takeWhile isHexDigit
    match digits, cs.drop digits.length with
    | _ :: _, '\x7d' :: _ => some (digits.length + 3)
    | _, _ => none
  | 'u' :: cs =>
    let digits := (cs.take 4).takeWhile isHexDigit
    if digits.length = 4 then some 5 else none
  | _ => none

/-- The length of the rest of a name, at most one character for every step. -/
def nameRestLength : Nat → List Char → Nat
  | 0, _ => 0
  | _ + 1, [] => 0
  | steps + 1, c :: cs =>
    if isNameRest c then nameRestLength steps cs + 1
    else if c = '\\' then
      match codeEscapeLength? cs with
      | some length => nameRestLength steps (cs.drop length) + length + 1
      | none => 0
    else 0

/-- The length of the name at the beginning of a text, zero if there is none. -/
def nameLength (cs : List Char) : Nat :=
  match cs with
  | c :: _ => if c.isDigit then 0 else nameRestLength cs.length cs
  | [] => 0

/-- The words that are no names of variables. -/
def reservedWords : List String := [
  "break", "case", "catch", "class", "const", "continue", "debugger", "default", "delete", "do",
  "else", "export", "extends", "false", "finally", "for", "function", "if", "import", "in",
  "instanceof", "new", "null", "return", "super", "switch", "this", "throw", "true", "try",
  "typeof", "var", "void", "while", "with"]

/-! ### Numbers -/

/-- The length of digits with single underscores between them. -/
def digitsLength (isDigit : Char → Bool) : List Char → Nat
  | [] => 0
  | c :: cs => if isDigit c then go cs + 1 else 0
where
  /-- The length of what goes on after a digit. -/
  go : List Char → Nat
    | [] => 0
    | ['_'] => 0
    | '_' :: d :: cs => if isDigit d then go cs + 2 else 0
    | d :: cs => if isDigit d then go cs + 1 else 0

/-- The length of an exponent, zero if there is none. -/
def exponentLength : List Char → Nat
  | c :: cs =>
    if c = 'e' ∨ c = 'E' then
      let sign := match cs with
        | '+' :: _ => 1
        | '-' :: _ => 1
        | _ => 0
      let digits := digitsLength Char.isDigit (cs.drop sign)
      if digits = 0 then 0 else digits + sign + 1
    else 0
  | [] => 0

/-- The length of a number in a base that its second character names, zero if there is none. -/
def radixLength (cs : List Char) : Nat :=
  match cs with
  | '0' :: x :: rest =>
    let digits :=
      if x = 'x' ∨ x = 'X' then digitsLength isHexDigit rest
      else if x = 'b' ∨ x = 'B' then digitsLength (fun c => c == '0' || c == '1') rest
      else if x = 'o' ∨ x = 'O' then digitsLength (fun c => '0' ≤ c && c ≤ '7') rest
      else 0
    if digits = 0 then 0 else digits + 2
  | _ => 0

/-- The length of a decimal integer that a point or an exponent may follow, zero if there is none. -/
def wholeLength (cs : List Char) : Nat :=
  match cs with
  | '0' :: d :: rest =>
    if '1' ≤ d ∧ d ≤ '9' then digitsLength Char.isDigit (d :: rest) + 1 else 1
  | _ => if cs.head? = some '0' then 1 else digitsLength Char.isDigit cs

/-- The length of an integer with the fraction or the exponent after it, zero if there is neither. -/
def fractionalLength (whole : Nat) (rest : List Char) : Nat :=
  match rest with
  | '.' :: rest =>
    let digits := digitsLength Char.isDigit rest
    whole + 1 + digits + exponentLength (rest.drop digits)
  | rest =>
    let power := exponentLength rest
    if power = 0 then 0 else whole + power

/-- The length of a decimal number, zero if there is none. -/
def decimalLength (cs : List Char) : Nat :=
  match cs with
  | '.' :: rest =>
    let digits := digitsLength Char.isDigit rest
    if digits = 0 then 0 else digits + 1 + exponentLength (rest.drop digits)
  | _ =>
    let whole := wholeLength cs
    let plain := digitsLength Char.isDigit cs
    max plain (if whole = 0 then 0 else fractionalLength whole (cs.drop whole))

/-- The length of the longest number at the beginning of a text. -/
def numberLength? (cs : List Char) : Option Nat :=
  let radix := radixLength cs
  let plain := digitsLength Char.isDigit cs
  let big (length : Nat) : Nat :=
    if length ≠ 0 ∧ (cs.drop length).head? = some 'n' then length + 1 else 0
  let longest := max (max radix (big radix)) (max (decimalLength cs) (big plain))
  if longest = 0 then none else some longest

/-! ### Strings and regular expressions -/

/-- The length of an escape after its backslash. -/
def escapeLength? : List Char → Option Nat
  | [] => none
  | 'x' :: cs => if ((cs.take 2).takeWhile isHexDigit).length = 2 then some 3 else none
  | 'u' :: cs => codeEscapeLength? ('u' :: cs)
  | '\r' :: c :: _ => if isLineEnd c then some 2 else some 1
  | _ :: _ => some 1

/-- The length of a string up to and with its closing quote, at most one character for every
step. -/
def stringRestLength? (mark : Char) : Nat → List Char → Option Nat
  | 0, _ => none
  | _ + 1, [] => none
  | steps + 1, c :: cs =>
    if c = mark then some 1
    else if c = '\n' ∨ c = '\r' then none
    else if c = '\\' then
      (escapeLength? cs).bind fun length =>
        (stringRestLength? mark steps (cs.drop length)).map (· + length + 1)
    else (stringRestLength? mark steps cs).map (· + 1)

/-- The length of the string at the beginning of a text. -/
def stringLength? : List Char → Option Nat
  | c :: cs =>
    if c = '"' ∨ c = '\'' then (stringRestLength? c cs.length cs).map (· + 1) else none
  | [] => none

/-- The length of a markup string up to and with its closing quote, at most one character for every
step. An ampersand takes the character after it along, unless the two begin a reference. -/
def markupStringRestLength? (mark : Char) (reference : List Char → Option Nat) :
    Nat → List Char → Option Nat
  | 0, _ => none
  | _ + 1, [] => none
  | steps + 1, c :: cs =>
    if c = mark then some 1
    else if c = '&' then
      match reference (c :: cs) with
      | some length =>
        (markupStringRestLength? mark reference steps ((c :: cs).drop length)).map (· + length)
      | none =>
        match cs with
        | d :: rest =>
          if d = '#' ∨ d.isAlpha then none
          else (markupStringRestLength? mark reference steps rest).map (· + 2)
        | [] => none
    else (markupStringRestLength? mark reference steps cs).map (· + 1)

/-- The length of a character reference in markup. -/
def characterReferenceLength? : List Char → Option Nat
  | '&' :: '#' :: x :: cs =>
    let hex := x = 'x' ∨ x = 'X'
    let digits := if hex then cs.takeWhile isHexDigit else (x :: cs).takeWhile Char.isDigit
    let most := if hex then 6 else 5
    let taken := digits.length + (if hex then 3 else 2)
    if digits = [] ∨ most < digits.length then none
    else match ('&' :: '#' :: x :: cs).drop taken with
      | ';' :: _ => some (taken + 1)
      | _ => none
  | '&' :: cs =>
    let name := cs.takeWhile Char.isAlpha
    if name = [] ∨ 30 < name.length then none
    else match cs.drop name.length with
      | ';' :: _ => some (name.length + 2)
      | _ => none
  | _ => none

/-- The length of a markup string. -/
def markupStringLength? : List Char → Option Nat
  | c :: cs =>
    if c = '"' ∨ c = '\'' then
      (markupStringRestLength? c characterReferenceLength? cs.length cs).map (· + 1)
    else none
  | [] => none

/-- The length of a regular expression's pattern up to its closing slash. -/
def patternLength? (inClass : Bool) : List Char → Option Nat
  | [] => none
  | '\\' :: c :: cs => if c = '\n' then none else (patternLength? inClass cs).map (· + 2)
  | c :: cs =>
    if c = '\n' ∨ c = '\\' then none
    else if inClass then (patternLength? (c != ']') cs).map (· + 1)
    else if c = '/' then some 0
    else (patternLength? (c == '[') cs).map (· + 1)

/-- The length of the regular expression at the beginning of a text, flags included. -/
def regexLength? : List Char → Option Nat
  | '/' :: cs =>
    match patternLength? false cs with
    | some 0 => none
    | some length =>
      let flags := (cs.drop (length + 1)).takeWhile fun c => 'a' ≤ c && c ≤ 'z'
      some (length + 2 + flags.length)
    | none => none
  | _ => none

/-! ### Comments -/

/-- The length of a block comment after its opening, its closing included. -/
def blockRestLength? : List Char → Option Nat
  | [] => none
  | '*' :: '/' :: _ => some 2
  | _ :: cs => (blockRestLength? cs).map (· + 1)

/-- The length of the comment at the beginning of a text. -/
def remarkLength? : List Char → Option Nat
  | '/' :: '/' :: cs =>
    some ((cs.takeWhile fun c => !(isLineEnd c || c == '\r')).length + 2)
  | '/' :: '*' :: cs => (blockRestLength? cs).map (· + 2)
  | _ => none

/-- The length of the markup comment at the beginning of a text; it runs to the end of its line. -/
def markupRemarkLength? (cs : List Char) : Option Nat :=
  if startsWith "<!--".toList cs || startsWith "-->".toList cs then
    some (cs.takeWhile fun c => !isLineEnd c).length
  else none

/-! ### Statements that end without a semicolon -/

/-- What lies between a place and the next sign. -/
inductive Gap where
  /-- A slash that begins no comment. -/
  | slash
  /-- A block comment that breaks no line. -/
  | unbroken (rest : List Char)
  /-- Blanks and comments. -/
  | passed (rest : List Char)
deriving Repr, Inhabited

/-- A block comment after its opening: whether a line breaks in it, and what follows. -/
def blockRest : List Char → Bool × List Char
  | [] => (false, [])
  | '*' :: '/' :: cs => (false, cs)
  | c :: cs =>
    let (broken, rest) := blockRest cs
    (broken || isLineEnd c, rest)

/-- Passes blanks and comments. Unless it is to go `through` block comments, it stops after one that
no slash follows. -/
def gap (through : Bool) (broken : Bool) : Nat → List Char → Gap
  | 0, cs => .passed cs
  | steps + 1, cs =>
    match cs.dropWhile isLineSpace with
    | '/' :: '/' :: rest => gap through broken steps (rest.dropWhile fun c => !isLineEnd c)
    | '/' :: '*' :: rest =>
      let (here, after) := blockRest rest
      let broken := broken || here
      if !through && after.head? != some '/' then
        if broken then .passed after else .unbroken after
      else gap through broken steps after
    | '/' :: _ => .slash
    | rest => .passed rest

/-- Whether a letter follows. -/
def letterFollows : List Char → Bool
  | c :: _ => c.isAlpha
  | [] => false

/-- Whether the beginning of a line leaves the statement before it ended. A line that goes on with an
operator does not; after an operand a bracket goes on too. -/
def lineEnds (typed afterOperand : Bool) : List Char → Bool
  | [] => true
  | '+' :: cs => cs.head? == some '+'
  | '-' :: cs => cs.head? == some '-'
  | '!' :: cs => cs.head? != some '='
  | '.' :: cs => !typed && cs.head?.any Char.isDigit
  | 'i' :: 'n' :: cs =>
    if !letterFollows cs then false
    else match Text.stripStart? "stanceof".toList cs with
      | some after => letterFollows after
      | none => true
  | c :: _ =>
    if c = '[' ∨ c = '(' then typed && !afterOperand
    else !("`,:;*%><=?^|&/".toList.contains c)

/-- What a line break before a text does to the statement before it. -/
def brokenEnds (typed afterOperand : Bool) (cs : List Char) : Bool :=
  match gap true false cs.length cs with
  | .slash => false
  | .unbroken rest => lineEnds typed afterOperand rest
  | .passed rest => lineEnds typed afterOperand rest

/-- Whether the statement before a text ends there without a semicolon, in the untyped forms of the
language. -/
def untypedEnds (afterOperand : Bool) : Nat → List Char → Bool
  | 0, cs => cs.isEmpty
  | _ + 1, [] => true
  | steps + 1, c :: cs =>
    let goOn (cs : List Char) : Bool :=
      match cs with
      | [] => false
      | d :: rest =>
        if d = '\x7d' then true
        else if isLineEnd d then brokenEnds false afterOperand rest
        else isLineSpace d && untypedEnds afterOperand steps rest
    if c = '/' then
      match gap false false (c :: cs).length (c :: cs) with
      | .slash => false
      | .unbroken rest => goOn rest
      | .passed rest =>
        if !afterOperand && rest.head? != some ',' && rest.head? != some '=' then true else goOn rest
    else goOn (c :: cs)

/-- Whether the statement before a text ends there without a semicolon, in the typed forms of the
language. -/
def typedEnds (afterOperand : Bool) : List Char → Bool
  | [] => true
  | c :: cs =>
    if c = '\x7d' then
      (if (cs.dropWhile isLineSpace).head? = some ':' then afterOperand else true)
    else if c = '\n' then brokenEnds true afterOperand cs
    else isLineSpace c && typedEnds afterOperand cs

/-- Whether the statement before a text ends there without a semicolon. -/
def statementEnds (typed afterOperand : Bool) (cs : List Char) : Bool :=
  if typed then typedEnds afterOperand cs else untypedEnds afterOperand (cs.length + 1) cs

end Script

end AnimationCode
