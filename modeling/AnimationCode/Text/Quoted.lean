/-
**Single-quoted script strings.**

* `quote`: a text between single quotes, with backslash, quote, line feed and carriage return
  written as escapes;
* `unquote?`: the text that a quoted form stands for, whatever its quote character;
* `decodeEscape`: one escape after its backslash.
-/

import AnimationCode.Text.Reference

namespace AnimationCode

namespace Text

/-- A character inside single quotes. -/
def quoteCharacter (c : Char) : List Char :=
  if c = '\\' then ['\\', '\\']
  else if c = '\'' then ['\\', '\'']
  else if c = '\n' then ['\\', 'n']
  else if c = '\r' then ['\\', 'r']
  else [c]

/-- A text between single quotes. -/
def quote (cs : List Char) : List Char := '\'' :: cs.flatMap quoteCharacter ++ ['\'']

/-- The text of a one-character escape. -/
def simpleEscape (c : Char) : List Char :=
  match c with
  | 'n' => ['\n']
  | 't' => ['\t']
  | 'r' => ['\r']
  | 'b' => ['\x08']
  | 'f' => ['\x0c']
  | 'v' => ['\x0b']
  | '0' => ['\x00']
  | '\n' => []
  | c => [c]

/-- An escape read after its backslash. -/
inductive Escape where
  /-- The text of the escape and what follows it. -/
  | text (decoded rest : List Char)
  /-- The number of no character: one past the last, or a surrogate. -/
  | void
deriving Repr, Inhabited

/-- The text of a number. -/
def Escape.ofCodePoint (n : Nat) (rest : List Char) : Escape :=
  if n.isValidChar then .text [Char.ofNat n] rest else .void

/-- The escape that a character after the backslash begins. -/
def decodeEscape (c : Char) (cs : List Char) : Escape :=
  let braced := match cs with
    | '\x7b' :: r =>
      let digits := r.takeWhile isHexDigit
      match r.dropWhile isHexDigit with
      | '\x7d' :: rest => if digits = [] then none else some (digits, rest)
      | _ => none
    | _ => none
  let fixed (length : Nat) : Option (List Char × List Char) :=
    let digits := cs.take length
    if digits.length = length ∧ digits.all isHexDigit then some (digits, cs.drop length) else none
  let number := if c = 'u' then braced.orElse fun _ => fixed 4 else if c = 'x' then fixed 2 else none
  match number with
  | some (digits, rest) => Escape.ofCodePoint (numberOf 16 digits) rest
  | none => .text (simpleEscape c) cs

/-- The text of the inside of a quoted form, at most one character for every step. -/
def decodeFrom : Nat → List Char → Option (List Char)
  | 0, cs => some cs
  | _ + 1, [] => some []
  | steps + 1, c :: cs =>
    if c = '\\' then
      match cs with
      | [] => some ['\\']
      | e :: rest =>
        match decodeEscape e rest with
        | .text decoded rest => (decodeFrom steps rest).map (decoded ++ ·)
        | .void => none
    else (decodeFrom steps cs).map (c :: ·)

/-- The text without its first and its last character. -/
def inner (cs : List Char) : List Char := (cs.drop 1).dropLast

/-- The text that a quoted form stands for; none if an escape stands for no character. -/
def unquote? (cs : List Char) : Option (List Char) :=
  let body := inner cs
  decodeFrom body.length body

end Text

end AnimationCode
