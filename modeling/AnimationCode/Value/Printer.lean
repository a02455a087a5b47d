/-
**Values as script literals.**

Texts stand between single quotes, names are unquoted when they are identifiers, whole numbers have no
fraction, and a guarded value is a conditional. A whole number of too many digits cannot be written, and
neither can what it stands in.

* `Value.print`: a value on one line, if it can be written;
* `Value.printAttribute`: the same between double quotes of markup.
-/

import AnimationCode.Text.Blank
import AnimationCode.Text.Quoted
import AnimationCode.Text.Word
import AnimationCode.Value

namespace AnimationCode

namespace Text

/-- A letter of the basic alphabet, the underscore or the dollar sign. -/
def isNameStart (c : Char) : Bool := c.isAlpha || c == '_' || c == '$'

/-- A word character or the dollar sign. -/
def isNamePart (c : Char) : Bool := isWord c || c == '$'

/-- Whether a text is a name that needs no quotes; a final line feed is overlooked. -/
def isPlainName (cs : List Char) : Bool :=
  isLineOf (fun cs => cs.head?.any isNameStart && cs.tail.all isNamePart) cs

end Text

namespace Value

/-- The text of a fractional number. -/
def printReal (x : Binary64) : String :=
  match x with
  | .nan => "NaN"
  | .infinite negative => if negative then "-Infinity" else "Infinity"
  | .finite _ _ _ =>
    match x.toInt? with
    | some n => toString n
    | none => Decimal.shortest x

/-- The text of the name of an entry. -/
def printKey (name : String) : String :=
  if Text.isPlainName name.toList then name else String.ofList (Text.quote name.toList)

/-- The condition of a guarded value, up to the value itself. -/
def guardText : String := "prefersReducedMotion ? \x7b duration: 0 \x7d : "

mutual

/-- The value as a script literal on one line. -/
def print : Value → String
  | .null => "null"
  | .bool b => if b then "true" else "false"
  | .int n => toString n
  | .real x => printReal x
  | .text s => String.ofList (Text.quote s.toList)
  | .list items => "[" ++ ", ".intercalate (printItems items) ++ "]"
  | .object fields =>
    if fields.isEmpty then "\x7b\x7d"
    else "\x7b " ++ ", ".intercalate (printEntries fields) ++ " \x7d"
  | .code source => source
  | .guarded inner => guardText ++ print inner

/-- The items of a list, each as a literal. -/
def printItems : List Value → List String
  | [] => []
  | item :: rest => print item :: printItems rest

/-- The entries of an object, each as a name and a literal. -/
def printEntries : List (String × Value) → List String
  | [] => []
  | (name, value) :: rest => (printKey name ++ ": " ++ print value) :: printEntries rest

end

/-- The literal as it stands between double quotes of markup. -/
def printAttribute (value : Value) : String :=
  String.ofList (Text.escapeAttribute value.print.toList)

end Value

end AnimationCode
