/-
**Values as they are shown in messages.**

* `Value.shown`: a value with its texts quoted, its absence as `None` and its truth values as `True` and
  `False`;
* `Value.told`: a failure that tells of a value.

A whole number of too many digits cannot be shown, and neither can what it stands in.
-/

import AnimationCode.Text.Word
import AnimationCode.Value

namespace AnimationCode

namespace Value

mutual

/-- A value as it is shown in a message. -/
def shown : Value → String
  | .null => "None"
  | .bool b => if b then "True" else "False"
  | .int n => toString n
  | .real x => Decimal.shortest x
  | .text s => Text.shown s
  | .list items => "[" ++ ", ".intercalate (shownItems items) ++ "]"
  | .object fields => "\x7b" ++ ", ".intercalate (shownEntries fields) ++ "\x7d"
  | .code source => "Expr(source=" ++ Text.shown source ++ ")"
  | .guarded inner => "Guarded(value=" ++ shown inner ++ ")"

/-- The items of a list as they are shown. -/
def shownItems : List Value → List String
  | [] => []
  | item :: rest => shown item :: shownItems rest

/-- The entries of an object as they are shown. -/
def shownEntries : List (String × Value) → List String
  | [] => []
  | (name, value) :: rest => (Text.shown name ++ ": " ++ shown value) :: shownEntries rest

end

/-- The failure that tells of a value, unless the value cannot be shown. -/
def told (value : Value) (failure : String → Failure) : Failure :=
  if value.isWritable then failure value.shown else .numberTooLong

end Value

end AnimationCode
