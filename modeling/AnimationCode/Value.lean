/-
**Values of animated properties.**

A value is literal data, an expression kept as source text, or a value guarded by the reader's wish
for reduced motion. Whole and fractional numbers are kept apart.

* `Value.isNumber`: the numbers; truth values are none;
* `Value.isZeroDuration`: the options object that stops an animation at once;
* `Value.isWritable`: the values that can be written, and be shown in messages;
* `Value.whenWritable`: what is made of the text of values.
-/

import AnimationCode.Failure
import AnimationCode.Fields
import AnimationCode.Number.Binary64
import AnimationCode.Number.Decimal

namespace AnimationCode

/-- A literal, an expression, or a guarded value. -/
inductive Value where
  | null
  | bool (value : Bool)
  | int (value : Int)
  | real (value : Binary64)
  | text (value : String)
  | list (items : List Value)
  | object (fields : List (String × Value))
  /-- An expression of the script language, kept as its source. -/
  | code (source : String)
  /-- A value that gives way to a zero duration when reduced motion is preferred. -/
  | guarded (inner : Value)
deriving Repr, Inhabited

namespace Value

/-- The fields of an object. -/
def fields? : Value → Option (Fields Value)
  | .object fields => some fields
  | _ => none

/-- Whether the value is an object. -/
def isObject : Value → Bool
  | .object _ => true
  | _ => false

/-- Whether the value is a number. -/
def isNumber : Value → Bool
  | .int _ => true
  | .real _ => true
  | _ => false

/-- Whether the value is an expression. -/
def isCode : Value → Bool
  | .code _ => true
  | _ => false

/-- The text of a text value. -/
def text? : Value → Option String
  | .text s => some s
  | _ => none

/-- The number nearest to a number value; none for an integer past every finite number. -/
def toBinary64? : Value → Option Binary64
  | .int n => Binary64.ofInt? n
  | .real x => some x
  | _ => none

/-- The quantity that a number is; a truth value is none. -/
def quantity? : Value → Option Quantity
  | .int n => some (.whole n)
  | .real x => some (.real x)
  | _ => none

/-- A quantity as a value. -/
def ofQuantity : Quantity → Value
  | .whole n => .int n
  | .real x => .real x

/-- A number, as an integer if it is whole. -/
def ofBinary64 (x : Binary64) : Value :=
  match x.toInt? with
  | some n => .int n
  | none => .real x

/-- Zero, minus zero, or the truth value that counts as zero. -/
def countsAsZero : Value → Bool
  | .int n => n == 0
  | .real (.finite _ m _) => m == 0
  | .bool b => !b
  | _ => false

/-- The options object whose only entry is a duration of zero. -/
def isZeroDuration : Value → Bool
  | .object [(name, value)] => name == "duration" && value.countsAsZero
  | _ => false

/-- The value without an outer guard. -/
def unguarded : Value → Value
  | .guarded inner => inner
  | value => value

/-- Whether the value is true under a guard-free reading of emptiness: absent, false, zero and empty
are not. -/
def isTruthy : Value → Bool
  | .null => false
  | .bool b => b
  | .int n => n != 0
  | .real (.finite _ m _) => m != 0
  | .real _ => true
  | .text s => s != ""
  | .list items => !items.isEmpty
  | .object fields => !fields.isEmpty
  | .code _ => true
  | .guarded _ => true

/-! ### Whole numbers of many digits -/

mutual

/-- Whether a value can be written: no whole number in it has more digits than are written. -/
def isWritable : Value → Bool
  | .int n => Decimal.digitCount n.natAbs ≤ Decimal.digitLimit
  | .list items => areWritable items
  | .object fields => haveWritable fields
  | .guarded inner => isWritable inner
  | _ => true

/-- Whether all the items of a list can be written. -/
def areWritable : List Value → Bool
  | [] => true
  | item :: rest => isWritable item && areWritable rest

/-- Whether the values of all entries can be written. -/
def haveWritable : List (String × Value) → Bool
  | [] => true
  | (_, value) :: rest => isWritable value && haveWritable rest

end

/-- What is made of the text of some values, if they can be written. -/
def whenWritable {α : Type} (values : List Value) (made : α) : Outcome α :=
  if values.all isWritable then .ok made else .error .numberTooLong

end Value

end AnimationCode
