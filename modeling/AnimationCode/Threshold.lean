/-
**Numbers that a caller may set.**

A threshold or a weight is given as a number, as a text that writes one, or not at all.

* `Value.asNumber`: the number that a value gives;
* `Threshold.get`: the number of a threshold, or its default.
-/

import AnimationCode.Failure
import AnimationCode.Number.Decimal
import AnimationCode.Value

namespace AnimationCode

/-- The number that a value gives: a truth value counts as one or zero, a text as what it writes. -/
def Value.asNumber : Value → Outcome Binary64
  | .int n =>
    match Binary64.ofInt? n with
    | some x => .ok x
    | none => .error .numberTooLarge
  | .real x => .ok x
  | .bool b => .ok (Binary64.ofInt b.toNat)
  | .text s =>
    match Decimal.readFree? s with
    | some x => .ok x
    | none => .error .unfitValue
  | _ => .error .unfitType

namespace Threshold

/-- The number of a threshold, or its default. -/
def get (thresholds : Fields Value) (name : String) (default : Binary64) : Outcome Binary64 :=
  match thresholds.get? name with
  | some value => value.asNumber
  | none => .ok default

/-- The seconds up to which an animation is short. -/
def short (thresholds : Fields Value) : Outcome Binary64 :=
  get thresholds "short_duration" (Binary64.ofDecimal false 5 (-1))

/-- The seconds from which an animation is long. -/
def long (thresholds : Fields Value) : Outcome Binary64 :=
  get thresholds "long_duration" (Binary64.ofDecimal false 2 0)

/-- The most seconds that a timing may take. -/
def longest (thresholds : Fields Value) : Outcome Binary64 :=
  get thresholds "max_duration" (Binary64.ofDecimal false 10 0)

end Threshold

end AnimationCode
