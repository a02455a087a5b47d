/-
**Units of time.**

Timings are kept in seconds; directives of templates take milliseconds.

* `Timing.toMilliseconds`, `Timing.toSeconds`: an options object in the other unit;
* `Timing.fits`: whether every timing has a number near it, so that it can be divided.
-/

import AnimationCode.Value

namespace AnimationCode

namespace Timing

/-- The options that are times. -/
def keys : List String := ["duration", "delay", "repeatDelay"]

/-- The places to which a converted time is rounded. -/
def places : Nat := 6

/-- A time multiplied by a thousand. -/
def milliseconds : Value → Value
  | .int n => .int (n * 1000)
  | .real x => Value.ofBinary64 ((x.mul (Binary64.ofInt 1000)).roundTo places)
  | value => value

/-- The factor from milliseconds to seconds. -/
def thousandth : Binary64 := Binary64.ofDecimal false 1 (-3)

/-- A time divided by a thousand. -/
def seconds : Value → Value
  | .int n => Value.ofBinary64 (((Binary64.ofInt n).mul thousandth).roundTo places)
  | .real x => Value.ofBinary64 ((x.mul thousandth).roundTo places)
  | value => value

mutual

/-- An options object with its times converted, those of the objects in it too. -/
def convert (time : Value → Value) : Value → Value
  | .guarded inner => .guarded (convert time inner)
  | .object fields => .object (convertEntries time fields)
  | value => value

/-- The entries of an options object with their times converted. -/
def convertEntries (time : Value → Value) : List (String × Value) → List (String × Value)
  | [] => []
  | (name, .object fields) :: rest =>
    (name, .object (convertEntries time fields)) :: convertEntries time rest
  | (name, value) :: rest =>
    (name, if keys.contains name then time value else value) :: convertEntries time rest

end

/-- An options object in milliseconds. -/
def toMilliseconds (options : Value) : Value := convert milliseconds options

/-- An options object in seconds. -/
def toSeconds (options : Value) : Value := convert seconds options

mutual

/-- Whether every time is near a number. -/
def fits : Value → Bool
  | .guarded inner => fits inner
  | .object fields => fitsEntries fields
  | _ => true

/-- Whether every time of some entries is near a number. -/
def fitsEntries : List (String × Value) → Bool
  | [] => true
  | (_, .object fields) :: rest => fitsEntries fields && fitsEntries rest
  | (name, value) :: rest =>
    (!keys.contains name || !value.isNumber || value.toBinary64?.isSome) && fitsEntries rest

end

/-- An options object in seconds, unless one of its times is too large. -/
def toSeconds? (options : Value) : Option Value :=
  if fits options then some (toSeconds options) else none

end Timing

end AnimationCode
