/-
**Binary64 numbers as exact values, and whole numbers with them.**

A finite number is a sign, a significand below `2 ^ 53` and a power of two, so every operation is
integer arithmetic followed by one rounding:

* `roundQuotient`: the integer nearest to a quotient, a tie going to the even neighbour;
* `Binary64.ofRatio`: the binary64 number nearest to a quotient of naturals;
* `add`, `mul`, `div`: the exact result of two finite numbers, rounded once;
* `roundTo`: the number nearest to the value rounded at a decimal place.

A whole number is exact and of any size; a fractional one is a binary64 number. A sum or a product of two
whole numbers is whole, any other is fractional; a whole number past every finite one has no sum or
product with a fractional number.

* `Quantity.add?`, `Quantity.mul?`: sums and products;
* `Quantity.roundTo`: the quantity rounded at a decimal place;
* `Quantity.exact`: the scale on which quantities are compared, without rounding.
-/

namespace AnimationCode

/-- The integer nearest to `num / den`; a tie goes to the even neighbour. -/
def roundQuotient (num den : Nat) : Nat :=
  let below := num / den
  let twice := 2 * (num % den)
  if twice < den then below
  else if den < twice then below + 1
  else if below % 2 = 0 then below
  else below + 1

/-- A binary64 number; a finite one is `± significand * 2 ^ exponent`. -/
inductive Binary64 where
  | finite (negative : Bool) (significand : Nat) (exponent : Int)
  | infinite (negative : Bool)
  | nan
deriving DecidableEq, Repr, Inhabited

namespace Binary64

-- powers of integers and naturals, whatever others are at hand
attribute [local instance(high)] instPowNat

/-- The least exponent of a finite number. -/
def leastExponent : Int := -1074

/-- The greatest exponent of a finite number. -/
def greatestExponent : Int := 971

/-- Zero with a sign. -/
def zero (negative : Bool) : Binary64 := .finite negative 0 leastExponent

/-- The quotient `num / (den * 2 ^ exponent)` as a pair of naturals. -/
def scaled (num den : Nat) (exponent : Int) : Nat × Nat :=
  if 0 ≤ exponent then (num, den * 2 ^ exponent.toNat) else (num * 2 ^ (-exponent).toNat, den)

/-- A rounded significand brought below `2 ^ 53`, or infinity past the greatest exponent. -/
def normal (negative : Bool) (significand : Nat) (exponent : Int) : Binary64 :=
  let (significand, exponent) :=
    if significand = 2 ^ (53 : Nat) then (2 ^ (52 : Nat), exponent + 1) else (significand, exponent)
  if greatestExponent < exponent then .infinite negative
  else if significand = 0 then zero negative
  else .finite negative significand exponent

/-- The number nearest to `± num / den`; a tie goes to the even significand. -/
def ofRatio (negative : Bool) (num den : Nat) : Binary64 :=
  if num = 0 ∨ den = 0 then zero negative
  else
    let start : Int := max ((Nat.log2 num : Int) - (Nat.log2 den : Int) - 53) leastExponent
    let (up, down) := scaled num den start
    let exponent := if 2 ^ (53 : Nat) ≤ up / down then start + 1 else start
    let (up, down) := scaled num den exponent
    normal negative (roundQuotient up down) exponent

/-- The magnitude of `significand * 2 ^ exponent` as a quotient of naturals. -/
def ratio (significand : Nat) (exponent : Int) : Nat × Nat :=
  if 0 ≤ exponent then (significand * 2 ^ exponent.toNat, 1)
  else (significand, 2 ^ (-exponent).toNat)

/-- The number nearest to an integer. -/
def ofInt (n : Int) : Binary64 := ofRatio (decide (n < 0)) n.natAbs 1

/-- The number nearest to an integer, unless it is past every finite number. -/
def ofInt? (n : Int) : Option Binary64 :=
  match ofInt n with
  | .finite s m e => some (.finite s m e)
  | _ => none

/-- The number nearest to `± digits * 10 ^ power`. -/
def ofDecimal (negative : Bool) (digits : Nat) (power : Int) : Binary64 :=
  if 0 ≤ power then ofRatio negative (digits * 10 ^ power.toNat) 1
  else ofRatio negative digits (10 ^ (-power).toNat)

/-- Whether the sign is minus. -/
def isNegative : Binary64 → Bool
  | .finite s _ _ => s
  | .infinite s => s
  | .nan => false

/-- The opposite number. -/
def neg : Binary64 → Binary64
  | .finite s m e => .finite (!s) m e
  | .infinite s => .infinite (!s)
  | .nan => .nan

/-- The signed significand at a lower exponent. -/
def alignedTo (low : Int) (negative : Bool) (significand : Nat) (exponent : Int) : Int :=
  let magnitude : Int := significand * 2 ^ (exponent - low).toNat
  if negative then -magnitude else magnitude

/-- The number nearest to `n * 2 ^ exponent`; an exact zero takes the given sign. -/
def ofAligned (zeroSign : Bool) (n : Int) (exponent : Int) : Binary64 :=
  if n = 0 then zero zeroSign
  else
    let (num, den) := ratio n.natAbs exponent
    ofRatio (decide (n < 0)) num den

/-- The sum, rounded once. -/
def add : Binary64 → Binary64 → Binary64
  | .finite s m e, .finite s' m' e' =>
    let low := min e e'
    ofAligned (s && s') (alignedTo low s m e + alignedTo low s' m' e') low
  | .nan, _ => .nan
  | _, .nan => .nan
  | .infinite s, .infinite s' => if s = s' then .infinite s else .nan
  | .infinite s, _ => .infinite s
  | _, .infinite s => .infinite s

/-- The difference, rounded once. -/
def sub (x y : Binary64) : Binary64 := add x (neg y)

/-- The product, rounded once. -/
def mul : Binary64 → Binary64 → Binary64
  | .finite s m e, .finite s' m' e' =>
    let (num, den) := ratio (m * m') (e + e')
    ofRatio (s != s') num den
  | .nan, _ => .nan
  | _, .nan => .nan
  | .infinite s, .infinite s' => .infinite (s != s')
  | .infinite s, .finite s' m _ => if m = 0 then .nan else .infinite (s != s')
  | .finite s m _, .infinite s' => if m = 0 then .nan else .infinite (s != s')

/-- The quotient, rounded once. -/
def div : Binary64 → Binary64 → Binary64
  | .finite s m e, .finite s' m' e' =>
    if m' = 0 then (if m = 0 then .nan else .infinite (s != s'))
    else
      let (num, den) := ratio m e
      let (num', den') := ratio m' e'
      ofRatio (s != s') (num * den') (den * num')
  | .nan, _ => .nan
  | _, .nan => .nan
  | .infinite _, .infinite _ => .nan
  | .infinite s, .finite s' _ _ => .infinite (s != s')
  | .finite s _ _, .infinite s' => zero (s != s')

/-- The order of two numbers, or none when one of them is not a number. -/
def compare? : Binary64 → Binary64 → Option Ordering
  | .finite s m e, .finite s' m' e' =>
    let low := min e e'
    some (compare (alignedTo low s m e) (alignedTo low s' m' e'))
  | .nan, _ => none
  | _, .nan => none
  | .infinite s, .infinite s' => some (compare (!s).toNat (!s').toNat)
  | .infinite s, .finite _ _ _ => some (if s then .lt else .gt)
  | .finite _ _ _, .infinite s => some (if s then .gt else .lt)

/-- Whether `x < y`; no number is below or above what is not a number. -/
def lt (x y : Binary64) : Bool := compare? x y == some .lt

/-- Whether `x ≤ y`. -/
def le (x y : Binary64) : Bool :=
  compare? x y == some .lt || compare? x y == some .eq

/-- Whether two numbers are equal in value; the zeros are equal. -/
def same (x y : Binary64) : Bool := compare? x y == some .eq

/-- Whether the number is one of the infinities. -/
def isInfinite : Binary64 → Bool
  | .infinite _ => true
  | _ => false

/-- Whether the number is not a number. -/
def isNaN : Binary64 → Bool
  | .nan => true
  | _ => false

/-- The integer that the number is, if it is one. -/
def toInt? : Binary64 → Option Int
  | .finite s m e =>
    let (num, den) := ratio m e
    if num % den = 0 then
      let n : Int := (num / den : Nat)
      some (if s then -n else n)
    else none
  | _ => none

/-- The integer nearest to a finite number, a tie going to the even one. -/
def nearestInt? : Binary64 → Option Int
  | .finite s m e =>
    let (num, den) := ratio m e
    let n : Int := (roundQuotient num den : Nat)
    some (if s then -n else n)
  | _ => none

/-- The number nearest to the value rounded at a decimal place, a tie going to the even digit. -/
def roundTo (places : Nat) : Binary64 → Binary64
  | .finite s m e =>
    let (num, den) := ratio m e
    ofRatio s (roundQuotient (num * 10 ^ places) den) (10 ^ places)
  | .infinite s => .infinite s
  | .nan => .nan

end Binary64

/-! ### Whole and fractional numbers together -/

/-- A number that is whole, or fractional. -/
inductive Quantity where
  | whole (n : Int)
  | real (x : Binary64)
deriving DecidableEq, Repr, Inhabited

namespace Quantity

/-- The binary64 number nearest to a quantity, if it is finite or the quantity is fractional. -/
def toBinary64? : Quantity → Option Binary64
  | whole n => Binary64.ofInt? n
  | real x => some x

/-- A computation with two quantities, exact when both are whole. -/
def combine? (exact : Int → Int → Int) (rounded : Binary64 → Binary64 → Binary64) :
    Quantity → Quantity → Option Quantity
  | whole m, whole n => some (whole (exact m n))
  | a, b => do return real (rounded (← a.toBinary64?) (← b.toBinary64?))

/-- The sum. -/
def add? : Quantity → Quantity → Option Quantity := combine? (· + ·) Binary64.add

/-- The product. -/
def mul? : Quantity → Quantity → Option Quantity := combine? (· * ·) Binary64.mul

/-- The quantity rounded at a decimal place. -/
def roundTo (places : Nat) : Quantity → Quantity
  | whole n => whole n
  | real x => real (x.roundTo places)

/-- The quantity as a number that need not be near a binary64 number. -/
def exact : Quantity → Binary64
  | whole n => .finite (decide (n < 0)) n.natAbs 0
  | real x => x

/-- Whether one quantity is below another. -/
def lt (a b : Quantity) : Bool := a.exact.lt b.exact

/-- Whether one quantity is not above another. -/
def le (a b : Quantity) : Bool := a.exact.le b.exact

/-- Whether two quantities are equal in value. -/
def same (a b : Quantity) : Bool := a.exact.same b.exact

end Quantity

end AnimationCode
