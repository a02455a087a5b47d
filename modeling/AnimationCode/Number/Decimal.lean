/-
**Decimal text of binary64 numbers.**

Two texts of a number are written:

* `Decimal.shortest`: the fewest digits that read back as the number, nearest to it among those;
  positional from `10 ^ -4` up to `10 ^ 16`, and always with a point or an exponent;
* `Decimal.general`: six significant digits without trailing zeros; positional from `10 ^ -4` up
  to `10 ^ 6`.

`Decimal.read?` reads a decimal back. Text given where a number is asked for may have blanks around it, a
sign, underscores between digits and digits of any script, and may name an infinity or what is not a number.

* `Decimal.readFree?`: the number that such a text writes;
* `Decimal.readField?`, `Decimal.readWhole?`: the same for a field of a record, where digits are plain.
-/

import AnimationCode.Number.Binary64
import AnimationCode.Text.Blank
import AnimationCode.Text.LetterCase
import AnimationCode.Text.Word

namespace AnimationCode

namespace Decimal

-- powers as in the numbers themselves
attribute [local instance(high)] instPowNat

/-- The decimal digits of a natural number. -/
def digitsOf (n : Nat) : List Char := Nat.toDigits 10 n

/-- The number of decimal digits of a natural number. -/
def digitCount (n : Nat) : Nat := (digitsOf n).length

/-- The most decimal digits of which a whole number is read, and with which it is written. -/
def digitLimit : Nat := 4300

/-- The least power of ten that lifts `num / den` to at least one, searched upward. -/
def liftingPower (num den : Nat) : Nat → Nat → Nat
  | 0, power => power
  | fuel + 1, power =>
    if den ≤ num * 10 ^ power then power else liftingPower num den fuel (power + 1)

/-- The power of ten of the leading digit of a positive quotient. -/
def leadingPower (num den : Nat) : Int :=
  if den ≤ num then (digitCount (num / den) : Int) - 1
  else -(liftingPower num den 400 1 : Int)

/-- The quotient `num / den / 10 ^ power` as a pair of naturals. -/
def onGrid (num den : Nat) (power : Int) : Nat × Nat :=
  if 0 ≤ power then (num, den * 10 ^ power.toNat) else (num * 10 ^ (-power).toNat, den)

/-- The neighbour on the grid `10 ^ power` that reads back as `x`, the nearer one if both do. -/
def gridPoint? (x : Binary64) (num den : Nat) (power : Int) : Option Nat :=
  let (up, down) := onGrid num den power
  let below := up / down
  let fits (d : Nat) : Bool := decide (Binary64.ofDecimal false d power = x)
  let nearer := roundQuotient up down
  let other := if nearer = below then below + 1 else below
  if fits nearer then some nearer else if fits other then some other else none

/-- The first grid, from one digit on, that has a point reading back as `x`. -/
def shortestDigits (x : Binary64) (num den : Nat) (lead : Int) : Nat → Nat → Nat × Int
  | 0, _ => (num / den, 0)
  | fuel + 1, digits =>
    let power := lead - digits
    match gridPoint? x num den power with
    | some d => (d, power)
    | none => shortestDigits x num den lead fuel (digits + 1)

/-- A decimal without its trailing zeros. -/
def stripZeros (digits : Nat) (power : Int) : Nat → Nat × Int
  | 0 => (digits, power)
  | fuel + 1 =>
    if digits ≠ 0 ∧ digits % 10 = 0 then stripZeros (digits / 10) (power + 1) fuel
    else (digits, power)

/-- `digits * 10 ^ power` with a point after the integer part and none without a fraction. -/
def positional (digits : Nat) (power : Int) : String :=
  let cs := digitsOf digits
  if 0 ≤ power then String.ofList (cs ++ List.replicate power.toNat '0')
  else
    let places := (-power).toNat
    let padded := List.replicate (places + 1 - cs.length) '0' ++ cs
    String.ofList (padded.take (padded.length - places) ++ '.' :: padded.drop (padded.length - places))

/-- The exponent's sign and at least two digits. -/
def exponentText (power : Int) : String :=
  let magnitude := toString power.natAbs
  let padded := if magnitude.length < 2 then "0" ++ magnitude else magnitude
  (if power < 0 then "e-" else "e+") ++ padded

/-- One digit before the point, then the exponent. -/
def scientific (digits : Nat) (lead : Int) : String :=
  match digitsOf digits with
  | [] => exponentText lead
  | [d] => String.ofList [d] ++ exponentText lead
  | d :: rest => String.ofList (d :: '.' :: rest) ++ exponentText lead

/-- The sign of a text. -/
def signed (negative : Bool) (text : String) : String := if negative then "-" ++ text else text

/-- The shortest text of a number that reads back as it. -/
def shortest : Binary64 → String
  | .nan => "nan"
  | .infinite s => signed s "inf"
  | .finite s m e =>
    if m = 0 then signed s "0.0"
    else
      let (num, den) := Binary64.ratio m e
      let (digits, power) := shortestDigits (.finite false m e) num den (leadingPower num den) 18 0
      let (digits, power) := stripZeros digits power 400
      let lead := power + digitCount digits - 1
      let body :=
        if -4 ≤ lead ∧ lead < 16 then
          (if 0 ≤ power then positional digits power ++ ".0" else positional digits power)
        else scientific digits lead
      signed s body

/-- Six significant digits, without trailing zeros. -/
def general : Binary64 → String
  | .nan => "nan"
  | .infinite s => signed s "inf"
  | .finite s m e =>
    if m = 0 then signed s "0"
    else
      let (num, den) := Binary64.ratio m e
      let power := leadingPower num den - 5
      let (up, down) := onGrid num den power
      let (digits, power) := stripZeros (roundQuotient up down) power 400
      let lead := power + digitCount digits - 1
      signed s (if -4 ≤ lead ∧ lead < 6 then positional digits power else scientific digits lead)

/-- The value of a digit. -/
def digitValue (c : Char) : Nat := c.toNat - '0'.toNat

/-- The natural number that decimal digits write. -/
def natOf (cs : List Char) : Nat := cs.foldl (fun n c => 10 * n + digitValue c) 0

/-- The leading digits of a text and what follows them. -/
def spanDigits (cs : List Char) : List Char × List Char :=
  (cs.takeWhile Char.isDigit, cs.dropWhile Char.isDigit)

/-- The digits after a point, if the text begins with one, and what follows them. -/
def spanFraction (cs : List Char) : List Char × List Char :=
  match cs with
  | '.' :: rest => spanDigits rest
  | rest => ([], rest)

/-- The exponent part `e±digits` at the end of a text; an empty text has exponent zero. -/
def readExponent? : List Char → Option Int
  | [] => some 0
  | c :: cs =>
    if c = 'e' ∨ c = 'E' then
      let (negative, rest) := match cs with
        | '-' :: r => (true, r)
        | '+' :: r => (false, r)
        | r => (false, r)
      if rest ≠ [] ∧ rest.all Char.isDigit then
        let n : Int := (natOf rest : Nat)
        some (if negative then -n else n)
      else none
    else none

/-- Reads an unsigned decimal: digits, a fraction and an exponent, with a digit before the exponent. -/
def read? (cs : List Char) : Option Binary64 :=
  let (whole, rest) := spanDigits cs
  let (fraction, rest) := spanFraction rest
  if whole = [] ∧ fraction = [] then none
  else (readExponent? rest).map fun (exponent : Int) =>
    let digits := natOf (whole ++ fraction)
    let power : Int := exponent - (fraction.length : Int)
    -- past these powers every positive decimal is infinite, or rounds to zero
    if digits = 0 then Binary64.zero false
    else if 400 < power + digitCount digits then .infinite false
    else if power + digitCount digits < -400 then Binary64.zero false
    else Binary64.ofDecimal false digits power

end Decimal

/-! ### Numbers in free text -/

namespace Decimal

/-- Decimal digits of any script as the plain ones. -/
def plainDigits (cs : List Char) : List Char :=
  cs.map fun c => ((Text.digitValue? c).map fun n => Char.ofNat ('0'.toNat + n)).getD c

/-- A text without its underscores, if each stands between two digits. -/
def withoutUnderscores? : Option Char → List Char → Option (List Char)
  | _, [] => some []
  | before, '_' :: rest =>
    if before.any Char.isDigit && rest.head?.any Char.isDigit then withoutUnderscores? (some '_') rest
    else none
  | _, c :: rest => (withoutUnderscores? (some c) rest).map (c :: ·)

/-- The number that a text without a sign writes. -/
def readUnsigned? (cs : List Char) : Option Binary64 :=
  let named := String.ofList (cs.map Text.lower)
  if named = "inf" ∨ named = "infinity" then some (.infinite false)
  else if named = "nan" then some .nan
  else (withoutUnderscores? none cs).bind read?

/-- The number that a text writes. -/
def readSigned? : List Char → Option Binary64
  | '-' :: rest => (readUnsigned? rest).map Binary64.neg
  | '+' :: rest => readUnsigned? rest
  | cs => readUnsigned? cs

/-- The number that a text writes in digits of any script, blanks around it aside. -/
def readFree? (text : String) : Option Binary64 := readSigned? (plainDigits (Text.trim text.toList))

/-- The number that a text writes in plain digits, blanks around it aside. -/
def readField? (text : String) : Option Binary64 := readSigned? (Text.trim text.toList)

/-- The natural number that digits write, a point with zeros after it aside. -/
def readNatural? (cs : List Char) : Option Nat :=
  let digits := cs.takeWhile (· != '.')
  let zeros := (cs.dropWhile (· != '.')).drop 1
  match withoutUnderscores? none digits with
  | some digits =>
    if !digits.isEmpty && digits.all Char.isDigit && zeros.all (· == '0') then some (natOf digits)
    else none
  | none => none

/-- The whole number that a text writes in plain digits, blanks around it aside. -/
def readWhole? (text : String) : Option Int :=
  match Text.trim text.toList with
  | '-' :: rest => (readNatural? rest).map fun n => -(n : Int)
  | '+' :: rest => (readNatural? rest).map Int.ofNat
  | cs => (readNatural? cs).map Int.ofNat

end Decimal

end AnimationCode
