/-
**The fewest digits that read back as a number.**

The grids of powers of ten are searched from one digit on, and with eighteen digits a grid is so fine
that one of its points is rounded to the number.

* `Decimal.shortestDigits_spec`: the search ends at a decimal that is rounded to the number;
* `Decimal.stripZeros_spec`: leaving out zeros at the end changes nothing.
-/

import AnimationCode.Number.Decimal
import AnimationCode.Proofs.Number.Rounding
import Mathlib.Data.Nat.Cast.Order.Field

namespace AnimationCode

namespace Binary64

theorem ofDecimal_eq (negative : Bool) (digits : Nat) (power : Int) :
    ofDecimal negative digits power =
      ofRatio negative (digits * 10 ^ power.toNat) (10 ^ (-power).toNat) := by
  unfold ofDecimal
  split
  · rename_i up
    rw [Int.toNat_of_nonpos (by omega : -power ≤ 0), pow_zero]
  · rename_i down
    rw [Int.toNat_of_nonpos (by omega : power ≤ 0), pow_zero, mul_one]

/-- A power of ten as a quotient of naturals. -/
theorem ten_zpow_eq (power : Int) :
    (10 : ℚ) ^ power = (10 ^ power.toNat : Nat) / (10 ^ (-power).toNat : Nat) := by
  rcases le_total 0 power with up | down
  · obtain ⟨n, rfl⟩ := Int.eq_ofNat_of_zero_le up
    simp
  · obtain ⟨n, same⟩ := Int.eq_ofNat_of_zero_le (by omega : 0 ≤ -power)
    obtain rfl : power = -n := by omega
    simp

/-- A zero at the end of the digits counts for the power. -/
theorem ofDecimal_ten_mul (negative : Bool) (digits : Nat) (power : Int) :
    ofDecimal negative (10 * digits) power = ofDecimal negative digits (power + 1) := by
  rw [ofDecimal_eq, ofDecimal_eq]
  rcases le_or_gt 0 power with up | down
  · obtain ⟨n, rfl⟩ := Int.eq_ofNat_of_zero_le up
    have next : ((n : Int) + 1).toNat = n + 1 := by omega
    have below : (-((n : Int) + 1)).toNat = (-(n : Int)).toNat := by omega
    rw [next, below, Int.toNat_natCast]
    ring_nf
  · have high : power.toNat = (power + 1).toNat := by omega
    have low : (-power).toNat = (-(power + 1)).toNat + 1 := by omega
    rw [high, low, pow_succ', mul_assoc, ofRatio_mul negative (by norm_num)]

/-- A decimal that is close to a number is rounded to it. -/
theorem ofDecimal_of_near {negative : Bool} {m digits : Nat} {e power : Int} (positive : 0 < m)
    (canonical : IsCanonical (.finite negative m e))
    (near : |(digits * 10 ^ power : ℚ) - m * 2 ^ e| < 2 ^ e / 4) :
    ofDecimal negative digits power = .finite negative m e := by
  rw [ofDecimal_eq]
  refine ofRatio_of_near positive (by positivity) canonical ?_
  rw [ten_zpow_eq] at near
  push_cast at near ⊢
  rwa [mul_div_assoc]

theorem ratio_eq (m : Nat) (e : Int) : ((ratio m e).1 : ℚ) / (ratio m e).2 = m * 2 ^ e := by
  unfold ratio
  split
  · rename_i up
    obtain ⟨n, rfl⟩ := Int.eq_ofNat_of_zero_le up
    simp
  · rename_i down
    obtain ⟨n, same⟩ := Int.eq_ofNat_of_zero_le (by omega : 0 ≤ -e)
    obtain rfl : e = -n := by omega
    simp [div_eq_mul_inv]

theorem ratio_snd_pos (m : Nat) (e : Int) : 0 < (ratio m e).2 := by
  unfold ratio
  split
  · exact Nat.one_pos
  · positivity

theorem ratio_fst_pos {m : Nat} (positive : 0 < m) (e : Int) : 0 < (ratio m e).1 := by
  unfold ratio
  split
  · positivity
  · exact positive

theorem ratio_snd_le (m : Nat) {e : Int} {count : Nat} (few : -e ≤ count) :
    (ratio m e).2 ≤ 2 ^ count := by
  unfold ratio
  split
  · exact Nat.one_le_two_pow
  · exact Nat.pow_le_pow_right (by norm_num) (by omega)

end Binary64

namespace Decimal

open Binary64 (IsCanonical ofDecimal ratio)

/-! ### The leading digit -/

theorem onGrid_snd_pos (num : Nat) {den : Nat} (positive : 0 < den) (power : Int) :
    0 < (onGrid num den power).2 := by
  unfold onGrid
  split <;> positivity

/-- The quotient on the grid of a power of ten. -/
theorem onGrid_eq (num den : Nat) (power : Int) :
    ((onGrid num den power).1 : ℚ) / (onGrid num den power).2 = num / den * 10 ^ (-power) := by
  unfold onGrid
  split
  · rename_i up
    obtain ⟨n, rfl⟩ := Int.eq_ofNat_of_zero_le up
    rw [Int.toNat_natCast, zpow_neg, zpow_natCast]
    push_cast
    rw [← div_div, div_eq_mul_inv _ ((10 : ℚ) ^ n)]
  · rename_i down
    obtain ⟨n, same⟩ := Int.eq_ofNat_of_zero_le (by omega : 0 ≤ -power)
    rw [same, Int.toNat_natCast, zpow_natCast]
    push_cast
    ring

/-- The search for a lifting power ends at one, and not after any other. -/
theorem liftingPower_spec {num den enough : Nat} (fuel power : Nat) (from_ : power ≤ enough)
    (lifts : den ≤ num * 10 ^ enough) (within : enough < power + fuel) :
    den ≤ num * 10 ^ liftingPower num den fuel power ∧ liftingPower num den fuel power ≤ enough := by
  induction fuel generalizing power with
  | zero => omega
  | succ fuel ih =>
    rw [liftingPower]
    split
    · rename_i here
      exact ⟨here, from_⟩
    · rename_i notHere
      have later : power ≠ enough := by
        rintro rfl
        exact notHere lifts
      exact ih (power + 1) (by omega) (by omega)

theorem pow_digitCount_le {n : Nat} (positive : 0 < n) : 10 ^ (digitCount n - 1) ≤ n := by
  rcases Nat.eq_zero_or_pos (digitCount n - 1) with none | more
  · rw [none, pow_zero]
    exact positive
  · by_contra short
    have few : digitCount n ≤ digitCount n - 1 :=
      (Nat.length_toDigits_le_iff (by norm_num) more).mpr (Nat.lt_of_not_le short)
    omega

theorem digitCount_pos (n : Nat) : 0 < digitCount n := Nat.length_toDigits_pos

/-- The power of the leading digit is not past the quotient, nor far below one. -/
theorem leadingPower_spec {num den : Nat} (positive : 0 < den)
    (least : den ≤ num * 10 ^ 324) :
    (10 : ℚ) ^ leadingPower num den ≤ num / den ∧ -324 ≤ leadingPower num den := by
  have positive' : (0 : ℚ) < den := by exact_mod_cast positive
  unfold leadingPower
  split
  · rename_i whole
    have quotient : 0 < num / den := Nat.div_pos whole positive
    have count := digitCount_pos (num / den)
    obtain ⟨k, same⟩ := Nat.exists_eq_add_of_lt count
    have power : ((digitCount (num / den) : Nat) : Int) - 1 = (k : Nat) := by omega
    refine ⟨?_, by omega⟩
    rw [power, zpow_natCast, le_div_iff₀ positive']
    have low := pow_digitCount_le quotient
    rw [show digitCount (num / den) - 1 = k by omega] at low
    have inside : num / den * den ≤ num := Nat.div_mul_le_self num den
    have : 10 ^ k * den ≤ num := le_trans (Nat.mul_le_mul_right den low) inside
    exact_mod_cast this
  · rename_i fraction
    have enough : den ≤ num * 10 ^ 324 := least
    obtain ⟨lifts, most⟩ := liftingPower_spec 400 1 (by norm_num) enough (by norm_num)
    refine ⟨?_, by omega⟩
    rw [zpow_neg, zpow_natCast, inv_le_iff_one_le_mul₀ (by positivity), div_mul_eq_mul_div,
      one_le_div positive']
    exact_mod_cast lifts

/-! ### The search -/

theorem roundQuotient_cases (num den : Nat) :
    roundQuotient num den = num / den ∨ roundQuotient num den = num / den + 1 := by
  unfold roundQuotient
  dsimp only
  split
  · exact Or.inl rfl
  · split
    · exact Or.inr rfl
    · split
      · exact Or.inl rfl
      · exact Or.inr rfl

/-- A point of a grid that is found reads back as the number, and lies at most a step above it. -/
theorem gridPoint?_spec {x : Binary64} {num den digits : Nat} {power : Int} (positive : 0 < den)
    (found : gridPoint? x num den power = some digits) :
    ofDecimal false digits power = x ∧
      (digits : ℚ) * 10 ^ power ≤ num / den + 10 ^ power := by
  have posDown := onGrid_snd_pos num positive power
  have castDown : (0 : ℚ) < (onGrid num den power).2 := by exact_mod_cast posDown
  have step : (0 : ℚ) < 10 ^ power := by positivity
  have bound {d : Nat} (le : d ≤ (onGrid num den power).1 / (onGrid num den power).2 + 1) :
      (d : ℚ) * 10 ^ power ≤ num / den + 10 ^ power := by
    have floor : (((onGrid num den power).1 / (onGrid num den power).2 : Nat) : ℚ) ≤
        num / den * 10 ^ (-power) := by
      rw [← onGrid_eq]
      exact Nat.cast_div_le
    have le' : (d : ℚ) ≤ num / den * 10 ^ (-power) + 1 := by
      have : (d : ℚ) ≤ ((onGrid num den power).1 / (onGrid num den power).2 : Nat) + 1 := by
        exact_mod_cast le
      linarith
    calc (d : ℚ) * 10 ^ power ≤ (num / den * 10 ^ (-power) + 1) * 10 ^ power := by gcongr
      _ = num / den + 10 ^ power := by
          rw [add_mul, mul_assoc, ← zpow_add₀ (by norm_num)]
          simp
  have below : roundQuotient (onGrid num den power).1 (onGrid num den power).2 ≤
      (onGrid num den power).1 / (onGrid num den power).2 + 1 := by
    rcases roundQuotient_cases (onGrid num den power).1 (onGrid num den power).2 with same | same <;>
      omega
  have other : (if roundQuotient (onGrid num den power).1 (onGrid num den power).2 =
        (onGrid num den power).1 / (onGrid num den power).2
      then (onGrid num den power).1 / (onGrid num den power).2 + 1
      else (onGrid num den power).1 / (onGrid num den power).2) ≤
      (onGrid num den power).1 / (onGrid num den power).2 + 1 := by
    split <;> omega
  simp only [gridPoint?, decide_eq_true_eq] at found
  split at found
  · rename_i fits
    cases found
    exact ⟨fits, bound below⟩
  · generalize (if roundQuotient (onGrid num den power).1 (onGrid num den power).2 =
        (onGrid num den power).1 / (onGrid num den power).2
      then (onGrid num den power).1 / (onGrid num den power).2 + 1
      else (onGrid num den power).1 / (onGrid num den power).2) = next at found other
    split at found
    · rename_i fits
      cases found
      exact ⟨fits, bound other⟩
    · cases found

/-- On a grid that is fine enough, the nearest point reads back as the number. -/
theorem gridPoint?_of_fine {m num den : Nat} {e power : Int} (positive : 0 < m) (posDen : 0 < den)
    (canonical : IsCanonical (.finite false m e)) (value : (num / den : ℚ) = m * 2 ^ e)
    (fine : (10 : ℚ) ^ power < 2 ^ e / 2) :
    gridPoint? (.finite false m e) num den power ≠ none := by
  have posDown := onGrid_snd_pos num posDen power
  have step : (0 : ℚ) < 10 ^ power := by positivity
  have near : |(roundQuotient (onGrid num den power).1 (onGrid num den power).2 * 10 ^ power : ℚ) -
      m * 2 ^ e| < 2 ^ e / 4 := by
    have rounded := abs_roundQuotient_sub_le (onGrid num den power).1 posDown
    rw [onGrid_eq, value] at rounded
    calc |(roundQuotient (onGrid num den power).1 (onGrid num den power).2 * 10 ^ power : ℚ) -
          m * 2 ^ e|
        = |(roundQuotient (onGrid num den power).1 (onGrid num den power).2 : ℚ) -
            m * 2 ^ e * 10 ^ (-power)| * 10 ^ power := by
          rw [← abs_of_pos step, ← abs_mul, abs_of_pos step, sub_mul, mul_assoc _ _ ((10 : ℚ) ^ power),
            ← zpow_add₀ (by norm_num)]
          simp
      _ ≤ 1 / 2 * 10 ^ power := by gcongr
      _ < 2 ^ e / 4 := by linarith
  have fits := Binary64.ofDecimal_of_near positive canonical near
  unfold gridPoint?
  dsimp only
  rw [if_pos (decide_eq_true fits)]
  exact Option.some_ne_none _

/-- The number of digits after which the search ends at the latest. -/
def mostDigits : Nat := 17

/-- The search ends at a decimal that is rounded to the number and not far from it. -/
theorem shortestDigits_spec {m num den : Nat} {e lead : Int} (fuel digits : Nat) (positive : 0 < m)
    (posDen : 0 < den) (canonical : IsCanonical (.finite false m e))
    (value : (num / den : ℚ) = m * 2 ^ e) (leading : (10 : ℚ) ^ lead ≤ num / den)
    (soon : digits ≤ mostDigits) (enough : mostDigits < digits + fuel) :
    let found := shortestDigits (.finite false m e) num den lead fuel digits
    ofDecimal false found.1 found.2 = .finite false m e ∧ lead - mostDigits ≤ found.2 ∧
      (found.1 : ℚ) * 10 ^ found.2 ≤ 2 * (m * 2 ^ e) := by
  induction fuel generalizing digits with
  | zero => omega
  | succ fuel ih =>
    rw [shortestDigits]
    dsimp only
    split
    · rename_i d found
      obtain ⟨reads, below⟩ := gridPoint?_spec posDen found
      refine ⟨reads, by simp only; omega, ?_⟩
      have smaller : (10 : ℚ) ^ (lead - digits) ≤ 10 ^ lead :=
        zpow_le_zpow_right₀ (by norm_num) (by omega)
      simp only
      rw [value] at below leading
      linarith
    · rename_i missed
      have early : digits ≠ mostDigits := by
        rintro rfl
        -- with eighteen digits a step of the grid is below a half of the last binary place
        refine gridPoint?_of_fine positive posDen canonical value ?_ missed
        have unit : (0 : ℚ) < 2 ^ e := by positivity
        have narrow : (m : ℚ) < 2 ^ 53 := by exact_mod_cast canonical.1
        have split : (10 : ℚ) ^ (lead - (mostDigits : Nat)) = 10 ^ lead / 10 ^ 17 := by
          rw [zpow_sub₀ (by norm_num)]
          rfl
        rw [split, div_lt_iff₀ (by norm_num)]
        rw [value] at leading
        calc (10 : ℚ) ^ lead ≤ m * 2 ^ e := leading
          _ < 2 ^ 53 * 2 ^ e := by gcongr
          _ < 2 ^ e / 2 * 10 ^ 17 := by nlinarith
      exact ih (digits + 1) (by omega) (by omega)

/-- Leaving out zeros at the end changes nothing. -/
theorem stripZeros_spec (negative : Bool) (fuel : Nat) {digits : Nat} {power : Int}
    (positive : 0 < digits) :
    let found := stripZeros digits power fuel
    ofDecimal negative found.1 found.2 = ofDecimal negative digits power ∧ 0 < found.1 ∧
      power ≤ found.2 ∧ (found.1 : ℚ) * 10 ^ found.2 = digits * 10 ^ power := by
  induction fuel generalizing digits power with
  | zero => exact ⟨rfl, positive, le_refl _, rfl⟩
  | succ fuel ih =>
    rw [stripZeros]
    split
    · rename_i zero
      have tens : 10 * (digits / 10) = digits := by omega
      obtain ⟨reads, pos, up, same⟩ := @ih (digits / 10) (power + 1) (by omega)
      refine ⟨?_, pos, by omega, ?_⟩
      · rw [reads, ← Binary64.ofDecimal_ten_mul, tens]
      · have cast : (digits : ℚ) = 10 * (digits / 10 : Nat) := by exact_mod_cast tens.symm
        rw [same, cast, zpow_add₀ (by norm_num)]
        ring
    · exact ⟨rfl, positive, le_refl _, rfl⟩

end Decimal

end AnimationCode
