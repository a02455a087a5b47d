/-
**Rounding a quotient to a binary64 number.**

A positive quotient has one exponent at which its significand has the width of a binary64 number; the
number nearest to it is found on the grid of that exponent.

* `Binary64.ofRatio_eq`: the number nearest to a quotient, given its exponent;
* `Binary64.ofRatio_mul`: a quotient and the same quotient extended have the same nearest number;
* `Binary64.ofRatio_of_near`: what is close to a binary64 number is rounded to it.
-/

import AnimationCode.Number.Binary64
import Mathlib.Algebra.Order.Field.Power
import Mathlib.Data.Rat.Cast.Order
import Mathlib.Tactic.FieldSimp
import Mathlib.Tactic.Linarith
import Mathlib.Tactic.Positivity
import Mathlib.Tactic.Ring

namespace AnimationCode

/-! ### Rounded quotients -/

theorem roundQuotient_mul {factor : Nat} (positive : 0 < factor) (num den : Nat) :
    roundQuotient (factor * num) (factor * den) = roundQuotient num den := by
  have twice : 2 * (factor * num % (factor * den)) = factor * (2 * (num % den)) := by
    rw [Nat.mul_mod_mul_left]
    ring
  simp only [roundQuotient, Nat.mul_div_mul_left _ _ positive, twice,
    Nat.mul_lt_mul_left positive]

/-- Equal quotients are rounded alike. -/
theorem roundQuotient_congr {num den num' den' : Nat} (positive : 0 < den) (positive' : 0 < den')
    (same : num * den' = num' * den) : roundQuotient num den = roundQuotient num' den' := by
  rw [← roundQuotient_mul positive' num den, ← roundQuotient_mul positive num' den',
    Nat.mul_comm den' num, same, Nat.mul_comm num' den, Nat.mul_comm den' den]

/-- A rounded quotient is at most a half away. -/
theorem abs_roundQuotient_sub_le (num : Nat) {den : Nat} (positive : 0 < den) :
    |(roundQuotient num den : ℚ) - num / den| ≤ 1 / 2 := by
  have positive' : (0 : ℚ) < den := by exact_mod_cast positive
  have parts : (den * (num / den : Nat) + (num % den : Nat) : ℚ) = num := by
    exact_mod_cast Nat.div_add_mod num den
  have quotient : (num : ℚ) / den = (num / den : Nat) + (num % den : Nat) / den := by
    rw [← parts]
    field_simp
  have half {n : Nat} (le : 2 * n ≤ den) : (n : ℚ) / den ≤ 1 / 2 := by
    rw [div_le_iff₀ positive']
    have : ((2 * n : Nat) : ℚ) ≤ den := by exact_mod_cast le
    push_cast at this
    linarith
  have half' {n : Nat} (le : den ≤ 2 * n) : 1 / 2 ≤ (n : ℚ) / den := by
    rw [le_div_iff₀ positive']
    have : (den : ℚ) ≤ ((2 * n : Nat) : ℚ) := by exact_mod_cast le
    push_cast at this
    linarith
  have whole : ((num % den : Nat) : ℚ) / den ≤ 1 := by
    rw [div_le_one positive']
    exact_mod_cast (Nat.mod_lt num positive).le
  have nonneg : (0 : ℚ) ≤ ((num % den : Nat) : ℚ) / den := by positivity
  rw [quotient, abs_le]
  unfold roundQuotient
  dsimp only
  split
  · rename_i below
    have := half below.le
    constructor <;> linarith
  · rename_i notBelow
    have := half' (Nat.le_of_not_lt notBelow)
    split
    · push_cast
      constructor <;> linarith
    · rename_i notAbove
      have := half (Nat.le_of_not_lt notAbove)
      split
      · constructor <;> linarith
      · push_cast
        constructor <;> linarith

/-- An integer less than a half away is the nearest one. -/
theorem roundQuotient_of_near {num den n : Nat} (positive : 0 < den)
    (near : |(num : ℚ) / den - n| < 1 / 2) : roundQuotient num den = n := by
  have rounded := abs_roundQuotient_sub_le num positive
  have apart : |((roundQuotient num den : ℤ) : ℚ) - (n : ℤ)| < 1 := by
    calc |((roundQuotient num den : ℤ) : ℚ) - (n : ℤ)|
        = |((roundQuotient num den : ℚ) - num / den) + (num / den - n)| := by push_cast; ring_nf
      _ ≤ |(roundQuotient num den : ℚ) - num / den| + |(num : ℚ) / den - n| := abs_add_le _ _
      _ < 1 := by linarith
  have same : (roundQuotient num den : ℤ) - n = 0 :=
    Int.abs_lt_one_iff.mp (by exact_mod_cast apart)
  omega

namespace Binary64

/-! ### The exponent of a quotient -/

/-- The exponent at which a positive quotient has the width of a significand, or the least one. -/
structure Fits (quotient : ℚ) (exponent : Int) : Prop where
  within : quotient < 2 ^ (53 + exponent)
  wide : 2 ^ (52 + exponent) ≤ quotient ∨ exponent = leastExponent
  least : leastExponent ≤ exponent

theorem Fits.le {quotient : ℚ} {exponent other : Int} (fits : Fits quotient exponent)
    (others : Fits quotient other) : exponent ≤ other := by
  rcases fits.wide with wide | least
  · have apart : (2 : ℚ) ^ (52 + exponent) < 2 ^ (53 + other) := lt_of_le_of_lt wide others.within
    have powers := (zpow_lt_zpow_iff_right₀ (by norm_num : (1 : ℚ) < 2)).mp apart
    omega
  · rw [least]
    exact others.least

/-- There is one such exponent. -/
theorem Fits.unique {quotient : ℚ} {exponent other : Int} (fits : Fits quotient exponent)
    (others : Fits quotient other) : exponent = other :=
  le_antisymm (fits.le others) (others.le fits)

theorem scaled_pos (num : Nat) {den : Nat} (positive : 0 < den) (exponent : Int) :
    0 < (scaled num den exponent).2 := by
  unfold scaled
  split
  · exact Nat.mul_pos positive (by positivity)
  · exact positive

/-- The quotient on the grid of an exponent. -/
theorem scaled_eq (num : Nat) {den : Nat} (positive : 0 < den) (exponent : Int) :
    ((scaled num den exponent).1 : ℚ) / (scaled num den exponent).2 =
      num / den * 2 ^ (-exponent) := by
  have positive' : (den : ℚ) ≠ 0 := by exact_mod_cast positive.ne'
  unfold scaled
  split
  · rename_i up
    obtain ⟨n, rfl⟩ := Int.eq_ofNat_of_zero_le up
    push_cast
    rw [Int.toNat_natCast, zpow_neg, zpow_natCast]
    field_simp
  · rename_i down
    obtain ⟨n, same⟩ := Int.eq_ofNat_of_zero_le (by omega : 0 ≤ -exponent)
    rw [same, Int.toNat_natCast, zpow_natCast]
    push_cast
    ring

/-- Whether a quotient is too wide at an exponent. -/
theorem le_scaled_div {num den : Nat} (positive : 0 < den) (exponent : Int) :
    2 ^ 53 ≤ (scaled num den exponent).1 / (scaled num den exponent).2 ↔
      (2 : ℚ) ^ (53 + exponent) ≤ num / den := by
  have positive' := scaled_pos num positive exponent
  have cast : (0 : ℚ) < (scaled num den exponent).2 := by exact_mod_cast positive'
  have power : (0 : ℚ) < 2 ^ exponent := by positivity
  have split : (2 : ℚ) ^ (53 + exponent) = 2 ^ 53 * 2 ^ exponent := by
    rw [zpow_add₀ (by norm_num)]
    norm_num
  have width : ((2 ^ 53 * (scaled num den exponent).2 : Nat) : ℚ) ≤ (scaled num den exponent).1 ↔
      (2 : ℚ) ^ 53 ≤ (scaled num den exponent).1 / (scaled num den exponent).2 := by
    rw [le_div_iff₀ cast]
    push_cast
    rfl
  rw [Nat.le_div_iff_mul_le positive', split, ← Nat.cast_le (α := ℚ), width,
    scaled_eq num positive, zpow_neg, ← div_eq_mul_inv, le_div_iff₀ power]

/-- The exponent that is searched for fits. -/
theorem fits_exponent {num den : Nat} (positive : 0 < num) (positive' : 0 < den) :
    let start : Int := max ((Nat.log2 num : Int) - (Nat.log2 den : Int) - 53) leastExponent
    let at_ := scaled num den start
    Fits (num / den) (if 2 ^ 53 ≤ at_.1 / at_.2 then start + 1 else start) := by
  intro start at_
  have two : (1 : ℚ) < 2 := by norm_num
  have castDen : (0 : ℚ) < den := by exact_mod_cast positive'
  have numLow : (2 : ℚ) ^ (Nat.log2 num : Int) ≤ num := by
    exact_mod_cast Nat.log2_self_le positive.ne'
  have numHigh : (num : ℚ) < 2 ^ ((Nat.log2 num : Int) + 1) := by
    exact_mod_cast (Nat.lt_log2_self (n := num))
  have denLow : (2 : ℚ) ^ (Nat.log2 den : Int) ≤ den := by
    exact_mod_cast Nat.log2_self_le positive'.ne'
  have denHigh : (den : ℚ) < 2 ^ ((Nat.log2 den : Int) + 1) := by
    exact_mod_cast (Nat.lt_log2_self (n := den))
  have low : (2 : ℚ) ^ ((Nat.log2 num : Int) - Nat.log2 den - 1) ≤ num / den := by
    rw [le_div_iff₀ castDen]
    calc (2 : ℚ) ^ ((Nat.log2 num : Int) - Nat.log2 den - 1) * den
        ≤ 2 ^ ((Nat.log2 num : Int) - Nat.log2 den - 1) * 2 ^ ((Nat.log2 den : Int) + 1) := by
          gcongr
      _ = 2 ^ (Nat.log2 num : Int) := by
          rw [← zpow_add₀ (by norm_num)]
          congr 1
          ring
      _ ≤ num := numLow
  have high : (num / den : ℚ) < 2 ^ ((Nat.log2 num : Int) - Nat.log2 den + 1) := by
    rw [div_lt_iff₀ castDen]
    calc (num : ℚ) < 2 ^ ((Nat.log2 num : Int) + 1) := numHigh
      _ = 2 ^ ((Nat.log2 num : Int) - Nat.log2 den + 1) * 2 ^ (Nat.log2 den : Int) := by
          rw [← zpow_add₀ (by norm_num)]
          congr 1
          ring
      _ ≤ 2 ^ ((Nat.log2 num : Int) - Nat.log2 den + 1) * den := by gcongr
  have from_ : (Nat.log2 num : Int) - Nat.log2 den - 53 ≤ start := le_max_left _ _
  have least : leastExponent ≤ start := le_max_right _ _
  by_cases tooWide : 2 ^ 53 ≤ at_.1 / at_.2
  · rw [if_pos tooWide]
    have wide := (le_scaled_div positive' start).mp tooWide
    refine ⟨lt_of_lt_of_le high (zpow_le_zpow_right₀ two.le (by omega)), Or.inl ?_, by omega⟩
    rw [show (52 : Int) + (start + 1) = 53 + start by ring]
    exact wide
  · rw [if_neg tooWide]
    refine ⟨lt_of_not_ge fun wide => tooWide ((le_scaled_div positive' start).mpr wide), ?_, least⟩
    rcases max_choice ((Nat.log2 num : Int) - (Nat.log2 den : Int) - 53) leastExponent with
      first | second
    · left
      have here : start = (Nat.log2 num : Int) - Nat.log2 den - 53 := first
      exact le_trans (zpow_le_zpow_right₀ two.le (by omega)) low
    · exact Or.inr second

/-! ### The nearest number -/

/-- The number nearest to a quotient, given its exponent. -/
theorem ofRatio_eq (negative : Bool) {num den : Nat} {exponent : Int} (positive : 0 < num)
    (positive' : 0 < den) (fits : Fits (num / den) exponent) :
    ofRatio negative num den =
      normal negative (roundQuotient (scaled num den exponent).1 (scaled num den exponent).2)
        exponent := by
  have same := (fits_exponent positive positive').unique fits
  have neither : ¬ (num = 0 ∨ den = 0) := by omega
  rw [ofRatio, if_neg neither]
  dsimp only at same ⊢
  rw [same]

/-- A quotient and the same quotient extended have the same nearest number. -/
theorem ofRatio_mul (negative : Bool) {factor : Nat} (positive : 0 < factor) (num den : Nat) :
    ofRatio negative (factor * num) (factor * den) = ofRatio negative num den := by
  rcases Nat.eq_zero_or_pos num with rfl | posNum
  · simp [ofRatio]
  rcases Nat.eq_zero_or_pos den with rfl | posDen
  · simp [ofRatio]
  obtain ⟨exponent, fits⟩ : ∃ exponent, Fits (num / den) exponent :=
    ⟨_, fits_exponent posNum posDen⟩
  have extended : (((factor * num : Nat) : ℚ) / (factor * den : Nat)) = num / den := by
    push_cast
    exact mul_div_mul_left _ _ (by exact_mod_cast positive.ne')
  rw [ofRatio_eq negative posNum posDen fits,
    ofRatio_eq negative (Nat.mul_pos positive posNum) (Nat.mul_pos positive posDen)
      (extended ▸ fits)]
  congr 1
  refine roundQuotient_congr (scaled_pos _ (Nat.mul_pos positive posDen) _)
    (scaled_pos _ posDen _) ?_
  unfold scaled
  split <;> ring

/-- The numbers as they come out of every operation. -/
def IsCanonical : Binary64 → Prop
  | .finite _ m e =>
    m < 2 ^ 53 ∧ leastExponent ≤ e ∧ e ≤ greatestExponent ∧ (2 ^ 52 ≤ m ∨ e = leastExponent)
  | _ => True

instance : DecidablePred IsCanonical
  | .finite _ m e => inferInstanceAs (Decidable (m < 2 ^ 53 ∧ leastExponent ≤ e ∧ e ≤ greatestExponent ∧
      (2 ^ 52 ≤ m ∨ e = leastExponent)))
  | .infinite _ => .isTrue trivial
  | .nan => .isTrue trivial

theorem normal_of_canonical {negative : Bool} {m : Nat} {e : Int} (positive : 0 < m)
    (canonical : IsCanonical (.finite negative m e)) :
    normal negative m e = .finite negative m e := by
  obtain ⟨narrow, -, most, -⟩ := canonical
  rw [normal, if_neg (by omega : ¬ m = 2 ^ 53)]
  dsimp only
  rw [if_neg (by omega), if_neg (by omega)]

/-- What is close to a binary64 number is rounded to it. -/
theorem ofRatio_of_near {negative : Bool} {m num den : Nat} {e : Int} (positive : 0 < m)
    (posDen : 0 < den) (canonical : IsCanonical (.finite negative m e))
    (near : |(num / den : ℚ) - m * 2 ^ e| < 2 ^ e / 4) :
    ofRatio negative num den = .finite negative m e := by
  obtain ⟨narrow, least, most, wide⟩ := canonical
  have unit : (0 : ℚ) < 2 ^ e := by positivity
  have one : (1 : ℚ) ≤ m := by exact_mod_cast positive
  obtain ⟨low, high⟩ := abs_lt.mp near
  have quotientPos : (0 : ℚ) < num / den := by nlinarith
  have posNum : 0 < num := by
    rcases Nat.eq_zero_or_pos num with rfl | pos
    · simp at quotientPos
    · exact pos
  have width (k : Nat) : (2 : ℚ) ^ ((k : Int) + e) = 2 ^ k * 2 ^ e := by
    rw [zpow_add₀ (by norm_num), zpow_natCast]
  have narrow' : (m : ℚ) ≤ 2 ^ 53 - 1 := by
    have : ((m + 1 : Nat) : ℚ) ≤ (2 ^ 53 : Nat) := by exact_mod_cast narrow
    push_cast at this
    linarith
  by_cases here : (2 : ℚ) ^ ((52 : Nat) + e) ≤ num / den ∨ e = leastExponent
  · have fits : Fits (num / den) e := by
      refine ⟨?_, here, least⟩
      rw [show (53 : Int) + e = (53 : Nat) + e from rfl, width]
      nlinarith
    rw [ofRatio_eq negative posNum posDen fits,
      roundQuotient_of_near (scaled_pos num posDen e) (n := m) ?_]
    · exact normal_of_canonical positive ⟨narrow, least, most, wide⟩
    · rw [scaled_eq num posDen, zpow_neg, ← div_eq_mul_inv, abs_lt]
      constructor
      · rw [lt_sub_iff_add_lt, lt_div_iff₀ unit]
        nlinarith
      · rw [sub_lt_iff_lt_add, div_lt_iff₀ unit]
        nlinarith
  · -- the quotient lies just below the numbers of the exponent `e`, and is rounded up to the first
    obtain ⟨below, above⟩ := not_or.mp here
    rw [not_le, width] at below
    have wide' := wide.resolve_right above
    have first : m = 2 ^ 52 := by
      have : (m : ℚ) < (2 ^ 52 : Nat) + 1 := by
        push_cast
        nlinarith
      have : m < 2 ^ 52 + 1 := by exact_mod_cast this
      omega
    subst first
    have half : (2 : ℚ) ^ (e - 1) = 2 ^ e / 2 := by
      rw [zpow_sub₀ (by norm_num)]
      norm_num
    push_cast at low high
    have fits : Fits (num / den) (e - 1) := by
      refine ⟨?_, Or.inl ?_, by omega⟩
      · rw [show (53 : Int) + (e - 1) = (52 : Nat) + e by push_cast; ring, width]
        exact below
      · rw [show (52 : Int) + (e - 1) = (51 : Nat) + e by push_cast; ring, width]
        nlinarith
    rw [ofRatio_eq negative posNum posDen fits,
      roundQuotient_of_near (scaled_pos num posDen (e - 1)) (n := 2 ^ 53) ?_]
    · rw [normal, if_pos rfl]
      dsimp only
      rw [sub_add_cancel, if_neg (by omega), if_neg (by norm_num)]
    · rw [scaled_eq num posDen, zpow_neg, ← div_eq_mul_inv, half, abs_lt]
      push_cast
      have unit' : (0 : ℚ) < 2 ^ e / 2 := by positivity
      constructor
      · rw [lt_sub_iff_add_lt, lt_div_iff₀ unit']
        nlinarith
      · rw [sub_lt_iff_lt_add, div_lt_iff₀ unit']
        nlinarith

end Binary64

end AnimationCode
