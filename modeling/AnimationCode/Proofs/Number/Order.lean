/-
**Rounding keeps the order of numbers.**

The magnitude of a number is a rational, and that of an infinity is above all of them. Of two quotients the larger is rounded
to a number of no smaller magnitude. So do products, differences from one, what is kept between zero and one, and the integers
that are nearest.

* `Binary64.magnitude_ofRatio_le`: rounding keeps the order of quotients;
* `Binary64.isCanonical_ofRatio`: every rounded quotient is a number as it comes out of an operation, and stays itself;
* `Binary64.magnitude_mul_le_mul`, `Binary64.magnitude_sub_from_one_le`, `Binary64.magnitude_clamped`: the operations on shares;
* `Binary64.nearestInt?_le`: the nearest integers are in the same order.
-/

import AnimationCode.Proofs.Number.Bounds
import Mathlib.Algebra.Order.Monoid.WithTop

namespace AnimationCode

/-! ### Rounded quotients -/

/-- The larger quotient is rounded to the larger integer. -/
theorem roundQuotient_mono {num den num' den' : Nat} (positive : 0 < den) (positive' : 0 < den')
    (le : (num : ℚ) / den ≤ num' / den') : roundQuotient num den ≤ roundQuotient num' den' := by
  by_contra above
  have apart : (roundQuotient num' den' : ℚ) + 1 ≤ roundQuotient num den := by exact_mod_cast Nat.lt_of_not_le above
  -- integers a whole apart, each at most a half away from its quotient, leave room for one quotient only
  have near := (abs_le.mp (abs_roundQuotient_sub_le num positive)).2
  have near' := (abs_le.mp (abs_roundQuotient_sub_le num' positive')).1
  have same : (num : ℚ) / den = num' / den' := by linarith
  rw [div_eq_div_iff (by exact_mod_cast positive.ne') (by exact_mod_cast positive'.ne')] at same
  exact above (roundQuotient_congr positive positive' (by exact_mod_cast same)).le

theorem roundQuotient_one (n : Nat) : roundQuotient n 1 = n := by simp [roundQuotient, Nat.mod_one]

/-- A quotient of at least an integer is rounded to at least the integer. -/
theorem le_roundQuotient {num den n : Nat} (positive : 0 < den) (le : (n : ℚ) ≤ num / den) :
    n ≤ roundQuotient num den := by
  have mono : roundQuotient n 1 ≤ roundQuotient num den :=
    roundQuotient_mono Nat.one_pos positive (by rwa [Nat.cast_one, div_one])
  rwa [roundQuotient_one] at mono

namespace Binary64

/-- The number without its sign; an infinity is above all. -/
def magnitude : Binary64 → WithTop ℚ
  | .finite _ m e => ((m * 2 ^ e : ℚ) : WithTop ℚ)
  | _ => ⊤

theorem magnitude_zero (s : Bool) : (zero s).magnitude = 0 := by simp [zero, magnitude]

theorem zero_le_magnitude (x : Binary64) : 0 ≤ x.magnitude := by
  cases x with
  | finite s m e => exact WithTop.coe_le_coe.mpr (magnitude_nonneg m e)
  | infinite s => exact le_top
  | nan => exact le_top

/-! ### Rounded numbers -/

theorem magnitude_normal (s : Bool) (m : Nat) (e : Int) :
    (normal s m e).magnitude =
      if greatestExponent < (if m = 2 ^ 53 then e + 1 else e) then ⊤ else ((m * 2 ^ e : ℚ) : WithTop ℚ) := by
  unfold normal
  by_cases wide : m = 2 ^ 53
  · simp only [wide, if_true]
    split
    · rfl
    · have same : ((2 ^ 52 : Nat) : ℚ) * 2 ^ (e + 1) = (2 ^ 53 : Nat) * 2 ^ e := by
        rw [zpow_add₀ two_ne_zero, zpow_one]
        push_cast
        ring
      rw [if_neg (by norm_num)]
      exact congrArg _ same
  · simp only [wide, if_false]
    split
    · rfl
    · split
      · rename_i nothing
        simp [magnitude_zero, nothing]
      · rfl

/-- The significand of a quotient at an exponent. -/
def significandAt (num den : Nat) (e : Int) : Nat := roundQuotient (scaled num den e).1 (scaled num den e).2

variable {num den num' den' : Nat} {e e' : Int} {s s' : Bool} {x y x' y' : Binary64}

/-- A significand is at most one too wide, and narrow at the least exponent only. -/
theorem significandAt_bounds (positive : 0 < den) (fits : Fits ((num : ℚ) / den) e) :
    significandAt num den e ≤ 2 ^ 53 ∧ (2 ^ 52 ≤ significandAt num den e ∨ e = leastExponent) := by
  have cast : (0 : ℚ) < (scaled num den e).2 := by exact_mod_cast scaled_pos num positive e
  have grid := scaled_eq num positive e
  have unit : (0 : ℚ) < 2 ^ e := by positivity
  have width (k : Nat) : (2 : ℚ) ^ ((k : Int) + e) * 2 ^ (-e) = 2 ^ k := by
    rw [← zpow_add₀ (by norm_num), add_neg_cancel_right, zpow_natCast]
  constructor
  · refine roundQuotient_le ?_
    have below : ((scaled num den e).1 : ℚ) / (scaled num den e).2 ≤ 2 ^ 53 := by
      rw [grid, ← width 53]
      exact mul_le_mul_of_nonneg_right fits.within.le (by positivity)
    rw [div_le_iff₀ cast] at below
    exact_mod_cast below
  · refine fits.wide.imp_left fun wide => le_roundQuotient (scaled_pos num positive e) ?_
    rw [grid, Nat.cast_pow, Nat.cast_ofNat, ← width 52]
    exact mul_le_mul_of_nonneg_right wide (by positivity)

theorem exists_fits (s : Bool) (posNum : 0 < num) (posDen : 0 < den) :
    ∃ e, Fits ((num : ℚ) / den) e ∧ ofRatio s num den = normal s (significandAt num den e) e :=
  ⟨_, fits_exponent posNum posDen, ofRatio_eq s posNum posDen (fits_exponent posNum posDen)⟩

theorem isCanonical_zero (s : Bool) : (zero s).IsCanonical := by cases s <;> decide

/-- Every rounded quotient is a number as it comes out of an operation. -/
theorem isCanonical_ofRatio (s : Bool) (num den : Nat) : (ofRatio s num den).IsCanonical := by
  by_cases nothing : num = 0 ∨ den = 0
  · rw [ofRatio, if_pos nothing]
    exact isCanonical_zero s
  obtain ⟨posNum, posDen⟩ : 0 < num ∧ 0 < den := by omega
  obtain ⟨e, fits, same⟩ := exists_fits s posNum posDen
  obtain ⟨narrow, wide⟩ := significandAt_bounds posDen fits
  have least := fits.least
  rw [same]
  unfold normal
  by_cases exceeds : significandAt num den e = 2 ^ 53
  · simp only [exceeds, if_true]
    split
    · trivial
    · rw [if_neg (by norm_num)]
      exact ⟨by norm_num, by omega, by omega, .inl le_rfl⟩
  · simp only [exceeds, if_false]
    split
    · trivial
    · split
      · exact isCanonical_zero s
      · exact ⟨by omega, least, by omega, wide⟩

theorem Fits.mono {quotient quotient' : ℚ} (fits : Fits quotient e) (fits' : Fits quotient' e') (le : quotient ≤ quotient') :
    e ≤ e' := by
  rcases fits.wide with wide | least
  · have powers := (zpow_lt_zpow_iff_right₀ (by norm_num : (1 : ℚ) < 2)).mp (lt_of_le_of_lt (wide.trans le) fits'.within)
    omega
  · rw [least]
    exact fits'.least

/-- The larger quotient has no smaller significand on the same grid. -/
theorem significandAt_mono (posDen : 0 < den) (posDen' : 0 < den') (le : (num : ℚ) / den ≤ num' / den') (e : Int) :
    significandAt num den e ≤ significandAt num' den' e := by
  refine roundQuotient_mono (scaled_pos num posDen e) (scaled_pos num' posDen' e) ?_
  rw [scaled_eq num posDen, scaled_eq num' posDen']
  exact mul_le_mul_of_nonneg_right le (by positivity)

/-- The larger quotient is rounded to the larger number on its grid. -/
theorem significandAt_mul_le (posDen : 0 < den) (posDen' : 0 < den') (fits : Fits (num / den) e)
    (fits' : Fits (num' / den') e') (le : (num : ℚ) / den ≤ num' / den') :
    (significandAt num den e : ℚ) * 2 ^ e ≤ significandAt num' den' e' * 2 ^ e' := by
  obtain ⟨narrow, -⟩ := significandAt_bounds posDen fits
  obtain ⟨-, wide'⟩ := significandAt_bounds posDen' fits'
  have unit (k : Int) : (0 : ℚ) ≤ 2 ^ k := by positivity
  rcases eq_or_lt_of_le (fits.mono fits' le) with rfl | upward
  · exact mul_le_mul_of_nonneg_right (by exact_mod_cast significandAt_mono posDen posDen' le e) (unit e)
  · -- on a coarser grid the larger significand is wide, and so above all of the finer one
    have wide : 2 ^ 52 ≤ significandAt num' den' e' := wide'.resolve_right fun least => by
      have := fits.least
      omega
    calc (significandAt num den e : ℚ) * 2 ^ e ≤ 2 ^ 53 * 2 ^ e :=
          mul_le_mul_of_nonneg_right (by exact_mod_cast narrow) (unit e)
      _ = 2 ^ 52 * 2 ^ (e + 1) := by
          rw [zpow_add₀ (by norm_num)]
          ring
      _ ≤ 2 ^ 52 * 2 ^ e' :=
          mul_le_mul_of_nonneg_left (zpow_le_zpow_right₀ (by norm_num) (by omega)) (by positivity)
      _ ≤ significandAt num' den' e' * 2 ^ e' := mul_le_mul_of_nonneg_right (by exact_mod_cast wide) (unit e')

/-- The larger quotient is rounded to the larger number. -/
theorem magnitude_ofRatio_le (s s' : Bool) (posDen : 0 < den) (posDen' : 0 < den') (le : (num : ℚ) / den ≤ num' / den') :
    (ofRatio s num den).magnitude ≤ (ofRatio s' num' den').magnitude := by
  rcases Nat.eq_zero_or_pos num with rfl | posNum
  · rw [ofRatio, if_pos (.inl rfl), magnitude_zero]
    exact zero_le_magnitude _
  have posNum' : 0 < num' := by
    have quotient : (0 : ℚ) < num / den := div_pos (by exact_mod_cast posNum) (by exact_mod_cast posDen)
    by_contra nothing
    obtain rfl : num' = 0 := by omega
    rw [Nat.cast_zero, zero_div] at le
    linarith
  obtain ⟨e, fits, same⟩ := exists_fits s posNum posDen
  obtain ⟨e', fits', same'⟩ := exists_fits s' posNum' posDen'
  rw [same, same', magnitude_normal, magnitude_normal]
  by_cases high : greatestExponent < (if significandAt num' den' e' = 2 ^ 53 then e' + 1 else e')
  · rw [if_pos high]
    exact le_top
  have low : ¬ greatestExponent < (if significandAt num den e = 2 ^ 53 then e + 1 else e) := by
    have narrow' := (significandAt_bounds posDen' fits').1
    rcases eq_or_lt_of_le (fits.mono fits' le) with rfl | upward
    · have grid := significandAt_mono posDen posDen' le e
      split at high <;> split <;> omega
    · split at high <;> split <;> omega
  rw [if_neg low, if_neg high, WithTop.coe_le_coe]
  exact significandAt_mul_le posDen posDen' fits fits' le

/-- A quotient of at most a number is rounded to at most the number. -/
theorem magnitude_ofRatio_le_of_canonical {m : Nat} (s : Bool) (posDen : 0 < den) (canonical : IsCanonical (.finite s' m e))
    (le : (num : ℚ) / den ≤ m * 2 ^ e) : (ofRatio s num den).magnitude ≤ ((m * 2 ^ e : ℚ) : WithTop ℚ) := by
  rw [← ratio_eq] at le
  refine (magnitude_ofRatio_le s s' posDen (ratio_snd_pos m e) le).trans (le_of_eq ?_)
  rcases Nat.eq_zero_or_pos m with rfl | positive
  · have nothing : (ratio 0 e).1 = 0 := by
      unfold ratio
      split <;> simp
    rw [ofRatio, if_pos (.inl nothing), magnitude_zero]
    simp
  · rw [ofRatio_of_near positive (ratio_snd_pos m e) canonical (by rw [ratio_eq, sub_self, abs_zero]; positivity), magnitude]

theorem isNegative_ofRatio (s : Bool) (num den : Nat) : (ofRatio s num den).isNegative = s := by
  unfold ofRatio normal zero
  dsimp only
  repeat' split
  all_goals rfl

/-! ### Shares -/

theorem IsShare.exists_finite (share : x.IsShare) :
    ∃ s m e, x = .finite s m e ∧ (s = true → m = 0) ∧ (m : ℚ) * 2 ^ e ≤ 1 := by
  cases x with
  | finite s m e => exact ⟨s, m, e, rfl, share⟩
  | infinite s => exact share.elim
  | nan => exact share.elim

theorem finite_mul_finite (s t : Bool) (m n : Nat) (e k : Int) : (Binary64.finite s m e).mul (.finite t n k) =
    ofRatio (s != t) (ratio (m * n) (e + k)).1 (ratio (m * n) (e + k)).2 := rfl

/-- A product of larger numbers is larger. -/
theorem magnitude_finite_mul_le {m n m' n' : Nat} {k k' : Int} (s s' t t' : Bool) (le : (m : ℚ) * 2 ^ e ≤ m' * 2 ^ e')
    (le' : (n : ℚ) * 2 ^ k ≤ n' * 2 ^ k') :
    ((Binary64.finite s m e).mul (.finite t n k)).magnitude ≤ ((Binary64.finite s' m' e').mul (.finite t' n' k')).magnitude := by
  rw [finite_mul_finite, finite_mul_finite]
  refine magnitude_ofRatio_le _ _ (ratio_snd_pos _ _) (ratio_snd_pos _ _) ?_
  rw [ratio_eq, ratio_eq, magnitude_mul, magnitude_mul]
  exact mul_le_mul le le' (magnitude_nonneg n k) (magnitude_nonneg m' e')

theorem magnitude_mul_le_mul (share : x.IsShare) (other : y.IsShare) (share' : x'.IsShare) (other' : y'.IsShare)
    (le : x.magnitude ≤ x'.magnitude) (le' : y.magnitude ≤ y'.magnitude) :
    (x.mul y).magnitude ≤ (x'.mul y').magnitude := by
  obtain ⟨s, m, e, rfl, -⟩ := share.exists_finite
  obtain ⟨t, n, k, rfl, -⟩ := other.exists_finite
  obtain ⟨s', m', e', rfl, -⟩ := share'.exists_finite
  obtain ⟨t', n', k', rfl, -⟩ := other'.exists_finite
  exact magnitude_finite_mul_le _ _ _ _ (WithTop.coe_le_coe.mp le) (WithTop.coe_le_coe.mp le')

theorem magnitude_factor_mul_le (s : Bool) (m : Nat) (e : Int) (share : x.IsShare) (share' : x'.IsShare)
    (le : x.magnitude ≤ x'.magnitude) :
    ((Binary64.finite s m e).mul x).magnitude ≤ ((Binary64.finite s m e).mul x').magnitude := by
  obtain ⟨t, n, k, rfl, -⟩ := share.exists_finite
  obtain ⟨t', n', k', rfl, -⟩ := share'.exists_finite
  exact magnitude_finite_mul_le _ _ _ _ le_rfl (WithTop.coe_le_coe.mp le)

/-- A share of a number is at most the number. -/
theorem magnitude_mul_le {m : Nat} (canonical : IsCanonical (.finite s m e)) (share : y.IsShare) :
    ((Binary64.finite s m e).mul y).magnitude ≤ (Binary64.finite s m e).magnitude := by
  obtain ⟨t, n, k, rfl, -, le⟩ := share.exists_finite
  rw [finite_mul_finite]
  refine magnitude_ofRatio_le_of_canonical _ (ratio_snd_pos _ _) canonical ?_
  rw [ratio_eq, magnitude_mul]
  exact mul_le_of_le_one_right (magnitude_nonneg m e) le

/-- The more is taken from one, the less is left. -/
theorem magnitude_sub_from_one_le (share : x.IsShare) (share' : x'.IsShare) (le : x.magnitude ≤ x'.magnitude) :
    (one.sub x').magnitude ≤ (one.sub x).magnitude := by
  obtain ⟨s, m, e, rfl, -⟩ := share.exists_finite
  obtain ⟨s', m', e', rfl, -⟩ := share'.exists_finite
  obtain ⟨sign, num, den, posDen, -, left, same⟩ := share.exists_sub_from_one
  obtain ⟨sign', num', den', posDen', -, left', same'⟩ := share'.exists_sub_from_one
  rw [same, same']
  refine magnitude_ofRatio_le _ _ posDen' posDen ?_
  rw [left, left']
  exact sub_le_sub_left (WithTop.coe_le_coe.mp le) 1

/-! ### Numbers between zero and one -/

theorem lt_finite_iff {m m' : Nat} : (Binary64.finite s m e).lt (.finite s' m' e') = true ↔
    (if s then -1 else 1) * ((m : ℚ) * 2 ^ e) < (if s' then -1 else 1) * ((m' : ℚ) * 2 ^ e') := by
  have power : (0 : ℚ) < 2 ^ min e e' := by positivity
  rw [← alignedTo_eq s m (min_le_left e e'), ← alignedTo_eq s' m' (min_le_right e e'), mul_lt_mul_iff_left₀ power, Int.cast_lt]
  simp only [lt, compare?, beq_iff_eq, Option.some.injEq, Int.compare_eq_lt]

theorem magnitude_one : one.magnitude = 1 := by
  rw [one_eq, magnitude]
  norm_num

theorem lt_zero_iff (s : Bool) (m : Nat) (e : Int) :
    (Binary64.finite s m e).lt (zero false) = true ↔ s = true ∧ (0 : ℚ) < m * 2 ^ e := by
  rw [zero, lt_finite_iff]
  have := magnitude_nonneg m e
  cases s <;> simp [this]

theorem one_lt_iff (s : Bool) (m : Nat) (e : Int) :
    one.lt (.finite s m e) = true ↔ s = false ∧ (1 : ℚ) < m * 2 ^ e := by
  rw [one_eq, lt_finite_iff]
  have := magnitude_nonneg m e
  have unit : ((2 ^ 52 : Nat) : ℚ) * 2 ^ (-52 : Int) = 1 := by norm_num
  cases s
  · simp only [Bool.false_eq_true, if_false, one_mul, unit, true_and]
  · simp only [Bool.false_eq_true, if_false, if_true, one_mul, unit, reduceCtorEq, false_and, iff_false]
    linarith

/-- What is kept between zero and one is nothing for a negative number, and at most one for another. -/
theorem magnitude_clamped (number : x ≠ nan) : x.clamped.magnitude = if x.isNegative then 0 else min 1 x.magnitude := by
  cases x with
  | finite s m e =>
    unfold clamped
    simp only [lt_zero_iff, one_lt_iff]
    cases s with
    | true =>
      by_cases some_ : (0 : ℚ) < m * 2 ^ e
      · simp [some_, magnitude_zero, isNegative]
      · have nothing : (m : ℚ) * 2 ^ e = 0 := le_antisymm (not_lt.mp some_) (magnitude_nonneg m e)
        simp [nothing, isNegative, magnitude]
    | false =>
      by_cases more : (1 : ℚ) < m * 2 ^ e
      · have le : (1 : WithTop ℚ) ≤ (Binary64.finite false m e).magnitude := WithTop.coe_le_coe.mpr more.le
        simp [more, isNegative, magnitude_one, min_eq_left le]
      · have le : (Binary64.finite false m e).magnitude ≤ 1 := WithTop.coe_le_coe.mpr (not_lt.mp more)
        simp [more, isNegative, min_eq_right le]
  | infinite s =>
    cases s with
    | false =>
      have above : (Binary64.infinite false).clamped = one := by decide +kernel
      rw [above, magnitude_one]
      simp [isNegative, magnitude]
    | true =>
      have below : (Binary64.infinite true).clamped = zero false := by decide +kernel
      rw [below, magnitude_zero]
      simp [isNegative]
  | nan => exact absurd rfl number

theorem IsShare.magnitude_clamped (share : x.IsShare) : x.clamped.magnitude = x.magnitude := by
  rw [Binary64.magnitude_clamped share.ne_nan]
  obtain ⟨s, m, e, rfl, unsigned, le⟩ := share.exists_finite
  have most : (Binary64.finite s m e).magnitude ≤ 1 := WithTop.coe_le_coe.mpr le
  split
  · rename_i negative
    simp [magnitude, unsigned negative]
  · exact min_eq_right most

/-- Of two positive factors the larger makes the larger product, whatever the other factor. -/
theorem magnitude_clamped_mul_le {m m' : Nat} (some_ : m ≠ 0) (some' : m' ≠ 0) (le : (m : ℚ) * 2 ^ e ≤ m' * 2 ^ e')
    (number : x ≠ nan) :
    ((Binary64.finite false m e).mul x).clamped.magnitude ≤ ((Binary64.finite false m' e').mul x).clamped.magnitude := by
  cases x with
  | finite t n k =>
    have product := magnitude_finite_mul_le false false t t le (le_refl ((n : ℚ) * 2 ^ k))
    rw [finite_mul_finite, finite_mul_finite] at product ⊢
    rw [magnitude_clamped (ofRatio_ne_nan _ _ _), magnitude_clamped (ofRatio_ne_nan _ _ _), isNegative_ofRatio,
      isNegative_ofRatio]
    split
    · exact le_rfl
    · exact min_le_min_left 1 product
  | infinite t =>
    have product : (Binary64.finite false m e).mul (.infinite t) = (Binary64.finite false m' e').mul (.infinite t) := by
      rw [mul, mul, if_neg some_, if_neg some']
    rw [product]
  | nan => exact absurd rfl number

/-! ### The nearest integers -/

theorem nearestInt?_of_unsigned {m : Nat} (e : Int) (unsigned : s = true → m = 0) :
    (Binary64.finite s m e).nearestInt? = some ((roundQuotient (ratio m e).1 (ratio m e).2 : Nat) : Int) := by
  cases s with
  | false => rfl
  | true =>
    obtain rfl := unsigned rfl
    have nothing : roundQuotient (ratio 0 e).1 (ratio 0 e).2 = 0 :=
      Nat.le_zero.mp (roundQuotient_le (by unfold ratio; split <;> simp))
    simp [nearestInt?, nothing]

/-- The larger of two numbers that are not negative is nearest to the larger integer. -/
theorem nearestInt?_le {m m' : Nat} {n n' : Int} (unsigned : s = true → m = 0) (unsigned' : s' = true → m' = 0)
    (le : (m : ℚ) * 2 ^ e ≤ m' * 2 ^ e') (near : (Binary64.finite s m e).nearestInt? = some n)
    (near' : (Binary64.finite s' m' e').nearestInt? = some n') : 0 ≤ n ∧ n ≤ n' := by
  rw [nearestInt?_of_unsigned e unsigned, Option.some.injEq] at near
  rw [nearestInt?_of_unsigned e' unsigned', Option.some.injEq] at near'
  rw [← ratio_eq, ← ratio_eq] at le
  have mono := roundQuotient_mono (ratio_snd_pos m e) (ratio_snd_pos m' e') le
  omega

theorem unsigned_ofRatio {m : Nat} (unsigned : s = true → num = 0) (same : ofRatio s num den = .finite s' m e)
    (negative : s' = true) : m = 0 := by
  have sign := isNegative_ofRatio s num den
  rw [same] at sign
  obtain rfl : s' = s := sign
  rw [ofRatio, if_pos (.inl (unsigned negative))] at same
  cases same
  rfl

/-- A moderate number times a share is a finite number that is not negative. -/
theorem IsShare.exists_mul {m : Nat} (share : x.IsShare) (canonical : IsCanonical (.finite false m e)) :
    ∃ s n k, (Binary64.finite false m e).mul x = .finite s n k ∧ (s = true → n = 0) ∧ (n : ℚ) * 2 ^ k ≤ m * 2 ^ e := by
  have le := magnitude_mul_le canonical share
  obtain ⟨t, n, k, rfl, unsigned, -⟩ := share.exists_finite
  have made := finite_mul_finite false t m n e k
  cases product : (Binary64.finite false m e).mul (.finite t n k) with
  | finite s n' k' =>
    rw [product] at le
    refine ⟨s, n', k', rfl, unsigned_ofRatio (fun minus => ?_) (made.symm.trans product), WithTop.coe_le_coe.mp le⟩
    rw [unsigned (by simpa using minus), mul_zero]
    unfold ratio
    split <;> simp
  | infinite s =>
    rw [product] at le
    exact absurd (top_le_iff.mp le) WithTop.coe_ne_top
  | nan => exact absurd (made.symm.trans product) (ofRatio_ne_nan _ _ _)

end Binary64

end AnimationCode
