/-
**Numbers within bounds.**

A sum or a product fails only if a whole number in it is past every finite number. Shares are multiplied and taken from one
without ever leaving the numbers between zero and one: a quotient of at most one is rounded to a number of at most one.

* `Binary64.exists_ofRatio`, `Binary64.exists_ofInt?`: a quotient and an integer of moderate size have a number near them;
* `Quantity.Within.add?`, `Quantity.Within.mul?`: quantities within bounds have a sum and a product within bounds;
* `Binary64.IsShare`: a number between zero and one;
* `Binary64.IsShare.mul`, `Binary64.IsShare.sub_from_one`: a product of shares, and what a share leaves of one;
* `Binary64.isShare_clamped`: what is kept between zero and one is a share, unless it is not a number;
* `Binary64.exists_nearestInt?_mul`: a moderate number of points times a share is near an integer.
-/

import AnimationCode.Analysis.Finding
import AnimationCode.Number.Binary64
import AnimationCode.Proofs.Number.Rounding
import AnimationCode.Proofs.Number.Shortest

namespace AnimationCode

namespace Binary64

theorem exists_normal (negative : Bool) (significand : Nat) {exponent : Int} (low : exponent < greatestExponent) :
    ∃ sign m e, normal negative significand exponent = .finite sign m e := by
  unfold normal
  by_cases wide : significand = 2 ^ 53
  · simp only [wide, if_true]
    rw [if_neg (by omega), if_neg (by norm_num)]
    exact ⟨_, _, _, rfl⟩
  · simp only [wide, if_false]
    rw [if_neg (by omega)]
    split
    · exact ⟨_, _, _, rfl⟩
    · exact ⟨_, _, _, rfl⟩

/-- A quotient of moderate size has a finite number near it. -/
theorem exists_ofRatio (negative : Bool) {num den : Nat} (positive : 0 < den)
    (below : (num : ℚ) / den < 2 ^ (1023 : Int)) : ∃ sign m e, ofRatio negative num den = .finite sign m e := by
  rcases Nat.eq_zero_or_pos num with rfl | posNum
  · rw [ofRatio, if_pos (Or.inl rfl)]
    exact ⟨_, _, _, rfl⟩
  obtain ⟨exponent, fits⟩ : ∃ exponent, Fits ((num : ℚ) / den) exponent := ⟨_, fits_exponent posNum positive⟩
  rw [ofRatio_eq _ posNum positive fits]
  refine exists_normal _ _ ?_
  rcases fits.wide with wide | least
  · have powers := (zpow_lt_zpow_iff_right₀ (by norm_num : (1 : ℚ) < 2)).mp (lt_of_le_of_lt wide below)
    rw [greatestExponent]
    omega
  · rw [least]
    decide

/-- An integer of moderate size has a number near it. -/
theorem exists_ofInt? {n : Int} (small : n.natAbs < 2 ^ 1023) : ∃ x, ofInt? n = some x := by
  have below : (n.natAbs : ℚ) / (1 : Nat) < 2 ^ (1023 : Int) := by
    rw [Nat.cast_one, div_one]
    exact_mod_cast small
  obtain ⟨sign, m, e, same⟩ := exists_ofRatio (decide (n < 0)) one_pos below
  exact ⟨.finite sign m e, by rw [ofInt?, ofInt, same]⟩

end Binary64

namespace Quantity

/-- A whole quantity is no larger than a bound. -/
def Within (bound : Nat) : Quantity → Prop
  | whole n => n.natAbs ≤ bound
  | real _ => True

variable {a b : Quantity} {m n : Nat}

theorem Within.exists_toBinary64? (within : a.Within m) (small : m < 2 ^ 1023) : ∃ x, a.toBinary64? = some x := by
  cases a with
  | whole k => exact Binary64.exists_ofInt? (lt_of_le_of_lt within small)
  | real x => exact ⟨x, rfl⟩

/-- A computation whose whole results are bounded has a result within the bound. -/
theorem Within.exists_combine? {exact_ : Int → Int → Int} {rounded : Binary64 → Binary64 → Binary64} {bound : Nat}
    (within : a.Within m) (withinToo : b.Within n) (small : m < 2 ^ 1023 ∧ n < 2 ^ 1023)
    (bounded : ∀ k l : Int, k.natAbs ≤ m → l.natAbs ≤ n → (exact_ k l).natAbs ≤ bound) :
    ∃ c, combine? exact_ rounded a b = some c ∧ c.Within bound := by
  obtain ⟨x, first⟩ := within.exists_toBinary64? small.1
  obtain ⟨y, second⟩ := withinToo.exists_toBinary64? small.2
  have mixed : ∃ c, (do return real (rounded (← a.toBinary64?) (← b.toBinary64?))) = some c ∧ c.Within bound := by
    rw [first, second]
    exact ⟨_, rfl, trivial⟩
  cases a with
  | whole k =>
    cases b with
    | whole l => exact ⟨_, rfl, bounded k l within withinToo⟩
    | real y => exact mixed
  | real x => exact mixed

theorem Within.add? (within : a.Within m) (withinToo : b.Within n) (small : m < 2 ^ 1023 ∧ n < 2 ^ 1023) :
    ∃ c, a.add? b = some c ∧ c.Within (m + n) :=
  within.exists_combine? withinToo small fun k l first second => by omega

theorem Within.mul? (within : a.Within m) (withinToo : b.Within n) (small : m < 2 ^ 1023 ∧ n < 2 ^ 1023) :
    ∃ c, a.mul? b = some c ∧ c.Within (m * n) :=
  within.exists_combine? withinToo small fun k l first second => by
    rw [Int.natAbs_mul]
    exact Nat.mul_le_mul first second

end Quantity

/-- A quotient of at most an integer is rounded to at most the integer. -/
theorem roundQuotient_le {num den n : Nat} (le : num ≤ n * den) : roundQuotient num den ≤ n := by
  rcases Nat.eq_zero_or_pos den with rfl | positive
  · obtain rfl : num = 0 := by omega
    simp [roundQuotient]
  have below : num / den ≤ n := Nat.div_le_of_le_mul (by rwa [Nat.mul_comm] at le)
  unfold roundQuotient
  dsimp only
  by_cases least : num / den = n
  · -- the quotient is the integer itself, and nothing is left over
    have parts := Nat.div_add_mod num den
    rw [least, Nat.mul_comm] at parts
    have exact_ : num % den = 0 := by omega
    rw [exact_, if_pos (by omega), least]
  · repeat' split
    all_goals omega

namespace Binary64

theorem magnitude_nonneg (m : Nat) (e : Int) : (0 : ℚ) ≤ m * 2 ^ e := by positivity

theorem magnitude_mul (m m' : Nat) (e e' : Int) :
    ((m * m' : Nat) : ℚ) * 2 ^ (e + e') = (m * 2 ^ e) * (m' * 2 ^ e') := by
  rw [zpow_add₀ (by norm_num)]
  push_cast
  ring

/-- A number between zero and one; a zero may have a sign. -/
def IsShare : Binary64 → Prop
  | .finite s m e => (s = true → m = 0) ∧ (m : ℚ) * 2 ^ e ≤ 1
  | _ => False

theorem isShare_zero (s : Bool) : IsShare (zero s) := ⟨fun _ => rfl, by norm_num⟩

theorem IsShare.ne_nan {x : Binary64} (share : x.IsShare) : x ≠ nan := by
  rintro rfl
  exact share

/-- One, as it is written down. -/
theorem one_eq : one = .finite false (2 ^ 52) (-52) := by decide +kernel

theorem isShare_one : IsShare one := by
  rw [one_eq]
  exact ⟨nofun, by norm_num⟩

/-! ### Rounded shares -/

theorem isShare_normal {s : Bool} {m : Nat} {e : Int} (positive : s = true → m = 0) (low : e < greatestExponent)
    (le : (m : ℚ) * 2 ^ e ≤ 1) : IsShare (normal s m e) := by
  unfold normal
  by_cases wide : m = 2 ^ 53
  · simp only [wide, if_true]
    rw [if_neg (by omega), if_neg (by norm_num)]
    refine ⟨fun negative => absurd (positive negative) (by omega), ?_⟩
    calc ((2 ^ 52 : Nat) : ℚ) * 2 ^ (e + 1) = (m : ℚ) * 2 ^ e := by
          rw [wide, zpow_add₀ (by norm_num)]
          push_cast
          ring
      _ ≤ 1 := le
  · simp only [wide, if_false]
    rw [if_neg (by omega)]
    split
    · exact isShare_zero s
    · exact ⟨positive, le⟩

/-- A quotient of at most one is rounded to a share. -/
theorem isShare_ofRatio {s : Bool} {num den : Nat} (positive : s = true → num = 0) (le : num ≤ den) :
    IsShare (ofRatio s num den) := by
  rcases Nat.eq_zero_or_pos num with rfl | posNum
  · rw [ofRatio, if_pos (Or.inl rfl)]
    exact isShare_zero s
  have posDen : 0 < den := by omega
  have castDen : (0 : ℚ) < den := by exact_mod_cast posDen
  have quotient : (num : ℚ) / den ≤ 1 := (div_le_one castDen).mpr (by exact_mod_cast le)
  obtain ⟨e, fits⟩ : ∃ e, Fits ((num : ℚ) / den) e := ⟨_, fits_exponent posNum posDen⟩
  have low : e ≤ 0 := by
    rcases fits.wide with wide | least
    · have powers := (zpow_le_zpow_iff_right₀ (by norm_num : (1 : ℚ) < 2)).mp
        (le_trans wide (by simpa using quotient : (num : ℚ) / den ≤ 2 ^ (0 : Int)))
      omega
    · rw [least]
      decide
  obtain ⟨n, same⟩ := Int.eq_ofNat_of_zero_le (by omega : 0 ≤ -e)
  obtain rfl : e = -n := by omega
  -- on a grid that one lies on, the quotient is rounded to at most one
  have rounded : roundQuotient (scaled num den (-n)).1 (scaled num den (-n)).2 ≤ 2 ^ n := by
    have castPos : (0 : ℚ) < (scaled num den (-n)).2 := by exact_mod_cast scaled_pos num posDen _
    have grid : ((scaled num den (-n)).1 : ℚ) / (scaled num den (-n)).2 ≤ 2 ^ n := by
      rw [scaled_eq num posDen, neg_neg, zpow_natCast]
      exact mul_le_of_le_one_left (by positivity) quotient
    refine roundQuotient_le ?_
    rw [div_le_iff₀ castPos] at grid
    exact_mod_cast grid
  rw [ofRatio_eq s posNum posDen fits]
  refine isShare_normal (fun negative => absurd (positive negative) (by omega))
    (lt_of_le_of_lt low (by decide)) ?_
  rw [zpow_neg, zpow_natCast, ← div_eq_mul_inv, div_le_one (by positivity)]
  exact_mod_cast rounded

theorem isShare_ofRatio_ratio {s : Bool} {m : Nat} {e : Int} (positive : s = true → m = 0)
    (le : (m : ℚ) * 2 ^ e ≤ 1) : IsShare (ofRatio s (ratio m e).1 (ratio m e).2) := by
  have posDen : (0 : ℚ) < (ratio m e).2 := by exact_mod_cast ratio_snd_pos m e
  refine isShare_ofRatio (fun negative => ?_) ?_
  · rw [positive negative]
    unfold ratio
    split <;> simp
  · rw [← ratio_eq, div_le_one posDen] at le
    exact_mod_cast le

/-! ### Operations on shares -/

variable {x y : Binary64}

/-- A product of shares is a share. -/
theorem IsShare.mul (share : x.IsShare) (share' : y.IsShare) : (x.mul y).IsShare := by
  cases x with
  | finite s m e =>
    cases y with
    | finite s' m' e' =>
      obtain ⟨positive, le⟩ := share
      obtain ⟨positive', le'⟩ := share'
      refine isShare_ofRatio_ratio (fun apart => ?_) ?_
      · cases s with
        | true => simp [positive rfl]
        | false =>
          obtain rfl : s' = true := by simpa using apart
          simp [positive' rfl]
      · rw [magnitude_mul]
        exact mul_le_one₀ le (magnitude_nonneg m' e') le'
    | infinite s' => exact share'.elim
    | nan => exact share'.elim
  | infinite s => exact share.elim
  | nan => exact share.elim

/-- The signed significand at a lower exponent has the value of the number. -/
theorem alignedTo_eq {low e : Int} (s : Bool) (m : Nat) (lower : low ≤ e) :
    (alignedTo low s m e : ℚ) * 2 ^ low = (if s then -1 else 1) * (m * 2 ^ e) := by
  obtain ⟨n, same⟩ := Int.eq_ofNat_of_zero_le (by omega : 0 ≤ e - low)
  obtain rfl : e = low + n := by omega
  unfold alignedTo
  rw [same, Int.toNat_natCast, zpow_add₀ (by norm_num), zpow_natCast]
  cases s <;> simp <;> ring

/-- What a share leaves of one is a quotient that is rounded. -/
theorem IsShare.exists_sub_from_one {s : Bool} {m : Nat} {e : Int} (share : IsShare (.finite s m e)) :
    ∃ (sign : Bool) (num den : Nat), 0 < den ∧ (sign = true → num = 0) ∧ (num : ℚ) / den = 1 - m * 2 ^ e ∧
      one.sub (.finite s m e) = ofRatio sign num den := by
  obtain ⟨positive, le⟩ := share
  rw [one_eq]
  show ∃ (sign : Bool) (num den : Nat), _ ∧ _ ∧ _ ∧ ofAligned _ (alignedTo (min (-52) e) false (2 ^ 52) (-52) +
    alignedTo (min (-52) e) (!s) m e) (min (-52) e) = _
  generalize total : alignedTo (min (-52) e) false (2 ^ 52) (-52) + alignedTo (min (-52) e) (!s) m e = n
  have power : (0 : ℚ) < 2 ^ min (-52) e := by positivity
  have left : (n : ℚ) * 2 ^ min (-52) e = 1 - m * 2 ^ e := by
    rw [← total, Int.cast_add, add_mul, alignedTo_eq _ _ (min_le_left _ _), alignedTo_eq _ _ (min_le_right _ _)]
    cases s with
    | false => norm_num; ring
    | true => rw [positive rfl]; norm_num
  have nonneg : 0 ≤ n := by
    have : (0 : ℚ) ≤ n := by
      by_contra negative
      nlinarith
    exact_mod_cast this
  by_cases none_ : n = 0
  · refine ⟨_, 0, 1, Nat.one_pos, fun _ => rfl, ?_, by rw [ofAligned, if_pos none_, ofRatio, if_pos (.inl rfl)]⟩
    rw [← left, none_]
    simp
  · obtain ⟨k, rfl⟩ := Int.eq_ofNat_of_zero_le nonneg
    refine ⟨_, _, _, ratio_snd_pos _ _, fun negative => ?_, ?_, by rw [ofAligned, if_neg none_]⟩
    · simp at negative
      omega
    · rw [ratio_eq, ← left, Int.natAbs_natCast, Int.cast_natCast]

/-- What a share leaves of one is a share. -/
theorem IsShare.sub_from_one (share : x.IsShare) : (one.sub x).IsShare := by
  cases x with
  | finite s m e =>
    obtain ⟨sign, num, den, posDen, positive, left, same⟩ := share.exists_sub_from_one
    have castDen : (0 : ℚ) < den := by exact_mod_cast posDen
    have le : (num : ℚ) / den ≤ 1 := by
      have some_ := magnitude_nonneg m e
      linarith
    rw [same]
    refine isShare_ofRatio positive ?_
    rw [div_le_one castDen] at le
    exact_mod_cast le
  | infinite s => exact share.elim
  | nan => exact share.elim

/-- What is kept between zero and one is a share, unless it is not a number. -/
theorem isShare_clamped (number : x ≠ nan) : x.clamped.IsShare := by
  unfold clamped
  by_cases negative : x.lt (zero false) = true
  · rw [if_pos negative]
    exact isShare_zero _
  by_cases more : one.lt x = true
  · rw [if_neg negative, if_pos more]
    exact isShare_one
  rw [if_neg negative, if_neg more]
  cases x with
  | finite s m e =>
    rw [one_eq] at more
    simp only [lt, compare?, zero, beq_iff_eq, Option.some.injEq, Int.compare_eq_lt, not_lt] at negative more
    have power (n : Int) : (0 : ℚ) < 2 ^ n := by positivity
    have notBelow : (0 : ℚ) ≤ (if s then -1 else 1) * (m * 2 ^ e) := by
      rw [← alignedTo_eq s m (min_le_left e leastExponent)]
      have : (0 : ℤ) ≤ alignedTo (min e leastExponent) s m e := by simpa [alignedTo] using negative
      exact mul_nonneg (by exact_mod_cast this) (power _).le
    have notAbove : (if s then -1 else 1) * ((m : ℚ) * 2 ^ e) ≤ 1 := by
      calc (if s then -1 else 1) * ((m : ℚ) * 2 ^ e)
          = (alignedTo (min (-52) e) s m e : ℚ) * 2 ^ min (-52) e := (alignedTo_eq s m (min_le_right _ _)).symm
        _ ≤ (alignedTo (min (-52) e) false (2 ^ 52) (-52) : ℚ) * 2 ^ min (-52) e :=
          mul_le_mul_of_nonneg_right (by exact_mod_cast more) (power _).le
        _ = 1 := by
          rw [alignedTo_eq _ _ (min_le_left _ _)]
          norm_num
    cases s with
    | false => exact ⟨nofun, by simpa using notAbove⟩
    | true =>
      have nothing : (m : ℚ) * 2 ^ e = 0 := by
        have := magnitude_nonneg m e
        simp at notBelow
        linarith
      have : (m : ℚ) = 0 := (mul_eq_zero.mp nothing).resolve_right (power e).ne'
      exact ⟨fun _ => by exact_mod_cast this, by rw [nothing]; norm_num⟩
  | infinite s =>
    cases s with
    | false => exact absurd (by rw [one_eq]; decide) more
    | true => exact absurd (by decide) negative
  | nan => exact absurd rfl number

theorem clamped_nan : nan.clamped = nan := by decide

theorem clamped_eq_nan : x.clamped = nan ↔ x = nan := by
  constructor
  · intro same
    by_contra number
    exact (isShare_clamped number).ne_nan same
  · rintro rfl
    exact clamped_nan

/-! ### Numbers that are none -/

theorem mul_nan (x : Binary64) : x.mul nan = nan := by cases x <;> rfl

theorem nan_mul (x : Binary64) : nan.mul x = nan := by cases x <;> rfl

theorem sub_nan (x : Binary64) : x.sub nan = nan := by cases x <;> rfl

theorem ofRatio_ne_nan (s : Bool) (num den : Nat) : ofRatio s num den ≠ nan := by
  unfold ofRatio normal zero
  dsimp only
  repeat' split
  all_goals exact Binary64.noConfusion

/-- Only what is not a number takes a finite number other than zero to what is not a number. -/
theorem finite_mul_eq_nan {s : Bool} {m : Nat} {e : Int} (some_ : m ≠ 0) :
    (Binary64.finite s m e).mul x = nan ↔ x = nan := by
  cases x with
  | finite s' m' e' => exact iff_of_false (ofRatio_ne_nan _ _ _) nofun
  | infinite s' => exact iff_of_false (by simp [Binary64.mul, some_]) nofun
  | nan => exact iff_of_true rfl rfl

/-! ### Points -/

/-- A moderate number times a share is near an integer. -/
theorem exists_nearestInt?_mul {s : Bool} {m : Nat} {e k : Int} (moderate : (m : ℚ) * 2 ^ e ≤ 2 ^ k) (low : k < 1023)
    (share : x.IsShare) : ∃ n, ((Binary64.finite s m e).mul x).nearestInt? = some n := by
  cases x with
  | finite s' m' e' =>
    obtain ⟨-, le⟩ := share
    have below : ((ratio (m * m') (e + e')).1 : ℚ) / (ratio (m * m') (e + e')).2 < 2 ^ (1023 : Int) := by
      rw [ratio_eq, magnitude_mul]
      calc (m * 2 ^ e : ℚ) * (m' * 2 ^ e') ≤ m * 2 ^ e := mul_le_of_le_one_right (magnitude_nonneg m e) le
        _ ≤ 2 ^ k := moderate
        _ < 2 ^ (1023 : Int) := zpow_lt_zpow_right₀ (by norm_num) low
    obtain ⟨sign, m'', e'', same⟩ :=
      exists_ofRatio (s != s') (ratio_snd_pos (m * m') (e + e')) below
    have product : (Binary64.finite s m e).mul (.finite s' m' e') = .finite sign m'' e'' := same
    rw [product]
    exact ⟨_, rfl⟩
  | infinite s' => exact share.elim
  | nan => exact share.elim

end Binary64

end AnimationCode
