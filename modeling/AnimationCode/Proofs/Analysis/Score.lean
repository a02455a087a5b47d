/-
**Scores of findings.**

What penalties leave of one is a share, and each penalty takes a share of what is left. So a score lies between nothing and a
hundred points, one more finding leaves no more of it, and no finding leaves more of it as an error. This holds for weights of
any sign and size, infinities among them, and through every rounding on the way.

* `Finding.isGraver_escalated`: an error has no smaller a penalty than another finding of its category;
* `Finding.kept_le_of_forall₂`, `Finding.kept_insert_le`: what larger penalties, or one more, leave;
* `Finding.exists_score_le`: scores are in the order of what the penalties leave;
* `Report.score_antitone`: the score of findings, of one more, of one taken for an error, and of a strict report.
-/

import AnimationCode.Proofs.Analysis.Report
import AnimationCode.Proofs.Number.Order

namespace AnimationCode

open Binary64 (IsShare one nan)

/-- No level has a larger base than an error. -/
theorem Level.Counts.base_le {level : Level} (counts : level.Counts) :
    ∃ m e m' e', level.base = .finite false m e ∧ m ≠ 0 ∧ Level.error.base = .finite false m' e' ∧ m' ≠ 0 ∧
      (m : ℚ) * 2 ^ e ≤ m' * 2 ^ e' := by
  have error : Level.error.base = .finite false (2 ^ 52) (-54) := by decide +kernel
  have warning : Level.warning.base = .finite false 5764607523034235 (-56) := by decide +kernel
  have suggestion : Level.suggestion.base = .finite false 5764607523034235 (-58) := by decide +kernel
  rcases counts with rfl | rfl | rfl
  · exact ⟨_, _, _, _, error, by decide, error, by decide, le_rfl⟩
  · exact ⟨_, _, _, _, warning, by decide, error, by decide, by norm_num⟩
  · exact ⟨_, _, _, _, suggestion, by decide, error, by decide, by norm_num⟩

theorem Weights.forall_orDefault_ne_nan {weights : Weights} (numbers : ∀ field ∈ weights, field.2 ≠ nan) :
    ∀ field ∈ weights.orDefault, field.2 ≠ nan := by
  have standard : ∀ field ∈ default, field.2 ≠ nan := by decide +kernel
  unfold orDefault
  split
  · exact standard
  · exact numbers

theorem Weights.ofCategory_ne_nan {weights : Weights} (numbers : ∀ field ∈ weights, field.2 ≠ nan) (category : String) :
    weights.ofCategory category ≠ nan := by
  unfold Weights.ofCategory
  cases given : Fields.get? weights.orDefault category with
  | none =>
    rw [Option.getD_none, Binary64.ofDecimal_eq]
    exact Binary64.ofRatio_ne_nan _ _ _
  | some weight => exact forall_orDefault_ne_nan numbers _ (Fields.mem_of_get? given)

namespace Finding

variable {weights : Weights} {finding : Finding} {findings others before after : List Finding}

/-! ### Penalties -/

/-- A finding has no smaller a penalty than another. -/
def IsGraver (weights : Weights) (finding other : Finding) : Prop :=
  (other.penalty weights).magnitude ≤ (finding.penalty weights).magnitude

theorem forall₂_isGraver_self (weights : Weights) (findings : List Finding) :
    List.Forall₂ (IsGraver weights) findings findings :=
  List.forall₂_same.mpr fun _ _ => le_rfl

/-- An error has no smaller a penalty than another finding of its category. -/
theorem isGraver_escalated (counts : finding.level.Counts) (number : finding.penalty weights ≠ nan) :
    IsGraver weights finding.escalated finding := by
  rw [ne_eq, penalty_eq_nan counts] at number
  obtain ⟨m, e, m', e', base, some_, error, some', le⟩ := counts.base_le
  have escalated : finding.escalated.penalty weights =
      (Level.error.base.mul (weights.ofCategory finding.category)).clamped := rfl
  rw [IsGraver, escalated, penalty, base, error]
  exact Binary64.magnitude_clamped_mul_le some_ some' le number

/-- The penalties of findings are numbers. -/
def HaveNumbers (weights : Weights) (findings : List Finding) : Prop :=
  ∀ finding ∈ findings, finding.penalty weights ≠ nan

theorem isShare_penalty (number : finding.penalty weights ≠ nan) : (finding.penalty weights).IsShare := by
  rw [penalty, ne_eq, Binary64.clamped_eq_nan] at number
  exact Binary64.isShare_clamped number

/-! ### What penalties leave -/

/-- What penalties leave of a share. -/
def left (weights : Weights) (keep : Binary64) (findings : List Finding) : Binary64 :=
  findings.foldl (fun keep finding => keep.mul (one.sub (finding.penalty weights))) keep

theorem isShare_left {keep : Binary64} (share : keep.IsShare) (numbers : HaveNumbers weights findings) :
    (left weights keep findings).IsShare :=
  (foldl_kept weights findings share).2 numbers

theorem isCanonical_left {keep : Binary64} (share : keep.IsShare) (canonical : keep.IsCanonical)
    (numbers : HaveNumbers weights findings) : (left weights keep findings).IsCanonical := by
  induction findings generalizing keep with
  | nil => exact canonical
  | cons finding rest ih =>
    obtain ⟨here, later⟩ := List.forall_mem_cons.mp numbers
    have other := (isShare_penalty here).sub_from_one
    refine ih (share.mul other) ?_ later
    obtain ⟨s, m, e, rfl, -⟩ := share.exists_finite
    obtain ⟨t, n, k, same, -⟩ := other.exists_finite
    show ((Binary64.finite s m e).mul (one.sub (finding.penalty weights))).IsCanonical
    rw [same, Binary64.finite_mul_finite]
    exact Binary64.isCanonical_ofRatio _ _ _

/-- Of a smaller share larger penalties leave less. -/
theorem left_le_of_forall₂ {keep keep' : Binary64} (share : keep.IsShare) (share' : keep'.IsShare)
    (le : keep.magnitude ≤ keep'.magnitude) (numbers : HaveNumbers weights findings) (numbers' : HaveNumbers weights others)
    (graver : List.Forall₂ (IsGraver weights) findings others) :
    (left weights keep findings).magnitude ≤ (left weights keep' others).magnitude := by
  induction graver generalizing keep keep' with
  | nil => exact le
  | cons here later ih =>
    obtain ⟨number, rest⟩ := List.forall_mem_cons.mp numbers
    obtain ⟨number', rest'⟩ := List.forall_mem_cons.mp numbers'
    have penalty := isShare_penalty number
    have penalty' := isShare_penalty number'
    refine ih (share.mul penalty.sub_from_one) (share'.mul penalty'.sub_from_one) ?_ rest rest'
    exact Binary64.magnitude_mul_le_mul share penalty.sub_from_one share' penalty'.sub_from_one le
      (Binary64.magnitude_sub_from_one_le penalty' penalty here)

/-- Larger penalties leave less. -/
theorem kept_le_of_forall₂ (numbers : HaveNumbers weights findings) (numbers' : HaveNumbers weights others)
    (graver : List.Forall₂ (IsGraver weights) findings others) :
    (kept weights findings).magnitude ≤ (kept weights others).magnitude :=
  left_le_of_forall₂ Binary64.isShare_one Binary64.isShare_one le_rfl numbers numbers' graver

/-- One more penalty, wherever it stands, leaves no more. -/
theorem kept_insert_le (numbers : HaveNumbers weights (before ++ finding :: after)) :
    (kept weights (before ++ finding :: after)).magnitude ≤ (kept weights (before ++ after)).magnitude := by
  obtain ⟨first, number, rest⟩ :
      HaveNumbers weights before ∧ finding.penalty weights ≠ nan ∧ HaveNumbers weights after := by
    obtain ⟨first, later⟩ := List.forall_mem_append.mp numbers
    exact ⟨first, List.forall_mem_cons.mp later⟩
  have share : (left weights one before).IsShare := isShare_left Binary64.isShare_one first
  have canonical := isCanonical_left Binary64.isShare_one (by decide +kernel) first
  have other := (isShare_penalty number).sub_from_one
  have less : ((left weights one before).mul (one.sub (finding.penalty weights))).magnitude ≤
      (left weights one before).magnitude := by
    obtain ⟨s, m, e, same, -⟩ := share.exists_finite
    rw [same] at canonical ⊢
    exact Binary64.magnitude_mul_le canonical other
  have without : kept weights (before ++ after) = left weights (left weights one before) after := List.foldl_append
  have more : kept weights (before ++ finding :: after) =
      left weights ((left weights one before).mul (one.sub (finding.penalty weights))) after := List.foldl_append
  rw [without, more]
  exact left_le_of_forall₂ (share.mul other) share less rest rest (forall₂_isGraver_self weights after)

/-! ### Scores -/

/-- Scores are in the order of what the penalties leave, and within a hundred points. -/
theorem exists_score_le (numbers : HaveNumbers weights findings) (numbers' : HaveNumbers weights others)
    (le : (kept weights findings).magnitude ≤ (kept weights others).magnitude) :
    ∃ less points, score weights findings = .ok less ∧ score weights others = .ok points ∧
      0 ≤ less ∧ less ≤ points ∧ points ≤ 100 := by
  have hundred : Binary64.ofInt 100 = .finite false 7036874417766400 (-46) := by decide +kernel
  have canonical : (Binary64.finite false 7036874417766400 (-46)).IsCanonical := by decide +kernel
  have share := isShare_kept numbers
  have share' := isShare_kept numbers'
  have clamped := Binary64.isShare_clamped share.ne_nan
  have clamped' := Binary64.isShare_clamped share'.ne_nan
  obtain ⟨s, m, e, made, unsigned, -⟩ := clamped.exists_mul canonical
  obtain ⟨s', m', e', made', unsigned', most⟩ := clamped'.exists_mul canonical
  have order : ((Binary64.finite false 7036874417766400 (-46)).mul (kept weights findings).clamped).magnitude ≤
      ((Binary64.finite false 7036874417766400 (-46)).mul (kept weights others).clamped).magnitude :=
    Binary64.magnitude_factor_mul_le _ _ _ clamped clamped' (by rwa [share.magnitude_clamped, share'.magnitude_clamped])
  rw [made, made'] at order
  have near := Binary64.nearestInt?_of_unsigned e unsigned
  have near' := Binary64.nearestInt?_of_unsigned e' unsigned'
  have all : (Binary64.finite false 7036874417766400 (-46)).nearestInt? = some 100 := by decide +kernel
  have bounds := Binary64.nearestInt?_le unsigned unsigned' (WithTop.coe_le_coe.mp order) near near'
  have positive : false = true → 7036874417766400 = 0 := nofun
  have most := Binary64.nearestInt?_le unsigned' positive most near' all
  refine ⟨_, _, ?_, ?_, bounds.1, bounds.2, most.2⟩
  · rw [score, score?, hundred, made, near]
  · rw [score, score?, hundred, made', near']

end Finding

theorem Outcome.Both.mono {α β : Type} {related other : α → β → Prop} {first : Outcome α} {second : Outcome β}
    (both : Both related first second) (each : ∀ a b, first = .ok a → second = .ok b → other a b) :
    Both other first second := by
  cases both with
  | ok results => exact .ok (each _ _ rfl rfl)
  | error failure => exact .error failure

namespace Report

variable {weights : Weights} {findings : List Finding}

theorem haveNumbers_of_counts (numbers : ∀ field ∈ weights, field.2 ≠ nan)
    (counts : ∀ finding ∈ findings, finding.level.Counts) : Finding.HaveNumbers weights findings := by
  intro finding member
  rw [ne_eq, Finding.penalty_eq_nan (counts finding member)]
  exact Weights.ofCategory_ne_nan numbers finding.category

/-- Warnings taken for errors have no smaller penalties. -/
theorem forall₂_escalate (rules : List String) (numbers : Finding.HaveNumbers weights findings) :
    List.Forall₂ (Finding.IsGraver weights) (escalate rules findings) findings := by
  rw [escalate_eq, List.forall₂_map_left_iff, List.forall₂_same]
  intro finding member
  rcases raised_cases rules finding with same | ⟨warning, same⟩
  · rw [same]
    exact le_refl (finding.penalty weights).magnitude
  · rw [same]
    exact Finding.isGraver_escalated (.inr (.inl warning)) (numbers finding member)

theorem haveNumbers_escalate (rules : List String) (numbers : Finding.HaveNumbers weights findings) :
    Finding.HaveNumbers weights (escalate rules findings) := by
  rw [escalate_eq]
  intro finding member
  obtain ⟨before, inside, rfl⟩ := List.mem_map.mp member
  rw [ne_eq, penalty_raised_eq_nan]
  exact numbers before inside

/-- Findings that can be scored have numbers for penalties. -/
theorem haveNumbers_of_score {points : Int} (scored : Finding.score weights findings = .ok points) :
    Finding.HaveNumbers weights findings := by
  intro finding member none_
  have fails := Finding.score_eq_error.mpr ⟨rfl, finding, member, none_⟩
  rw [scored] at fails
  cases fails

theorem score_of_ofFindings {report : Report} (made : ofFindings weights findings = .ok report) :
    Finding.score weights findings = .ok report.score := by
  obtain ⟨issues, -, made⟩ := Outcome.bind_eq_ok.mp made
  obtain ⟨points, scored, made⟩ := Outcome.bind_eq_ok.mp made
  cases made
  exact scored

/-- How the scores of a lenient and of a strict report stand to one another. -/
def ScoresLess (lenient strict : Report) : Prop := 0 ≤ strict.score ∧ strict.score ≤ lenient.score ∧ lenient.score ≤ 100

theorem both_scoresLess (weights : Weights) (rules : List String) (findings : List Finding) :
    Outcome.Both ScoresLess (ofFindings weights findings) (ofFindings weights (escalate rules findings)) := by
  refine (both_ofFindings weights rules findings).mono fun lenient strict made raised_ => ?_
  have scored := score_of_ofFindings made
  have numbers := haveNumbers_of_score scored
  have numbers' := haveNumbers_escalate rules numbers
  obtain ⟨less, points, scoredLess, scored', bounds⟩ := Finding.exists_score_le numbers' numbers
    (Finding.kept_le_of_forall₂ numbers' numbers (forall₂_escalate rules numbers))
  obtain rfl := Except.ok.inj (scored'.symm.trans scored)
  obtain rfl := Except.ok.inj (scoredLess.symm.trans (score_of_ofFindings raised_))
  exact bounds

/-- A score lies between nothing and a hundred points. One more finding, wherever it stands, does not raise it, and neither does
a finding taken for an error; so a strict report on a component scores no more than the lenient one. -/
theorem score_antitone (numbers : ∀ field ∈ weights, field.2 ≠ nan)
    (counts : ∀ finding ∈ findings, finding.level.Counts) :
    (∃ points, Finding.score weights findings = .ok points ∧ 0 ≤ points ∧ points ≤ 100 ∧
      (∀ before after finding, findings = before ++ after → finding.level.Counts →
        ∃ less, Finding.score weights (before ++ finding :: after) = .ok less ∧ less ≤ points) ∧
      ∀ before after finding, findings = before ++ finding :: after →
        ∃ less, Finding.score weights (before ++ finding.escalated :: after) = .ok less ∧ less ≤ points) ∧
    ∀ component rules thresholds changes,
      Outcome.Both ScoresLess (ofComponent component rules false thresholds changes)
        (ofComponent component rules true thresholds changes) := by
  have all := haveNumbers_of_counts numbers counts
  refine ⟨?_, fun component rules thresholds changes => ?_⟩
  · obtain ⟨_, points, -, scored, low, le, most⟩ := Finding.exists_score_le all all le_rfl
    refine ⟨points, scored, low.trans le, most, ?_, ?_⟩
    · rintro before after finding rfl level
      have more : Finding.HaveNumbers weights (before ++ finding :: after) := by
        obtain ⟨first, rest⟩ := List.forall_mem_append.mp counts
        exact haveNumbers_of_counts numbers (List.forall_mem_append.mpr ⟨first, List.forall_mem_cons.mpr ⟨level, rest⟩⟩)
      obtain ⟨less, points', scoredLess, scored', -, fewer, -⟩ :=
        Finding.exists_score_le more all (Finding.kept_insert_le more)
      obtain rfl := Except.ok.inj (scored'.symm.trans scored)
      exact ⟨less, scoredLess, fewer⟩
    · rintro before after finding rfl
      obtain ⟨first, level, rest⟩ : (∀ finding ∈ before, finding.level.Counts) ∧ finding.level.Counts ∧
          ∀ finding ∈ after, finding.level.Counts := by
        obtain ⟨first, later⟩ := List.forall_mem_append.mp counts
        exact ⟨first, List.forall_mem_cons.mp later⟩
      have graver : Finding.HaveNumbers weights (before ++ finding.escalated :: after) :=
        haveNumbers_of_counts numbers
          (List.forall_mem_append.mpr ⟨first, List.forall_mem_cons.mpr ⟨.inl rfl, rest⟩⟩)
      have number := all finding (by simp)
      obtain ⟨less, points', scoredLess, scored', -, fewer, -⟩ := Finding.exists_score_le graver all <|
        Finding.kept_le_of_forall₂ graver all <|
          List.rel_append (Finding.forall₂_isGraver_self weights before)
            (.cons (Finding.isGraver_escalated level number) (Finding.forall₂_isGraver_self weights after))
      obtain rfl := Except.ok.inj (scored'.symm.trans scored)
      exact ⟨less, scoredLess, fewer⟩
  · unfold ofComponent
    cases check thresholds component.elements with
    | error failure => exact .error failure
    | ok found =>
      cases Weights.merged changes with
      | error failure => exact .error failure
      | ok merged => exact both_scoresLess merged rules (found ++ bestPractice component)

/-- Weights below nothing, past every number, and of a usual size. -/
def steepWeights : Weights :=
  [("shape", Binary64.ofDecimal false 1 0), ("performance", .infinite true), ("accessibility", Binary64.ofInt (-3)),
    ("best-practice", .infinite false)]

/-- A finding of each weight that counts for something, and one of a category without a weight. -/
def mixedFindings : List Finding :=
  [⟨"unknown-property", "shape", .warning, "", none, none⟩, ⟨"layout-property", "performance", .warning, "", none, none⟩,
    ⟨"missing-accessible-label", "accessibility", .suggestion, "", none, none⟩,
    ⟨"spelling", "wording", .suggestion, "", none, none⟩]

/-- A weight below nothing takes no points, and a category without a weight half of what it might. -/
theorem score_antitone_mixedFindings :
    (∀ field ∈ steepWeights, field.2 ≠ nan) ∧ (∀ finding ∈ mixedFindings, finding.level.Counts) ∧
      Finding.score? steepWeights mixedFindings = some 91 ∧
      ∃ points, Finding.score steepWeights mixedFindings = .ok points ∧ 0 ≤ points ∧ points ≤ 100 := by
  have numbers : ∀ field ∈ steepWeights, field.2 ≠ nan := by decide +kernel
  have counts : ∀ finding ∈ mixedFindings, finding.level.Counts := by simp [mixedFindings, Level.Counts]
  obtain ⟨points, scored, low, most, -⟩ := (score_antitone numbers counts).1
  exact ⟨numbers, counts, by decide +kernel, points, scored, low, most⟩

end Report

end AnimationCode
