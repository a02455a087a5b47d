/-
**Reports on findings.**

The penalties of findings are shares of one, and so is what they leave; a score fails only for a weight that makes a
penalty no number at all. A strict report is on the same findings as a lenient one, some warnings taken for errors. So it
tells the same issues, and of the suggestions no more than the lenient one; naming more rules makes more errors.

* `Performance.detect_eq_ok_iff`, `Accessibility.detect_eq_ok_iff`: what is found of a forest motion by motion;
* `Finding.kept_eq_nan`, `Finding.isShare_kept`: what penalties leave of one;
* `Finding.score_eq_error`: findings cannot be scored when a penalty is not a number, and only then;
* `Finding.penalty_eq_nan`: the penalty of an error, a warning or a suggestion is as good as its weight;
* `Issue.raised`: an issue with its warning taken for an error;
* `Report.Refines`: how a strict report stands to a lenient one;
* `Report.ofComponent_strict`: the reports on a component, for all rules, thresholds and weights.
-/

import AnimationCode.Analysis.Report
import AnimationCode.Proofs.Account
import AnimationCode.Proofs.Number.Bounds
import AnimationCode.Proofs.Outcome

namespace AnimationCode

open Binary64 (IsShare one nan)

/-! ### The findings of a forest -/

namespace Performance

theorem detect_eq_ok_iff {long : Binary64} {thresholds : Fields Value} {forest : Forest} {findings : List Finding}
    (longest : Threshold.long thresholds = .ok long) : detect thresholds forest = .ok findings ↔
      (∀ motion ∈ forest.motions, isUnfit long motion = false) ∧ findings = forest.motions.flatMap (ofMotion long) := by
  have read : detect thresholds forest = if forest.motions.any (isUnfit long) then .error .numberTooLarge
      else .ok (forest.motions.flatMap (ofMotion long)) := by
    rw [detect, longest]
    rfl
  rw [read, Outcome.ite_any_eq_ok]

end Performance

namespace Accessibility

theorem detect_eq_ok_iff {short : Binary64} {thresholds : Fields Value} {forest : Forest} {findings : List Finding}
    (shortest : Threshold.short thresholds = .ok short) : detect thresholds forest = .ok findings ↔
      (∀ motion ∈ forest.motions, isUnfit short motion = false) ∧ findings = forest.motions.flatMap (ofMotion short) := by
  have read : detect thresholds forest = if forest.motions.any (isUnfit short) then .error .numberTooLarge
      else .ok (forest.motions.flatMap (ofMotion short)) := by
    rw [detect, shortest]
    rfl
  rw [read, Outcome.ite_any_eq_ok]

end Accessibility

/-! ### Findings that count -/

/-- An error, a warning or a suggestion: a finding that counts. -/
def Level.Counts (level : Level) : Prop := level = .error ∨ level = .warning ∨ level = .suggestion

theorem Level.Counts.base {level : Level} (counts : level.Counts) :
    ∃ m e, level.base = .finite false m e ∧ m ≠ 0 := by
  have error : Level.error.base = .finite false (2 ^ 52) (-54) := by decide +kernel
  have warning : Level.warning.base = .finite false 5764607523034235 (-56) := by decide +kernel
  have suggestion : Level.suggestion.base = .finite false 5764607523034235 (-58) := by decide +kernel
  rcases counts with rfl | rfl | rfl
  · exact ⟨_, _, error, by decide⟩
  · exact ⟨_, _, warning, by decide⟩
  · exact ⟨_, _, suggestion, by decide⟩

namespace Finding

variable {weights : Weights} {finding : Finding} {findings : List Finding}

/-- The penalty of a finding that counts is as good as the weight of its category. -/
theorem penalty_eq_nan (counts : finding.level.Counts) :
    finding.penalty weights = nan ↔ weights.ofCategory finding.category = nan := by
  obtain ⟨m, e, base, some_⟩ := counts.base
  rw [penalty, Binary64.clamped_eq_nan, base, Binary64.finite_mul_eq_nan some_]

/-! ### What penalties leave -/

/-- What is left of a share after more penalties. -/
theorem foldl_kept (weights : Weights) (findings : List Finding) {keep : Binary64} (share : keep.IsShare) :
    let left := findings.foldl (fun keep finding => keep.mul (one.sub (finding.penalty weights))) keep
    ((∃ finding ∈ findings, finding.penalty weights = nan) → left = nan) ∧
      ((∀ finding ∈ findings, finding.penalty weights ≠ nan) → left.IsShare) := by
  have spent (rest : List Finding) :
      rest.foldl (fun keep finding => keep.mul (one.sub (finding.penalty weights))) nan = nan := by
    induction rest with
    | nil => rfl
    | cons finding rest ih => rw [List.foldl_cons, Binary64.nan_mul, ih]
  induction findings generalizing keep with
  | nil => exact ⟨fun ⟨_, member, _⟩ => absurd member List.not_mem_nil, fun _ => share⟩
  | cons finding rest ih =>
    by_cases none_ : finding.penalty weights = nan
    · refine ⟨fun _ => ?_, fun numbers => absurd none_ (numbers finding List.mem_cons_self)⟩
      show rest.foldl _ (keep.mul (one.sub (finding.penalty weights))) = nan
      rw [none_, Binary64.sub_nan, Binary64.mul_nan, spent]
    · have number : (finding.level.base.mul (weights.ofCategory finding.category)) ≠ nan := by
        rwa [penalty, Binary64.clamped_eq_nan] at none_
      have next := ih (share.mul (Binary64.isShare_clamped number).sub_from_one)
      refine ⟨?_, fun numbers => next.2 fun other member => numbers other (List.mem_cons_of_mem _ member)⟩
      rintro ⟨other, member, same⟩
      rcases List.mem_cons.mp member with rfl | later
      · exact absurd same none_
      · exact next.1 ⟨other, later, same⟩

theorem kept_eq_nan : kept weights findings = nan ↔ ∃ finding ∈ findings, finding.penalty weights = nan := by
  obtain ⟨spent, left⟩ := foldl_kept weights findings Binary64.isShare_one
  constructor
  · intro same
    by_contra numbers
    push Not at numbers
    exact (left numbers).ne_nan same
  · exact spent

/-- What penalties leave of one is a share of it. -/
theorem isShare_kept (numbers : ∀ finding ∈ findings, finding.penalty weights ≠ nan) :
    (kept weights findings).IsShare :=
  (foldl_kept weights findings Binary64.isShare_one).2 numbers

/-! ### The score -/

theorem score?_eq_none :
    score? weights findings = none ↔ ∃ finding ∈ findings, finding.penalty weights = nan := by
  rw [← kept_eq_nan]
  constructor
  · intro nothing
    by_contra number
    have hundred : Binary64.ofInt 100 = .finite false 7036874417766400 (-46) := by decide +kernel
    obtain ⟨points, some_⟩ := Binary64.exists_nearestInt?_mul (s := false) (m := 7036874417766400) (e := -46) (k := 7)
      (by norm_num) (by norm_num) (Binary64.isShare_clamped number)
    rw [score?, hundred, some_] at nothing
    exact absurd nothing (Option.some_ne_none points)
  · intro nothing
    rw [score?, nothing, Binary64.clamped_nan, Binary64.mul_nan]
    rfl

/-- Findings cannot be scored when a penalty is not a number, and only then. -/
theorem score_eq_error {failure : Failure} : score weights findings = .error failure ↔
    failure = .unfitValue ∧ ∃ finding ∈ findings, finding.penalty weights = nan := by
  rw [← score?_eq_none]
  unfold score
  cases score? weights findings with
  | some points => exact ⟨nofun, fun both => nomatch both.2⟩
  | none => exact ⟨fun same => ⟨(Except.error.inj same).symm, rfl⟩, fun both => by rw [both.1]⟩

end Finding

/-- An issue with its warning taken for an error: any warning if no rules are named, else one of theirs. -/
def Issue.raised (rules : List String) (issue : Issue) : Issue :=
  { issue with
    severity := if issue.severity = .warning ∧ (rules = [] ∨ issue.rule ∈ rules) then .error else issue.severity }

theorem Issue.raised_of_not {rules : List String} {issue : Issue}
    (unnamed : ¬ (issue.severity = .warning ∧ (rules = [] ∨ issue.rule ∈ rules))) : issue.raised rules = issue := by
  rw [Issue.raised, if_neg unnamed]

theorem Issue.raised_of_error {issue : Issue} (severe : issue.severity = .error) (rules : List String) :
    issue.raised rules = issue := by
  refine raised_of_not fun named => ?_
  rw [severe] at named
  cases named.1

/-- Two computations that come to related results, or fail for the same reason. -/
inductive Outcome.Both {α β : Type} (related : α → β → Prop) : Outcome α → Outcome β → Prop
  | ok {a : α} {b : β} (results : related a b) : Both related (.ok a) (.ok b)
  | error (failure : Failure) : Both related (.error failure) (.error failure)

namespace Report

/-- The messages of the suggestions. -/
def messages (report : Report) : List String := report.suggestions.map Suggestion.message

/-- How a report that is strict about some rules stands to the lenient one. -/
structure Refines (rules : List String) (lenient strict : Report) : Prop where
  issues : strict.issues = lenient.issues.map (Issue.raised rules)
  valid : strict.valid = true → lenient.valid = true
  messages : strict.messages ⊆ lenient.messages
  once : lenient.messages.Nodup
  strictOnce : strict.messages.Nodup

/-- Every error of one report is the same error of another, which tells as many issues. -/
def KeepsErrors (report other : Report) : Prop :=
  List.Forall₂ (fun issue issue' => issue.severity = .error → issue' = issue) report.issues other.issues

/-! ### Findings taken for errors -/

/-- A finding with its warning taken for an error. -/
def raised (rules : List String) (finding : Finding) : Finding :=
  if finding.level = .warning ∧ (rules = [] ∨ finding.rule ∈ rules) then finding.escalated else finding

theorem escalate_eq (rules : List String) (findings : List Finding) :
    escalate rules findings = findings.map (raised rules) := rfl

theorem raised_cases (rules : List String) (finding : Finding) :
    raised rules finding = finding ∨ finding.level = .warning ∧ raised rules finding = finding.escalated := by
  unfold raised
  split
  · rename_i named
    exact .inr ⟨named.1, rfl⟩
  · exact .inl rfl

theorem location?_raised (rules : List String) (finding : Finding) :
    (raised rules finding).location? = finding.location? := by
  rcases raised_cases rules finding with same | ⟨-, same⟩ <;> rw [same]
  rfl

theorem issue?_eq_some {finding : Finding} {issue : Issue} (told : issue? finding = some issue) :
    issue.severity = finding.level ∧ issue.rule = finding.rule := by
  unfold issue? at told
  split at told <;> cases told <;> exact ⟨rfl, rfl⟩

theorem issue?_raised (rules : List String) (finding : Finding) :
    issue? (raised rules finding) = (issue? finding).map (Issue.raised rules) := by
  unfold raised
  split
  · rename_i named
    have told : issue? finding = some ⟨finding.level, finding.message, finding.rule, finding.location?⟩ := by
      rw [issue?, named.1]
    rw [told, Option.map_some, Issue.raised, if_pos named]
    rfl
  · rename_i unnamed
    cases told : issue? finding with
    | none => rfl
    | some issue =>
      obtain ⟨severity, rule⟩ := issue?_eq_some told
      rw [Option.map_some, Issue.raised_of_not (by rwa [severity, rule])]

/-- A finding taken for an error suggests nothing. -/
theorem suggestion?_raised (rules : List String) (finding : Finding) :
    suggestion? (raised rules finding) = none ∨ suggestion? (raised rules finding) = suggestion? finding := by
  rcases raised_cases rules finding with same | ⟨-, same⟩
  · exact .inr (by rw [same])
  · exact .inl (by rw [same]; rfl)

theorem penalty_raised_eq_nan (weights : Weights) (rules : List String) (finding : Finding) :
    (raised rules finding).penalty weights = .nan ↔ finding.penalty weights = .nan := by
  rcases raised_cases rules finding with same | ⟨warning, same⟩
  · rw [same]
  · rw [same, Finding.penalty_eq_nan (.inl rfl), Finding.penalty_eq_nan (.inr (.inl warning))]
    rfl

/-! ### What is said of them -/

/-- The issues of findings taken for errors are their issues taken for errors. -/
theorem issuesOf_escalate (rules : List String) (findings : List Finding) :
    issuesOf (escalate rules findings) = List.map (Issue.raised rules) <$> issuesOf findings := by
  induction findings with
  | nil => rfl
  | cons finding rest ih =>
    rw [escalate_eq] at ih ⊢
    rw [List.map_cons, issuesOf, issuesOf, issue?_raised, location?_raised, ih]
    cases issue? finding with
    | none => rfl
    | some issue =>
      dsimp only [Option.map_some]
      split
      · cases issuesOf rest <;> rfl
      · rfl

/-- What is suggested once a finding is told of. -/
def suggest (weights : Weights) (told : List Suggestion) (finding : Finding) : List Suggestion :=
  (suggestion? finding).elim told fun message =>
    if told.any (·.message == message) then told
    else told ++ [⟨finding.category, message, Priority.ofCategory weights finding.category⟩]

theorem suggestionsOf_eq (weights : Weights) (findings : List Finding) :
    suggestionsOf weights findings = findings.foldl (suggest weights) [] := by
  unfold suggestionsOf
  congr 1
  funext told finding
  unfold suggest
  cases suggestion? finding <;> rfl

theorem map_message_suggest (weights : Weights) (told : List Suggestion) {finding : Finding} {message : String}
    (said : suggestion? finding = some message) :
    (suggest weights told finding).map Suggestion.message = tell (told.map Suggestion.message) message := by
  rw [suggest, said, Option.elim_some]
  by_cases known : message ∈ told.map Suggestion.message
  · have found : told.any (·.message == message) = true := by simpa using known
    rw [tell_of_mem known, if_pos found]
  · have fresh : ¬ told.any (·.message == message) = true := by simpa using known
    rw [tell, if_neg known, if_neg fresh, List.map_append]
    rfl

/-- The messages of suggestions are told once each. -/
theorem map_message_suggestionsOf (weights : Weights) (findings : List Finding) :
    (suggestionsOf weights findings).map Suggestion.message = tellAll [] (findings.filterMap suggestion?) := by
  suffices general : ∀ told : List Suggestion, (findings.foldl (suggest weights) told).map Suggestion.message =
      tellAll (told.map Suggestion.message) (findings.filterMap suggestion?) by
    rw [suggestionsOf_eq]
    exact general []
  induction findings with
  | nil => exact fun told => rfl
  | cons finding rest ih =>
    intro told
    rw [List.foldl_cons, ih]
    cases said : suggestion? finding with
    | none => rw [List.filterMap_cons_none said, suggest, said, Option.elim_none]
    | some message =>
      rw [List.filterMap_cons_some said, map_message_suggest weights told said]
      rfl

theorem filterMap_suggestion?_escalate (rules : List String) (findings : List Finding) :
    (escalate rules findings).filterMap suggestion? ⊆ findings.filterMap suggestion? := by
  intro message member
  rw [escalate_eq, List.filterMap_map, List.mem_filterMap] at member
  obtain ⟨finding, here, said⟩ := member
  rcases suggestion?_raised rules finding with nothing | same
  · exact absurd (said.symm.trans nothing) (Option.some_ne_none message)
  · exact List.mem_filterMap.mpr ⟨finding, here, same ▸ said⟩

/-- Findings can be scored or not, whichever warnings are taken for errors. -/
theorem score_escalate (weights : Weights) (rules : List String) (findings : List Finding) (failure : Failure) :
    Finding.score weights (escalate rules findings) = .error failure ↔ Finding.score weights findings = .error failure := by
  rw [Finding.score_eq_error, Finding.score_eq_error, escalate_eq]
  simp only [List.mem_map, exists_exists_and_eq_and, penalty_raised_eq_nan]

/-! ### Reports -/

theorem ofFindings_eq_ok {weights : Weights} {findings : List Finding} {report : Report}
    (made : ofFindings weights findings = .ok report) :
    issuesOf findings = .ok report.issues ∧ report.valid = report.issues.all (·.severity != .error) ∧
      report.messages = tellAll [] (findings.filterMap suggestion?) := by
  obtain ⟨issues, told, made⟩ := Outcome.bind_eq_ok.mp made
  obtain ⟨score, -, made⟩ := Outcome.bind_eq_ok.mp made
  cases made
  exact ⟨told, rfl, map_message_suggestionsOf weights findings⟩

theorem refines_of_escalate {weights : Weights} {rules : List String} {findings : List Finding}
    {lenient strict : Report} (made : ofFindings weights findings = .ok lenient)
    (raised_ : ofFindings weights (escalate rules findings) = .ok strict) : Refines rules lenient strict := by
  obtain ⟨issues, valid, messages⟩ := ofFindings_eq_ok made
  obtain ⟨issues', valid', messages'⟩ := ofFindings_eq_ok raised_
  have same : strict.issues = lenient.issues.map (Issue.raised rules) := by
    rw [issuesOf_escalate, issues] at issues'
    exact (Except.ok.inj issues').symm
  refine ⟨same, fun sound => ?_, ?_, ?_, ?_⟩
  · -- an error of the lenient report is one of the strict report too
    rw [valid, List.all_eq_true]
    rw [valid', same, List.all_eq_true] at sound
    intro issue member
    have calm := sound _ (List.mem_map_of_mem member)
    by_contra severe
    have error : issue.severity = .error := by simpa using severe
    rw [Issue.raised_of_error error, error] at calm
    cases calm
  · rw [messages, messages']
    intro message member
    have said := tellAll_subset [] _ member
    exact items_subset_tellAll [] _ (filterMap_suggestion?_escalate rules findings (by simpa using said))
  · rw [messages]
    exact nodup_tellAll List.nodup_nil _
  · rw [messages']
    exact nodup_tellAll List.nodup_nil _

/-- Reports on findings before and after warnings are taken for errors. -/
theorem both_ofFindings (weights : Weights) (rules : List String) (findings : List Finding) :
    Outcome.Both (Refines rules) (ofFindings weights findings) (ofFindings weights (escalate rules findings)) := by
  cases made : ofFindings weights findings with
  | ok lenient =>
    obtain ⟨issues, told, made'⟩ := Outcome.bind_eq_ok.mp made
    obtain ⟨points, scored, -⟩ := Outcome.bind_eq_ok.mp made'
    cases scored' : Finding.score weights (escalate rules findings) with
    | ok points' =>
      cases raised_ : ofFindings weights (escalate rules findings) with
      | ok strict => exact .ok (refines_of_escalate made raised_)
      | error failure =>
        rw [ofFindings, issuesOf_escalate, told, scored'] at raised_
        cases raised_
    | error failure =>
      rw [score_escalate, scored] at scored'
      cases scored'
  | error failure =>
    have same : ofFindings weights (escalate rules findings) = .error failure := by
      unfold ofFindings at made ⊢
      rw [issuesOf_escalate]
      cases told : issuesOf findings with
      | error failure' =>
        rw [told] at made
        exact made
      | ok issues =>
        rw [told] at made
        cases scored : Finding.score weights findings with
        | ok points =>
          rw [scored] at made
          cases made
        | error failure' =>
          rw [scored] at made
          have scored' := (score_escalate weights rules findings failure').mpr scored
          show (Finding.score weights (escalate rules findings) >>= _) = _
          rw [scored']
          exact made
    rw [same]
    exact .error failure

/-- An error of a strict report is an error of one that is strict about more rules. -/
theorem keepsErrors_of_refines {rules more : List String} {lenient strict stricter : Report} (named : rules ≠ [])
    (within : rules ⊆ more) (refines : Refines rules lenient strict) (refines' : Refines more lenient stricter) :
    KeepsErrors strict stricter := by
  unfold KeepsErrors
  rw [refines.issues, refines'.issues, List.forall₂_map_left_iff, List.forall₂_map_right_iff, List.forall₂_same]
  intro issue _ severe
  by_cases listed : issue.severity = .warning ∧ (rules = [] ∨ issue.rule ∈ rules)
  · have member := listed.2.resolve_left named
    simp [Issue.raised, listed.1, member, within member]
  · rw [Issue.raised_of_not listed] at severe ⊢
    exact Issue.raised_of_error severe more

/-- The strict report on a component refines the lenient one, and the lenient one is the same for all
rules; the more rules are named, the more errors there are. -/
theorem ofComponent_strict (component : Component) (thresholds weights : Fields Value) (rules : List String) :
    (∀ others, ofComponent component others false thresholds weights =
        ofComponent component rules false thresholds weights) ∧
      Outcome.Both (Refines rules) (ofComponent component rules false thresholds weights)
        (ofComponent component rules true thresholds weights) ∧
      ∀ more, rules ≠ [] → rules ⊆ more →
        Outcome.Both KeepsErrors (ofComponent component rules true thresholds weights)
          (ofComponent component more true thresholds weights) := by
  have both (rules : List String) : Outcome.Both (Refines rules) (ofComponent component rules false thresholds weights)
      (ofComponent component rules true thresholds weights) := by
    unfold ofComponent
    cases check thresholds component.elements with
    | error failure => exact .error failure
    | ok findings =>
      cases Weights.merged weights with
      | error failure => exact .error failure
      | ok merged => exact both_ofFindings merged rules (findings ++ bestPractice component)
  refine ⟨fun others => rfl, both rules, fun more named within => ?_⟩
  have strict := both rules
  have stricter := both more
  have lenient : ofComponent component more false thresholds weights =
    ofComponent component rules false thresholds weights := rfl
  rw [lenient] at stricter
  revert strict stricter
  generalize ofComponent component rules false thresholds weights = first
  generalize ofComponent component rules true thresholds weights = second
  generalize ofComponent component more true thresholds weights = third
  intro strict stricter
  cases strict with
  | ok refines =>
    cases stricter with
    | ok refines' => exact .ok (keepsErrors_of_refines named within refines refines')
  | error failure =>
    cases stricter with
    | error => exact .error failure

/-- A component of one element that animates a property of the layout and one that there is not. -/
def wobbling : Component :=
  Component.ofForest .react false "Box"
    [⟨{ Motion.ofTag "div" with phases := [("animate", .object [("width", .int 200), ("wobble", .int 1)])] }, []⟩]

/-- One rule is named, and then two. -/
theorem ofComponent_strict_wobbling :
    Outcome.Both KeepsErrors (ofComponent wobbling ["layout-property"] true [] [])
        (ofComponent wobbling ["layout-property", "unknown-property"] true [] []) ∧
      ((ofComponent wobbling ["layout-property"] true [] []).toOption.map fun report =>
        report.issues.map fun issue => (issue.rule, issue.severity)) =
        some [("unknown-property", .warning), ("layout-property", .error)] :=
  ⟨(ofComponent_strict wobbling [] [] ["layout-property"]).2.2 ["layout-property", "unknown-property"]
    (by decide) (by decide), by decide +kernel⟩

end Report

end AnimationCode
