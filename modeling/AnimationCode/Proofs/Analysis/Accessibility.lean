/-
**What was guarded does not flicker.**

The pass that guards rapid animations and the check that looks for them are written apart. They agree: after a revision
for accessibility every motion is calm, for it gives way or nothing in it repeats rapidly, and the check finds no
oscillation in a calm motion. Neither the transforms that other aims bring nor a conversion disturb this.

* `Guard.marked_of_rapid`: a rapid transition has its motion give way, wherever it stands;
* `Guard.isCalm_of_settled`: a motion is calm once it was guarded;
* `Guard.IsCalm.keepsPace`: it stays calm as long as no pace is new;
* `Accessibility.detect_of_calm`: the check of calm motions comes to an end, and finds no oscillation;
* `Component.detect_revise`: after a revision for accessibility, the check finds no oscillation.
-/

import AnimationCode.Analysis.Accessibility
import AnimationCode.Proofs.Convert.Pace
import AnimationCode.Proofs.Optimize.Guard
import AnimationCode.Proofs.Revision

namespace AnimationCode

namespace Transition.SamePace

variable {options others : Fields Value}

theorem isEndless_eq (same : SamePace options others) : isEndless others = isEndless options := by
  rw [isEndless, isEndless, same.repeats]

theorem isTooLong_eq (same : SamePace options others) : isTooLong others = isTooLong options := by
  rw [isTooLong, isTooLong, same.lasts]

theorem isRapid_eq (same : SamePace options others) (short : Binary64) :
    Guard.isRapid short others = Guard.isRapid short options := by
  rw [Guard.isRapid, Guard.isRapid, duration?, duration?, same.lasts, same.isEndless_eq]

end Transition.SamePace

namespace Guard

variable {short : Binary64} {before after motion : Motion}

/-- A motion that gives way to a wish for reduced motion, or in which nothing that repeats without end is rapid or too long
to tell. -/
def IsCalm (short : Binary64) (motion : Motion) : Prop :=
  motion.reducedMotion = true ∨ ∀ options, motion.HasTransition options → Transition.isEndless options = true →
    Transition.isTooLong options = false ∧ isRapid short options = false

theorem isRapid_of_rapid?_eq_none (calm : rapid? short motion = none) :
    ∀ options ∈ motion.transitions, isRapid short options = false := by
  unfold rapid? at calm
  intro options member
  rw [← Bool.not_eq_true]
  intro rapid
  cases first : motion.transitions.find? (isRapid short) with
  | none => exact List.find?_eq_none.mp first options member rapid
  | some found =>
    rw [first, Option.bind_some] at calm
    have chosen := List.find?_some first
    rw [isRapid, calm] at chosen
    cases chosen

/-- A rapid transition has its motion give way, wherever it stands. -/
theorem marked_of_rapid {options : Fields Value} (has : motion.HasTransition options) (rapid : isRapid short options = true) :
    (apply short motion).1.reducedMotion = true := by
  unfold apply
  split
  · assumption
  · split
    · rfl
    · rename_i calm
      rw [isRapid_of_rapid?_eq_none calm options (Motion.mem_transitions.mpr has)] at rapid
      cases rapid

/-- A motion is calm once it was guarded. -/
theorem isCalm_of_settled (settled : Settled short motion) : IsCalm short motion := by
  rcases settled with marked | ⟨calm, fit⟩
  · exact .inl marked
  · by_cases marked : motion.reducedMotion = true
    · exact .inl marked
    · refine .inr fun options has _ => ?_
      have slow := isRapid_of_rapid?_eq_none calm
      have member := Motion.mem_transitions.mpr has
      refine ⟨?_, slow options member⟩
      rw [← Bool.not_eq_true]
      intro tooLong
      rw [isUnfit, Bool.eq_false_iff.mpr marked, Bool.not_false, Bool.true_and] at fit
      cases first : motion.transitions.find? fun options => Transition.isTooLong options || isRapid short options with
      | none => exact List.find?_eq_none.mp first options member (by rw [tooLong]; rfl)
      | some found =>
        have chosen := List.find?_some first
        rw [slow found (List.mem_of_find?_eq_some first), Bool.or_false] at chosen
        rw [first, Option.any_some, chosen] at fit
        cases fit

/-- A calm motion stays calm as long as no pace is new. -/
theorem IsCalm.keepsPace (calm : IsCalm short before) (keeps : before.KeepsPace after) : IsCalm short after := by
  rcases calm with marked | each
  · exact .inl (keeps.mark.trans marked)
  · refine .inr fun options has endless => ?_
    rcases keeps.transitions options has with silent | ⟨others, there, same⟩
    · rw [Transition.isEndless, silent] at endless
      cases endless
    · rw [same.isTooLong_eq, same.isRapid_eq]
      exact each others there (same.isEndless_eq.symm.trans endless)

end Guard

namespace Accessibility

variable {short : Binary64} {motion : Motion}

theorem oscillates_of_calm (calm : Guard.IsCalm short motion) : oscillates short motion = false := by
  rcases calm with marked | each
  · rw [oscillates, marked]
    rfl
  · have slow : motion.transitions.any (Guard.isRapid short) = false := by
      refine List.any_eq_false.mpr fun options member rapid => ?_
      have endless : Transition.isEndless options = true := (Bool.and_eq_true_iff.mp rapid).2
      rw [(each options (Motion.mem_transitions.mp member) endless).2] at rapid
      cases rapid
    rw [oscillates, slow, Bool.and_false, Bool.false_and]

theorem isUnfit_of_calm (calm : Guard.IsCalm short motion) : isUnfit short motion = false := by
  rcases calm with marked | each
  · rw [isUnfit, marked]
    rfl
  · have nothing : (motion.transitions.find? fun options =>
        Transition.isEndless options && (Transition.isTooLong options || Guard.isRapid short options)) = none := by
      refine List.find?_eq_none.mpr fun options member found => ?_
      obtain ⟨endless, hurried⟩ := Bool.and_eq_true_iff.mp found
      obtain ⟨fits, slow⟩ := each options (Motion.mem_transitions.mp member) endless
      rw [fits, slow] at hurried
      cases hurried
    rw [isUnfit, nothing, Option.any_none, Bool.and_false]

/-- The check of calm motions comes to an end, and finds no oscillation. -/
theorem detect_of_calm {thresholds : Fields Value} {forest : Forest} (limit : Threshold.short thresholds = .ok short)
    (calm : ∀ motion ∈ forest.motions, Guard.IsCalm short motion) :
    ∃ findings, detect thresholds forest = .ok findings ∧ ∀ finding ∈ findings, finding.rule ≠ "rapid-oscillation" := by
  have fit : ¬ forest.motions.any (isUnfit short) = true := by
    rw [Bool.not_eq_true, List.any_eq_false]
    intro motion member
    simp [isUnfit_of_calm (calm motion member)]
  refine ⟨forest.motions.flatMap (ofMotion short), ?_, fun finding found => ?_⟩
  · simp only [detect, limit, bind, Except.bind, if_neg fit]
    rfl
  · obtain ⟨motion, member, here⟩ := List.mem_flatMap.mp found
    rw [ofMotion, oscillates_of_calm (calm motion member), if_neg Bool.false_ne_true, List.nil_append] at here
    split at here
    · rw [List.mem_singleton.mp here]
      exact (by decide : "missing-accessible-label" ≠ "rapid-oscillation")
    · cases here

end Accessibility

namespace Component

variable {component revised : Component} {account told : Account} {context : Context} {thresholds : Fields Value}

theorem isNamedOnce_optimize {focus : Focus} (named : ∀ motion ∈ component.elements.motions, motion.IsNamedOnce)
    (done : component.optimize focus thresholds account = .ok (revised, told)) :
    ∀ motion ∈ revised.elements.motions, motion.IsNamedOnce :=
  forall_optimize (fun _ => Transforms.isNamedOnce_apply) (fun short _ => Guard.isNamedOnce_apply short) named done

/-- After a revision for accessibility every motion is calm, whatever else was asked for. -/
theorem isCalm_revise (named : ∀ motion ∈ component.elements.motions, motion.IsNamedOnce)
    (accessible : context.focus.accessibility = true)
    (done : component.revise account context thresholds = .ok (revised, told)) :
    ∃ short, Threshold.short thresholds = .ok short ∧ ∀ motion ∈ revised.elements.motions, Guard.IsCalm short motion := by
  obtain ⟨middle, between, optimized, rest⟩ := revise_eq_ok done
  obtain ⟨short, limit, settled⟩ := (settled_optimize optimized).1.2 accessible
  refine ⟨short, limit, fun motion member => ?_⟩
  rcases rest with ⟨-, rfl⟩ | ⟨-, converted, made, rfl⟩
  · exact Guard.isCalm_of_settled (settled motion member)
  · obtain ⟨-, own, known, keeps⟩ :=
      (keepsPace_convert (isNamedOnce_optimize named optimized) made).exists_of_mem motion member
    exact (Guard.isCalm_of_settled (settled own known)).keepsPace keeps

/-- **After a revision for accessibility, the check finds no oscillation**, for its own framework as for another one. All that
is asked of the component is that its fields are well-formed, which name each phase and each transition once. -/
theorem detect_revise (named : ∀ motion ∈ component.elements.motions, motion.IsNamedOnce)
    (accessible : context.focus.accessibility = true)
    (done : component.revise account context thresholds = .ok (revised, told)) :
    ∃ findings, Accessibility.detect thresholds revised.elements = .ok findings ∧
      ∀ finding ∈ findings, finding.rule ≠ "rapid-oscillation" := by
  obtain ⟨short, limit, calm⟩ := isCalm_revise named accessible done
  exact Accessibility.detect_of_calm limit calm

/-- A component of one element that moves without end once its label is shown. -/
def flickering : Component :=
  Component.ofForest .react false "Box"
    [⟨{ Motion.ofTag "div" with
        phases := [("animate", .text "show"), ("variants", .object [("show", .object [("left", .int 4),
          ("transition", .object [("duration", .int 1), ("repeat", .real (.infinite false))])])])] }, []⟩]

/-- A variant that becomes the calls of an element is guarded before, and so is not found. -/
theorem detect_revise_flickering : ∃ revised told findings,
    flickering.revise (Account.start .react) ⟨.js, false, "Box", ⟨true, true, true⟩⟩
      [("short_duration", .int 1)] = .ok (revised, told) ∧
    revised.elements.motions.map Motion.reducedMotion = [true] ∧
    Accessibility.detect [("short_duration", .int 1)] revised.elements = .ok findings ∧
    ∀ finding ∈ findings, finding.rule ≠ "rapid-oscillation" := by
  have named : ∀ motion ∈ flickering.elements.motions, motion.IsNamedOnce := by decide
  have marked : (match flickering.revise (Account.start .react) ⟨.js, false, "Box", ⟨true, true, true⟩⟩
        [("short_duration", .int 1)] with
      | .ok (revised, _) => revised.elements.motions.map Motion.reducedMotion
      | .error _ => []) = [true] := by decide +kernel
  cases done : flickering.revise (Account.start .react) ⟨.js, false, "Box", ⟨true, true, true⟩⟩
      [("short_duration", .int 1)] with
  | error failure =>
    rw [done] at marked
    cases marked
  | ok result =>
    obtain ⟨findings, found, silent⟩ := detect_revise named rfl done
    rw [done] at marked
    exact ⟨result.1, result.2, findings, rfl, marked, found, silent⟩

end Component

end AnimationCode
