/-
**What becomes of a mark when an element is written.**

An element that gives way to a wish for reduced motion is written with its own transition under a guard, whatever it is
written as. Transitions inside its states stand there without one: where an element has no transition of its own, its mark
changes nothing in what is written.

* `MarkupRender.guarded_mem_items`, `TemplateRender.writes_guarded`, `TemplateRender.guarded_mem_componentItems`,
  `CallRender.siteCall?_guarded`: the element's own transition is guarded;
* `MarkupRender.items_marked`, `TemplateRender.directiveItems_marked`, `TemplateRender.componentItems_marked`,
  `CallRender.statements_marked`: without one, the mark is not seen;
* `Guard.unseen_of_absent`: so guarding such an element changes nothing, whichever transitions its states have.
-/

import AnimationCode.Proofs.Optimize.Guard
import AnimationCode.Proofs.Render.Directive
import AnimationCode.Render.Calls
import AnimationCode.Render.Markup

namespace AnimationCode

namespace Motion

variable {motion : Motion}

theorem orderedPhases_ne_of_absent (absent : motion.phase? .transition = none) :
    ∀ phase ∈ motion.orderedPhases, phase ≠ Phase.transition.name := by
  rintro phase member rfl
  have has : motion.phases.has Phase.transition.name = true := by
    rcases List.mem_append.mp member with known | other
    · exact (List.mem_filter.mp known).2
    · exact Fields.has_iff.mpr (List.mem_filter.mp other).1
  rw [Fields.has, show motion.phases.get? Phase.transition.name = none from absent] at has
  cases has

end Motion

theorem Value.print_guarded (value : Value) : (Value.guarded value).print = guardText ++ value.print := by
  rw [print]

namespace MarkupRender

variable {motion : Motion} {options : Value}

/-- The transition of an element that gives way is an attribute under a guard. -/
theorem guarded_mem_items (marked : motion.reducedMotion = true) (found : motion.phase? .transition = some options) :
    Phase.spelling Phase.transition.name .markup ++ "=\x7b" ++ Value.guardText ++ options.print ++ "\x7d" ∈ items motion := by
  refine List.mem_append_left _ (List.mem_map.mpr ⟨_, Motion.mem_orderedPhases_of_get? found, ?_⟩)
  have value : phaseValue motion Phase.transition.name = .guarded options := by
    rw [phaseValue, show motion.phases.get? Phase.transition.name = _ from found]
    exact if_pos ⟨rfl, marked⟩
  have braces : valueText (.guarded options) = "\x7b" ++ (Value.guardText ++ options.print) ++ "\x7d" := by
    rw [← Value.print_guarded]
    rfl
  rw [phaseItem, value, braces]
  simp only [String.append_assoc]
  rfl

/-- Where an element has no transition of its own, its mark is not seen. -/
theorem items_marked (absent : motion.phase? .transition = none) (mark : Bool) :
    items { motion with reducedMotion := mark } = items motion := by
  have same : ∀ phase ∈ motion.orderedPhases, phaseItem { motion with reducedMotion := mark } phase = phaseItem motion phase := by
    intro phase member
    have away := Motion.orderedPhases_ne_of_absent absent phase member
    rw [phaseItem, phaseItem, phaseValue, phaseValue, if_neg fun both => away both.1, if_neg fun both => away both.1]
  exact congrArg (· ++ motion.attributes.filterMap attributeItem?) (List.map_congr_left same)

end MarkupRender

namespace TemplateRender

variable {motion : Motion} {options : Value}

/-- The transition of an element that gives way is written under a guard. -/
theorem writes_guarded (marked : motion.reducedMotion = true) (found : motion.phase? .transition = some options)
    (given : options ≠ .null) : Writes motion (.guarded (Timing.toMilliseconds options)) := by
  refine writes_transition? (transition?_eq_some_iff.mpr ⟨options, found, given, ?_⟩)
  exact (if_pos marked).symm

theorem directiveItems_marked (absent : motion.phase? .transition = none) (mark : Bool) :
    directiveItems { motion with reducedMotion := mark } = directiveItems motion := by
  have silent (motion : Motion) (absent : motion.phase? .transition = none) : transition? motion = none := by
    rw [transition?, absent]
  rw [directiveItems, directiveItems, silent _ absent, silent { motion with reducedMotion := mark } absent]
  rfl

/-- The transition of a motion component that gives way is a property under a guard. -/
theorem guarded_mem_componentItems (marked : motion.reducedMotion = true)
    (found : motion.phase? .transition = some options) :
    bound (Phase.spelling Phase.transition.name .component) (.guarded options) ∈ componentItems motion := by
  refine List.mem_append_left _ (List.mem_append_left _ (List.mem_map.mpr ⟨_, Motion.mem_orderedPhases_of_get? found, ?_⟩))
  dsimp only
  rw [if_pos ⟨rfl, marked⟩, show motion.phases.get? Phase.transition.name = _ from found]
  rfl

theorem componentItems_marked (absent : motion.phase? .transition = none) (mark : Bool) :
    componentItems { motion with reducedMotion := mark } = componentItems motion := by
  have same : ∀ phase ∈ motion.orderedPhases,
      (if phase = Phase.transition.name ∧ mark = true then .guarded ((motion.phases.get? phase).getD .null)
        else (motion.phases.get? phase).getD .null) =
      if phase = Phase.transition.name ∧ motion.reducedMotion = true then
        .guarded ((motion.phases.get? phase).getD .null) else (motion.phases.get? phase).getD .null := by
    intro phase member
    have away := Motion.orderedPhases_ne_of_absent absent phase member
    rw [if_neg fun both => away both.1, if_neg fun both => away both.1]
  refine congrArg₂ (· ++ ·) (congrArg₂ (· ++ ·) (List.map_congr_left fun phase member => ?_) rfl) rfl
  exact congrArg (bound (Phase.spelling phase .component)) (same phase member)

end TemplateRender

namespace CallRender

variable {motion : Motion} {options : Value}

theorem options?_guarded (marked : motion.reducedMotion = true) (found : motion.phase? .transition = some options)
    (given : options ≠ .null) (some_ : options ≠ .object []) : options? motion = some (.guarded options) := by
  unfold options?
  rw [found]
  split
  · rename_i nothing
    cases nothing
  · rename_i nothing
    cases nothing
    exact absurd rfl given
  · rename_i nothing
    cases nothing
    exact absurd rfl some_
  · rename_i known
    cases known
    rw [if_pos marked]

/-- The call that sets a phase of an element that gives way has options under a guard. -/
theorem siteCall?_guarded (marked : motion.reducedMotion = true) (found : motion.phase? .transition = some options)
    (given : options ≠ .null) (some_ : options ≠ .object []) {phase : Phase} (called : phase ∈ callPhases)
    (begun : phase ≠ .initial) {keyframes : Fields Value} (set_ : motion.phase? phase = some (.object keyframes))
    (target : String) : siteCall? motion phase.name target =
      some ("animate(" ++ ", ".intercalate [target, (Value.object keyframes).print, Value.guardText ++ options.print] ++ ")") := by
  have plain : Text.stripStart? "restore:".toList phase.name.toList = none := by
    revert called
    cases phase <;> decide
  have later : phase.name ≠ Phase.initial.name := fun same => begun (Phase.name_injective same)
  unfold siteCall?
  rw [plain, show motion.phases.get? phase.name = _ from set_]
  dsimp only
  rw [if_neg later, call, options?_guarded marked found given some_, Option.map_some, Value.print_guarded]
  rfl

/-- Where an element has no transition of its own, its mark is not seen. -/
theorem statements_marked (absent : motion.phase? .transition = none) (mark : Bool) (target : String) :
    statements { motion with reducedMotion := mark } target = statements motion target := by
  have silent (motion : Motion) (absent : motion.phase? .transition = none) : options? motion = none := by
    rw [options?, absent]
  have calls (phase target : String) :
      siteCall? { motion with reducedMotion := mark } phase target = siteCall? motion phase target := by
    unfold siteCall?
    rw [silent motion absent, silent { motion with reducedMotion := mark } absent]
    rfl
  have each (phase : Phase) :
      phaseStatements { motion with reducedMotion := mark } target phase = phaseStatements motion target phase := by
    unfold phaseStatements siteCall
    simp only [calls]
    rfl
  rw [statements, statements, funext each]

end CallRender

/-- Guarding an element that has no transition of its own changes nothing in what is written, whichever transitions its
states have. -/
theorem Guard.unseen_of_absent {motion : Motion} (absent : motion.phase? .transition = none) (short : Binary64) :
    MarkupRender.items (apply short motion).1 = MarkupRender.items motion ∧
    TemplateRender.directiveItems (apply short motion).1 = TemplateRender.directiveItems motion ∧
    TemplateRender.componentItems (apply short motion).1 = TemplateRender.componentItems motion ∧
    ∀ target, CallRender.statements (apply short motion).1 target = CallRender.statements motion target := by
  obtain ⟨mark, same⟩ := apply_fst short motion
  rw [same]
  exact ⟨MarkupRender.items_marked absent mark, TemplateRender.directiveItems_marked absent mark,
    TemplateRender.componentItems_marked absent mark, CallRender.statements_marked absent mark⟩

end AnimationCode
