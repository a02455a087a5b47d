/-
**The transitions that a directive is written with.**

An element that carries the directive writes its own transition into the state that hosts it, or alone if there is none, in
milliseconds. Those of its variants are written in milliseconds too. The transition of any other state is written as it
stands, so only where no state has one of its own do all times count in milliseconds.

* `TemplateRender.writes_transition?`: an element writes its own transition;
* `TemplateRender.writes_of_state`: it writes that of a state that does not host its own as it stands;
* `TemplateRender.Writes.cases`: it writes no other transitions but those of its variants;
* `TemplateRender.Writes.inMilliseconds`, `TemplateRender.Writes.time`: where no state has one of its own, all are written in
  milliseconds, at every depth.
-/

import AnimationCode.Proofs.Element.Lift
import AnimationCode.Proofs.Element.States
import AnimationCode.Proofs.Timing
import AnimationCode.Render.Template

namespace AnimationCode

namespace TemplateRender

variable {motion : Motion} {options : Value}

/-- Options that stand in the bindings of an element: alone, inside a state, or inside a variant. -/
inductive Writes (motion : Motion) (options : Value) : Prop
  | alone (unhosted : host? motion = none) (given : transition? motion = some options)
  | inState {phase : String} {state : Fields Value} (notVariants : phase ≠ Phase.variants.name)
      (ordered : phase ∈ motion.orderedPhases.filter (· != Phase.transition.name))
      (bound : phaseValue motion (transition? motion) phase = .object state)
      (said : state.get? Phase.transition.name = some options)
  | inVariant {variants state : Fields Value} {name : String}
      (bound : phaseValue motion (transition? motion) Phase.variants.name = .object variants)
      (member : (name, .object state) ∈ variants) (said : state.get? Phase.transition.name = some options)

/-- Options in milliseconds, under a guard if a motion gives way. -/
def inMilliseconds (motion : Motion) (options : Value) : Value :=
  if motion.reducedMotion then .guarded (Timing.toMilliseconds options) else Timing.toMilliseconds options

theorem transition?_eq_some_iff : transition? motion = some options ↔
    ∃ original, motion.phase? .transition = some original ∧ original ≠ .null ∧ options = inMilliseconds motion original := by
  unfold transition?
  cases found : motion.phase? .transition with
  | none => simp
  | some original =>
    constructor
    · intro given
      cases original with
      | null => cases given
      | _ => exact ⟨_, rfl, nofun, (Option.some.inj given).symm⟩
    · rintro ⟨again, same, some_, rfl⟩
      cases same
      cases original with
      | null => exact absurd rfl some_
      | _ => rfl

/-! ### The state that hosts a transition -/

/-- A state that may host a transition is neither the transition itself nor the variants. -/
theorem name_of_mem_hosts : ∀ host ∈ hosts, host.name ≠ Phase.variants.name ∧ host.name ≠ Phase.transition.name := by decide

theorem host?_eq_some {phase : String} (hosted : host? motion = some phase) :
    ∃ host ∈ hosts, host.name = phase ∧ ∃ state, motion.phases.get? phase = some (.object state) := by
  obtain ⟨host, first, rfl⟩ := Option.map_eq_some_iff.mp hosted
  have written := List.find?_some first
  obtain ⟨state, fields⟩ := Option.isSome_iff_exists.mp written
  exact ⟨host, List.mem_of_find?_eq_some first, rfl, state, Motion.keyframes?_eq_some_iff.mp fields⟩

theorem phaseValue_of_state {phase : String} {state : Fields Value} (notVariants : phase ≠ Phase.variants.name)
    (found : motion.phases.get? phase = some (.object state)) (transition : Option Value) :
    phaseValue motion transition phase = .object (match transition with
      | some options => if host? motion = some phase then state.set Phase.transition.name options else state
      | none => state) := by
  unfold phaseValue
  rw [found, Option.getD_some]
  dsimp only
  rw [if_neg notVariants]
  cases transition with
  | none => rfl
  | some options =>
    dsimp only
    split <;> rfl

/-! ### What is written -/

/-- An element writes its own transition. -/
theorem writes_transition? (given : transition? motion = some options) : Writes motion options := by
  cases hosted : host? motion with
  | none => exact .alone hosted given
  | some phase =>
    obtain ⟨host, isHost, rfl, state, found⟩ := host?_eq_some hosted
    obtain ⟨notVariants, notTransition⟩ := name_of_mem_hosts host isHost
    refine .inState notVariants ?_ (phaseValue_of_state notVariants found _) ?_
    · exact List.mem_filter.mpr ⟨Motion.mem_orderedPhases_of_get? found, bne_iff_ne.mpr notTransition⟩
    · rw [given]
      dsimp only
      rw [if_pos hosted, Fields.get?_set, if_pos rfl]

/-- The transition of a state that does not host that of the element is written as it stands. -/
theorem writes_of_state {phase : String} {state : Fields Value} (notVariants : phase ≠ Phase.variants.name)
    (notTransition : phase ≠ Phase.transition.name) (found : motion.phases.get? phase = some (.object state))
    (said : state.get? Phase.transition.name = some options)
    (aside : transition? motion = none ∨ host? motion ≠ some phase) : Writes motion options := by
  refine .inState notVariants ?_ (phaseValue_of_state notVariants found _) ?_
  · exact List.mem_filter.mpr ⟨Motion.mem_orderedPhases_of_get? found, bne_iff_ne.mpr notTransition⟩
  · rcases aside with silent | elsewhere
    · rw [silent]
      exact said
    · cases transition? motion with
      | none => exact said
      | some own =>
        dsimp only
        rwa [if_neg elsewhere]

/-- A second of a state stays one second, where it should be a thousand milliseconds. -/
example : (directiveItems { Motion.ofTag "div" with phases := [
      ("hover", .object [("scale", .int 2), ("transition", .object [("duration", .int 1)])])] }).map Item.text =
    ["v-motion", ":hovered=\"\x7b scale: 2, transition: \x7b duration: 1 \x7d \x7d\""] := by decide +kernel

theorem exists_of_phaseValue {transition : Option Value} {phase : String} {state : Fields Value}
    (bound : phaseValue motion transition phase = .object state) :
    ∃ fields, motion.phases.get? phase = some (.object fields) := by
  unfold phaseValue at bound
  cases found : motion.phases.get? phase with
  | none =>
    rw [found] at bound
    cases bound
  | some value =>
    rw [found] at bound
    cases value with
    | object fields => exact ⟨fields, rfl⟩
    | _ => cases bound

/-- The variants of an element are written with their transitions in milliseconds. -/
theorem phaseValue_variants {fields : Fields Value} (found : motion.phase? .variants = some (.object fields))
    (transition : Option Value) :
    phaseValue motion transition Phase.variants.name = .object (fields.mapValues stateInMilliseconds) := by
  unfold phaseValue
  rw [show motion.phases.get? Phase.variants.name = _ from found, Option.getD_some]
  exact if_pos rfl

theorem exists_of_stateInMilliseconds {value : Value} {state : Fields Value}
    (made : stateInMilliseconds value = .object state) (said : state.get? Phase.transition.name = some options) :
    ∃ (before : Fields Value) (original : Value), value = .object before ∧ before.get? Phase.transition.name = some original ∧
      options = Timing.toMilliseconds original := by
  cases value with
  | object before =>
    unfold stateInMilliseconds at made
    dsimp only at made
    split at made
    · rename_i original known
      cases made
      rw [Fields.get?_set, if_pos rfl] at said
      exact ⟨before, original, rfl, known, (Option.some.inj said).symm⟩
    · rename_i silent
      cases made
      rw [silent] at said
      cases said
  | _ => cases made

/-- Options of a state of an element that is no variant. -/
def HasInState (motion : Motion) (options : Value) : Prop :=
  ∃ phase, ∃ state : Fields Value, phase ≠ Phase.variants.name ∧ phase ≠ Phase.transition.name ∧
    motion.phases.get? phase = some (.object state) ∧ state.get? Phase.transition.name = some options

/-- Options of a variant of an element. -/
def HasInVariant (motion : Motion) (options : Value) : Prop :=
  ∃ variants name, ∃ state : Fields Value, motion.phase? .variants = some (.object variants) ∧
    (name, .object state) ∈ variants ∧ state.get? Phase.transition.name = some options

/-- An element writes its own transition, those of its variants in milliseconds, and those of its states as they stand. -/
theorem Writes.cases (writes : Writes motion options) :
    transition? motion = some options ∨ HasInState motion options ∨
      ∃ original, HasInVariant motion original ∧ options = Timing.toMilliseconds original := by
  cases writes with
  | alone _ given => exact .inl given
  | @inState phase state notVariants ordered bound said =>
    obtain ⟨fields, found⟩ := exists_of_phaseValue bound
    have notTransition : phase ≠ Phase.transition.name := bne_iff_ne.mp (List.mem_filter.mp ordered).2
    rw [phaseValue_of_state notVariants found] at bound
    cases given : transition? motion with
    | none =>
      rw [given] at bound
      cases bound
      exact .inr (.inl ⟨phase, _, notVariants, notTransition, found, said⟩)
    | some own =>
      rw [given] at bound
      dsimp only at bound
      split at bound
      · cases bound
        rw [Fields.get?_set, if_pos rfl] at said
        exact .inl said
      · cases bound
        exact .inr (.inl ⟨phase, _, notVariants, notTransition, found, said⟩)
  | @inVariant variants state name bound member said =>
    obtain ⟨fields, found⟩ := exists_of_phaseValue bound
    rw [phaseValue_variants found] at bound
    cases bound
    obtain ⟨⟨again, value⟩, inside, made⟩ := List.mem_map.mp member
    obtain ⟨rfl, same⟩ := Prod.mk.inj made
    obtain ⟨before, original, rfl, known, scaled⟩ := exists_of_stateInMilliseconds same said
    exact .inr (.inr ⟨original, ⟨fields, again, before, found, inside, known⟩, scaled⟩)

/-- Where no state has a transition of its own, all are written in milliseconds. -/
theorem Writes.inMilliseconds (bare : ∀ options, ¬ HasInState motion options) (writes : Writes motion options) :
    ∃ original, (motion.phase? .transition = some original ∨ HasInVariant motion original) ∧
      (options = Timing.toMilliseconds original ∨ options = .guarded (Timing.toMilliseconds original)) := by
  rcases writes.cases with own | nested | ⟨original, inside, scaled⟩
  · obtain ⟨original, found, -, rfl⟩ := transition?_eq_some_iff.mp own
    refine ⟨original, .inl found, ?_⟩
    unfold TemplateRender.inMilliseconds
    split
    · exact .inr rfl
    · exact .inl rfl
  · exact absurd nested (bare options)
  · exact ⟨original, .inr inside, .inl scaled⟩

/-- Where no state has a transition of its own, a time at any depth of what is written is one in milliseconds. -/
theorem Writes.time (bare : ∀ options, ¬ HasInState motion options) (writes : Writes motion options) :
    ∃ original scaled, (motion.phase? .transition = some original ∨ HasInVariant motion original) ∧
      (options = scaled ∨ options = .guarded scaled) ∧
      ∀ path name value, name ∈ Timing.keys → original.unguarded.at? (path ++ [name]) = some value →
        value.isObject = false → scaled.unguarded.at? (path ++ [name]) = some (Timing.milliseconds value) := by
  obtain ⟨original, had, made⟩ := writes.inMilliseconds bare
  refine ⟨original, Timing.toMilliseconds original, had, made, fun path name value isTime found plain => ?_⟩
  exact Timing.at?_convert_of_time Timing.keepsPlain_milliseconds isTime found plain

/-- An element that was read from a template has transitions of its own only in a drag or in an unknown phase. -/
theorem not_hasInState_of_motion {parse : Script.Parser} {index : LineIndex} {node : TemplateNode} {found : Motion}
    {warnings : List String} (done : TemplateMotion.motion parse index node = .ok (some found, warnings))
    (others : ∀ phase, ∀ state : Fields Value, phase ∉ TemplateMotion.liftOrder.map Phase.name →
      found.phases.get? phase = some (.object state) → state.get? Phase.transition.name = none) (options : Value) :
    ¬ HasInState found options := by
  rintro ⟨phase, state, -, -, set_, said⟩
  have silent : state.get? Phase.transition.name = none := by
    by_cases lifted : phase ∈ TemplateMotion.liftOrder.map Phase.name
    · obtain ⟨known, isState, rfl⟩ := List.mem_map.mp lifted
      exact TemplateMotion.bare_of_motion done isState set_
    · exact others phase state lifted set_
  rw [silent] at said
  cases said

end TemplateRender

end AnimationCode
