/-
**What is said of an element is what it does.**

The calls on an element begin each of its phases once, and all that carry options carry the same. So the group of its
calls moves as the element does.

* `isSaidOf_motion`: what is said of one target;
* `movesAs_close`: what the calls on a target come to.
-/

import AnimationCode.Proofs.Element.States
import AnimationCode.Proofs.Render.Calls

namespace AnimationCode

namespace CallRender

open Calls (Gathers Group IsSaidOf Saying phasesOf restores spoken)

variable {motion : Motion} {phase : Phase} {fields : Fields Value} {target : List Char} {saying : Saying}

/-! ### One thing that is said -/

theorem keyframes?_of_has (callable : IsCallable motion) (has : motion.hasPhase phase = true) :
    ∃ fields, motion.keyframes? phase = some fields := by
  obtain ⟨value, found⟩ := Option.isSome_iff_exists.mp has
  obtain ⟨-, fields, object_, -⟩ := callable.phases _ (Fields.mem_of_get? found)
  refine ⟨fields, ?_⟩
  rw [Motion.keyframes?, Motion.phase?, found]
  exact congrArg Value.fields? object_

/-- What is said carries the options of the element or none. -/
theorem exists_spoken (member : saying ∈ motionSayings motion target) :
    ∃ name fields given, saying = spoken target name fields given ∧ (given = none ∨ given = options? motion) := by
  obtain ⟨phase, -, member⟩ := List.mem_flatMap.mp member
  unfold phaseSayings at member
  cases found : motion.keyframes? phase with
  | none =>
    rw [found] at member
    cases member
  | some fields =>
    rw [found] at member
    dsimp only at member
    split at member
    · rcases List.mem_cons.mp member with rfl | rest
      · exact ⟨_, _, _, rfl, .inr rfl⟩
      · exact ⟨_, _, _, List.mem_singleton.mp rest, .inr rfl⟩
    · refine ⟨_, _, _, List.mem_singleton.mp member, ?_⟩
      split
      · exact .inl rfl
      · exact .inr rfl

theorem restores_name (phase : Phase) : restores phase.name = false := by cases phase <;> rfl

/-- Something is said that carries the options of the element. -/
theorem exists_carrying (callable : IsCallable motion) (target : List Char) :
    ∃ phase fields, spoken target (Phase.name phase) fields (options? motion) ∈ motionSayings motion target := by
  have carrying {phase : Phase} {fields : Fields Value} (member : phase ∈ callPhases) (found : motion.keyframes? phase = some fields)
      (carries : ¬ (phase = .initial ∧ isCarried motion = true)) :
      spoken target phase.name fields (options? motion) ∈ motionSayings motion target := by
    refine List.mem_flatMap.mpr ⟨phase, member, ?_⟩
    rw [phaseSayings, found]
    dsimp only
    split
    · exact List.mem_cons_self
    · rw [if_neg carries]
      exact List.mem_singleton_self _
  cases carried : isCarried motion with
  | true =>
    obtain ⟨phase, member, found⟩ := List.any_eq_true.mp carried
    obtain ⟨known, other⟩ := List.mem_filter.mp member
    obtain ⟨fields, found⟩ := Option.isSome_iff_exists.mp found
    exact ⟨phase, fields, carrying known found fun initial => by simp [initial.1] at other⟩
  | false =>
    obtain ⟨phase, member, has⟩ := callable.moves
    obtain ⟨fields, found⟩ := keyframes?_of_has callable has
    exact ⟨phase, fields, carrying member found fun initial => by simp [carried] at initial⟩

/-! ### The phases that are begun -/

/-- What calls begin for a phase. -/
def begun (motion : Motion) (phase : Phase) : Option (String × Value) :=
  (motion.keyframes? phase).map fun fields => (phase.name, .object (Fields.mapValues Value.normal fields))

theorem phasesOf_phaseSayings (motion : Motion) (target : List Char) (phase : Phase) :
    phasesOf (phaseSayings motion target phase) = (begun motion phase).toList := by
  have ends : restores ("restore:" ++ phase.name) = true := by cases phase <;> rfl
  unfold phaseSayings begun
  cases motion.keyframes? phase with
  | none => rfl
  | some fields =>
    dsimp only
    split <;> simp [phasesOf, spoken, restores_name, ends]

theorem phasesOf_motionSayings (motion : Motion) (target : List Char) :
    phasesOf (motionSayings motion target) = callPhases.filterMap (begun motion) := by
  rw [motionSayings, phasesOf, List.filter_flatMap, List.map_flatMap, List.filterMap_eq_flatMap_toList]
  exact List.flatMap_congr fun phase _ => phasesOf_phaseSayings motion target phase

theorem nodup_phasesOf (motion : Motion) (target : List Char) :
    (Fields.keys (phasesOf (motionSayings motion target))).Nodup := by
  have named {phase : Phase} {name : String} (known : name ∈ (begun motion phase).map Prod.fst) : name = phase.name := by
    obtain ⟨_, made, rfl⟩ := Option.mem_map.mp known
    obtain ⟨fields, -, rfl⟩ := Option.mem_map.mp made
    rfl
  rw [phasesOf_motionSayings, Fields.keys, List.map_filterMap]
  exact List.Nodup.filterMap (fun _ _ _ here there => Phase.name_injective ((named here).symm.trans (named there))) (by decide)

/-- The phases that are begun are those of the element, but for its transition. -/
theorem get?_phasesOf (callable : IsCallable motion) (target : List Char) {name : String}
    (state : name ≠ Phase.transition.name) :
    Fields.get? (phasesOf (motionSayings motion target)) name = (motion.phases.get? name).map Value.normal := by
  cases found : motion.phases.get? name with
  | some value =>
    obtain ⟨known, fields, rfl, -⟩ := callable.phases _ (Fields.mem_of_get? found)
    obtain ⟨phase, member, rfl⟩ := List.mem_map.mp known
    have called : phase ∈ callPhases := by
      rcases List.mem_append.mp member with called | last
      · exact called
      · exact absurd (congrArg Phase.name (List.mem_singleton.mp last)) state
    refine Fields.get?_of_mem (nodup_phasesOf motion target) ?_
    rw [phasesOf_motionSayings]
    refine List.mem_filterMap.mpr ⟨phase, called, ?_⟩
    rw [begun, Motion.keyframes?, Motion.phase?, found, Value.normal, Value.normalEntries_eq_map]
    rfl
  | none =>
    rw [Option.map_none, Fields.get?_eq_none_iff]
    intro known
    obtain ⟨field, member, rfl⟩ := List.mem_map.mp known
    rw [phasesOf_motionSayings] at member
    obtain ⟨phase, -, made⟩ := List.mem_filterMap.mp member
    obtain ⟨fields, moved, rfl⟩ := Option.map_eq_some_iff.mp made
    rw [get?_of_keyframes? moved] at found
    cases found

/-! ### The options and the wish for reduced motion -/

/-- The options that count are the transition. -/
theorem counted?_spoken (callable : IsCallable motion) (target : List Char) {name : String} (begins : restores name = false)
    (fields : Fields Value) :
    (spoken target name fields (options? motion)).counted? = (motion.phase? .transition).map Value.normal := by
  rw [options?_eq callable]
  cases found : motion.phase? .transition with
  | none => rfl
  | some value =>
    obtain ⟨options, rfl, some_, -⟩ := transition_of_callable callable found
    obtain ⟨field, rest, rfl⟩ := List.exists_cons_of_ne_nil some_
    have unguarded : (spoken target name fields ((some (Value.object (field :: rest))).map fun value =>
        if motion.reducedMotion then Value.guarded value else value)).options.unguarded =
          Value.object (Value.normalEntries (field :: rest)) := by
      cases motion.reducedMotion <;> rfl
    rw [Saying.counted?, unguarded]
    show (if restores name = true then none else _) = _
    rw [begins]
    rfl

/-- No options count but the transition. -/
theorem counted?_of_mem (callable : IsCallable motion) (member : saying ∈ motionSayings motion target) {options : Value}
    (counted : saying.counted? = some options) : (motion.phase? .transition).map Value.normal = some options := by
  obtain ⟨name, fields, given, rfl, rfl | rfl⟩ := exists_spoken member
  · cases counted
  · cases begins : restores name with
    | false => rw [← counted?_spoken callable target begins fields, counted]
    | true =>
      have phase_ : (spoken target name fields (options? motion)).phase = name := rfl
      unfold Saying.counted? at counted
      rw [phase_, begins] at counted
      split at counted <;> cases counted

theorem givesWay_spoken (callable : IsCallable motion) (target : List Char) (name : String) (fields : Fields Value) :
    (spoken target name fields (options? motion)).givesWay = motion.reducedMotion := by
  rw [options?_eq callable]
  cases found : motion.phase? .transition with
  | none =>
    have still : motion.reducedMotion = false := by
      rw [← Bool.not_eq_true]
      intro reduced
      have has := callable.guard reduced
      rw [Motion.hasPhase, Fields.has, show motion.phases.get? Phase.transition.name = none from found] at has
      cases has
    rw [still]
    rfl
  | some value =>
    obtain ⟨options, rfl, -, -⟩ := transition_of_callable callable found
    cases motion.reducedMotion <;> rfl

theorem any_givesWay (callable : IsCallable motion) (target : List Char) :
    (motionSayings motion target).any Saying.givesWay = motion.reducedMotion := by
  obtain ⟨phase, fields, carrying⟩ := exists_carrying callable target
  cases reduced : motion.reducedMotion with
  | true =>
    refine List.any_eq_true.mpr ⟨_, carrying, ?_⟩
    rw [givesWay_spoken callable, reduced]
  | false =>
    refine List.any_eq_false.mpr fun saying member => ?_
    obtain ⟨name, fields, given, rfl, rfl | rfl⟩ := exists_spoken member
    · exact Bool.false_ne_true
    · rw [givesWay_spoken callable, reduced]
      exact Bool.false_ne_true

/-! ### What the calls come to -/

/-- Something is said of the target of an element, and no phase is begun twice. -/
theorem isSaidOf_motion (callable : IsCallable motion) (target : List Char) :
    IsSaidOf (String.ofList target, motionSayings motion target) where
  some_ := by
    obtain ⟨phase, fields, carrying⟩ := exists_carrying callable target
    exact List.ne_nil_of_mem carrying
  target saying member := by
    obtain ⟨name, fields, given, rfl, -⟩ := exists_spoken member
    rfl
  once := nodup_phasesOf motion target

/-- The group of the calls on an element moves as the element does. -/
theorem movesAs_close (callable : IsCallable motion) {group : Group} (gathers : Gathers group (motionSayings motion target)) :
    group.close.MovesAs motion := by
  have chosen := gathers.transition_eq (fun saying member options counted => counted?_of_mem callable member counted)
    fun options found => by
      obtain ⟨phase, fields, carrying⟩ := exists_carrying callable target
      exact ⟨_, carrying, (counted?_spoken callable target (restores_name phase) fields).trans found⟩
  have reduced := gathers.reducedMotion.trans (any_givesWay callable target)
  have states {name : String} (state : name ≠ Phase.transition.name) :
      group.motion.phases.get? name = (motion.phases.get? name).map Value.normal := by
    rw [gathers.phases, get?_phasesOf callable target state]
  unfold Group.close
  rw [chosen]
  cases found : motion.phase? .transition with
  | some value =>
    refine ⟨fun name => ?_, reduced⟩
    show (group.motion.phases.set _ _).get? name = _
    rw [Fields.get?_set]
    split
    · rename_i same
      rw [same, show motion.phases.get? Phase.transition.name = some value from found]
      rfl
    · rename_i state
      exact states state
  | none =>
    refine ⟨fun name => ?_, reduced⟩
    by_cases state : name = Phase.transition.name
    · show group.motion.phases.get? name = _
      rw [state, show motion.phases.get? Phase.transition.name = none from found, gathers.phases, Option.map_none,
        Fields.get?_eq_none_iff]
      intro known
      obtain ⟨field, member, same⟩ := List.mem_map.mp known
      rw [phasesOf_motionSayings] at member
      obtain ⟨phase, called, made⟩ := List.mem_filterMap.mp member
      obtain ⟨fields, -, rfl⟩ := Option.map_eq_some_iff.mp made
      obtain rfl : phase = .transition := Phase.name_injective same
      exact absurd called (by decide)
    · exact states state

theorem phases_ne_nil (callable : IsCallable motion) {read : Motion} (moves : read.MovesAs motion) : read.phases ≠ [] := by
  intro nothing
  obtain ⟨phase, -, has⟩ := callable.moves
  obtain ⟨value, found⟩ := Option.isSome_iff_exists.mp has
  have same := moves.phases phase.name
  rw [nothing, found] at same
  cases same

end CallRender

end AnimationCode
