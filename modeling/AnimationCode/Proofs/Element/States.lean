/-
**The states of an element, and the transitions between them.**

A transition is the element's own or stands inside one of its states. Which there are depends on the shared phases alone, so
a change that leaves those as they are, or takes some away, brings no new transition.

* `Phase.name_injective`: phases of one name are the same;
* `Motion.states_mapStates`: a change of the states is seen in each of them, and nowhere else;
* `Motion.forall₂_phases_mapStates`: the phases before and after such a change, in pairs;
* `Motion.mem_transitions`: the options under which the states are reached, and where each stands;
* `Motion.HasState.within`, `Motion.HasTransition.within`: phases that are taken away bring nothing new;
* `Motion.IsNamedOnce`: a motion whose phases, and the transitions in its states, are named once;
* `Motion.mem_orderedPhases`, `Motion.nodup_orderedPhases`: the phases as they are written, each once.
-/

import AnimationCode.Element.States
import AnimationCode.Proofs.Fields
import Mathlib.Data.List.Basic
import Mathlib.Data.List.Forall2
import Mathlib.Tactic.SplitIfs

namespace AnimationCode

namespace Phase

theorem name_injective : Function.Injective name := by
  have named (phase : Phase) : ofName? phase.name = some phase := by cases phase <;> rfl
  intro first second same
  exact Option.some.inj ((named first).symm.trans (same ▸ named second))

theorem name_ne_transition {phase : Phase} (isState : phase ∈ states) : phase.name ≠ transition.name := by
  revert isState
  cases phase <;> decide

theorem name_ne_variants {phase : Phase} (isState : phase ∈ states) : phase.name ≠ variants.name := by
  revert isState
  cases phase <;> decide

end Phase

namespace Motion

theorem fields?_mapFields (change : Fields Value → Fields Value) (value : Value) :
    (mapFields change value).fields? = value.fields?.map change := by
  cases value <;> rfl

theorem keyframes?_mapStates (change : Fields Value → Fields Value) (motion : Motion) {phase : Phase}
    (isState : phase ∈ Phase.states) :
    (motion.mapStates change).keyframes? phase = (motion.keyframes? phase).map change := by
  have named : Phase.stateNames.contains phase.name = true := by
    revert isState
    cases phase <;> decide
  simp only [keyframes?, phase?, mapStates, Fields.get?_mapNamed, named, if_true, Option.bind_map]
  cases motion.phases.get? phase.name with
  | none => rfl
  | some value => exact fields?_mapFields change value

theorem keyframes?_variants_mapStates (change : Fields Value → Fields Value) (motion : Motion) :
    (motion.mapStates change).keyframes? .variants =
      (motion.keyframes? .variants).map (Fields.mapValues (mapFields change)) := by
  have unnamed : Phase.stateNames.contains Phase.variants.name = false := by decide
  simp only [keyframes?, phase?, mapStates, Fields.get?_mapNamed, unnamed, Bool.false_eq_true,
    if_false, if_true, Option.bind_map]
  cases motion.phases.get? Phase.variants.name with
  | none => rfl
  | some value => exact fields?_mapFields _ value

theorem variantStates_mapStates (change : Fields Value → Fields Value) (motion : Motion) :
    (motion.mapStates change).variantStates =
      motion.variantStates.map fun state => (state.1, change state.2) := by
  simp only [variantStates, keyframes?_variants_mapStates]
  cases motion.keyframes? .variants with
  | none => rfl
  | some variants =>
    simp only [Option.map_some, Fields.mapValues, List.filterMap_map,
      List.map_filterMap]
    congr 1
    funext variant
    simp [fields?_mapFields, Function.comp_def]

/-- A change of the states is seen in each of them, and nowhere else. -/
theorem states_mapStates (change : Fields Value → Fields Value) (motion : Motion) :
    (motion.mapStates change).states = motion.states.map fun state => (state.1, change state.2) := by
  have phases : (Phase.states.filterMap fun phase =>
      ((motion.mapStates change).keyframes? phase).map fun fields => (phase.name, fields)) =
      (Phase.states.filterMap fun phase =>
        (motion.keyframes? phase).map fun fields => (phase.name, fields)).map
          fun state => (state.1, change state.2) := by
    rw [List.map_filterMap]
    apply List.filterMap_congr
    intro phase isState
    rw [keyframes?_mapStates change motion isState]
    cases motion.keyframes? phase <;> rfl
  rw [states, states, statesIn, statesIn, phases, variantStates_mapStates, List.map_append]

end Motion

/-! ### States changed alike -/

/-- Two values whose fields are related, or one that has none. -/
inductive Value.Alike (related : Fields Value → Fields Value → Prop) : Value → Value → Prop
  | object {fields others : Fields Value} (inside : related fields others) : Alike related (.object fields) (.object others)
  | plain {value : Value} (plain : value.isObject = false) : Alike related value value

theorem Value.alike_mapFields {related : Fields Value → Fields Value → Prop} {change : Fields Value → Fields Value}
    (changes : ∀ fields, related fields (change fields)) (value : Value) :
    Alike related value (Motion.mapFields change value) := by
  cases value with
  | object fields => exact .object (changes fields)
  | _ => exact .plain rfl

namespace Motion

variable {related : Fields Value → Fields Value → Prop} {change : Fields Value → Fields Value}

/-- A phase before and after the states were changed: what a state or a variant animates may differ, every other phase is
as it was. -/
inductive PhaseAlike (related : Fields Value → Fields Value → Prop) : String × Value → String × Value → Prop
  | state {name : String} {value other : Value} (isState : name ∈ Phase.stateNames) (alike : Value.Alike related value other) :
      PhaseAlike related (name, value) (name, other)
  | variants {value other : Value}
      (alike : Value.Alike (List.Forall₂ fun variant changed => changed.1 = variant.1 ∧
        Value.Alike related variant.2 changed.2) value other) :
      PhaseAlike related (Phase.variants.name, value) (Phase.variants.name, other)
  | other {field : String × Value} (noState : field.1 ∉ Phase.stateNames) (noVariants : field.1 ≠ Phase.variants.name) :
      PhaseAlike related field field

theorem forall₂_phases_mapStates (changes : ∀ state, related state (change state)) (motion : Motion) :
    List.Forall₂ (PhaseAlike related) motion.phases (motion.mapStates change).phases := by
  refine List.forall₂_map_right_iff.mpr (List.forall₂_same.mpr ?_)
  rintro ⟨name, value⟩ -
  dsimp only
  split_ifs with isState isVariants
  · exact .state (List.contains_iff_mem.mp isState) (Value.alike_mapFields changes value)
  · subst isVariants
    have inside (variants : Fields Value) : List.Forall₂ (fun variant changed => changed.1 = variant.1 ∧
        Value.Alike related variant.2 changed.2) variants (Fields.mapValues (mapFields change) variants) :=
      List.forall₂_map_right_iff.mpr (List.forall₂_same.mpr fun variant _ => ⟨rfl, Value.alike_mapFields changes variant.2⟩)
    exact .variants (Value.alike_mapFields inside value)
  · exact .other (fun member => isState (List.contains_iff_mem.mpr member)) isVariants

theorem mapFields_mapFields (first second : Fields Value → Fields Value) (value : Value) :
    mapFields second (mapFields first value) = mapFields (second ∘ first) value := by
  cases value <;> rfl

theorem mapStates_mapStates (first second : Fields Value → Fields Value) (motion : Motion) :
    (motion.mapStates first).mapStates second = motion.mapStates (second ∘ first) := by
  have twice (variants : Fields Value) : Fields.mapValues (mapFields second) (Fields.mapValues (mapFields first) variants) =
      Fields.mapValues (mapFields (second ∘ first)) variants := by
    rw [Fields.mapValues, Fields.mapValues, List.map_map]
    exact List.map_congr_left fun variant _ => congrArg (variant.1, ·) (mapFields_mapFields first second variant.2)
  refine congrArg (fun phases : Fields Value => { motion with phases := phases }) ?_
  change List.map _ (List.map _ motion.phases) = _
  rw [List.map_map]
  refine List.map_congr_left fun field _ => congrArg (field.1, ·) ?_
  dsimp only
  split_ifs
  · exact mapFields_mapFields first second field.2
  · rw [mapFields_mapFields]
    exact congrArg (mapFields · field.2) (funext twice)
  · rfl

theorem mapStates_id (motion : Motion) : motion.mapStates id = motion := by
  have same : mapFields id = id := funext fun value => by cases value <;> rfl
  have sameVariants : Fields.mapValues (mapFields id) = id := funext fun variants => by
    rw [same]
    exact List.map_id variants
  refine congrArg (fun phases : Fields Value => { motion with phases := phases }) ?_
  refine (List.map_congr_left fun field _ => ?_).trans (List.map_id motion.phases)
  dsimp only
  rw [sameVariants, same]
  split_ifs <;> rfl

end Motion

/-! ### What a motion has -/

namespace Fields

variable {α β : Type}

theorem keys_mapNamed (change : String → α → β) (fields : Fields α) : (fields.mapNamed change).keys = fields.keys := by
  rw [keys, mapNamed, List.map_map]
  rfl

end Fields

namespace Value

theorem fields?_eq_some_iff {value : Value} {fields : Fields Value} : value.fields? = some fields ↔ value = .object fields := by
  cases value <;> simp [fields?]

end Value

namespace Motion

variable {before after motion : Motion} {options state : Fields Value}

/-- Properties that a phase or a variant of a motion animates to, written out. -/
inductive HasState (motion : Motion) (state : Fields Value) : Prop
  | phase {phase : Phase} (isState : phase ∈ Phase.states) (found : motion.phase? phase = some (.object state))
  | variant {variants : Fields Value} {name : String} (found : motion.phase? .variants = some (.object variants))
      (member : (name, .object state) ∈ variants)

/-- Options that are those of a motion itself, an outer guard aside, or stand inside one of its states. -/
inductive HasTransition (motion : Motion) (options : Fields Value) : Prop
  | own {value : Value} (found : motion.phase? .transition = some value) (written : value.unguarded = .object options)
  | nested {state : Fields Value} (inside : motion.HasState state)
      (found : state.get? Phase.transition.name = some (.object options))

theorem keyframes?_eq_some_iff {phase : Phase} :
    motion.keyframes? phase = some state ↔ motion.phase? phase = some (.object state) := by
  rw [keyframes?, Option.bind_eq_some_iff]
  constructor
  · rintro ⟨value, found, written⟩
    rw [found, Value.fields?_eq_some_iff.mp written]
  · exact fun found => ⟨_, found, rfl⟩

theorem mem_variantStates {path : String} : (path, state) ∈ motion.variantStates ↔
    ∃ variants name, motion.phase? .variants = some (.object variants) ∧ (name, .object state) ∈ variants ∧
      "variants." ++ name = path := by
  unfold variantStates
  cases written : motion.keyframes? .variants with
  | none =>
    refine ⟨nofun, fun ⟨variants, name, found, _⟩ => ?_⟩
    rw [keyframes?_eq_some_iff.mpr found] at written
    cases written
  | some declared =>
    have found : motion.phase? .variants = some (.object declared) := keyframes?_eq_some_iff.mp written
    constructor
    · intro member
      obtain ⟨⟨name, value⟩, inside, made⟩ := List.mem_filterMap.mp member
      obtain ⟨fields, properties, same⟩ := Option.map_eq_some_iff.mp made
      cases same
      cases Value.fields?_eq_some_iff.mp properties
      exact ⟨declared, name, found, inside, rfl⟩
    · rintro ⟨variants, name, found_, inside, rfl⟩
      rw [found] at found_
      cases found_
      exact List.mem_filterMap.mpr ⟨_, inside, rfl⟩

/-- In whatever order the phases are gone through, the states are the same. -/
theorem hasState_iff_statesIn {order : List Phase} (all : ∀ phase, phase ∈ order ↔ phase ∈ Phase.states) :
    motion.HasState state ↔ ∃ path, (path, state) ∈ motion.statesIn order := by
  rw [statesIn]
  constructor
  · rintro (⟨isState, found⟩ | ⟨found, member⟩)
    · exact ⟨_, List.mem_append_left _ (List.mem_filterMap.mpr
        ⟨_, (all _).mpr isState, Option.map_eq_some_iff.mpr ⟨state, keyframes?_eq_some_iff.mpr found, rfl⟩⟩)⟩
    · exact ⟨_, List.mem_append_right _ (mem_variantStates.mpr ⟨_, _, found, member, rfl⟩)⟩
  · rintro ⟨path, member⟩
    rcases List.mem_append.mp member with inPhase | inVariants
    · obtain ⟨phase, isState, made⟩ := List.mem_filterMap.mp inPhase
      obtain ⟨fields, found, same⟩ := Option.map_eq_some_iff.mp made
      cases same
      exact .phase ((all _).mp isState) (keyframes?_eq_some_iff.mp found)
    · obtain ⟨variants, name, found, inside, -⟩ := mem_variantStates.mp inVariants
      exact .variant found inside

theorem hasState_iff : motion.HasState state ↔ ∃ path, (path, state) ∈ motion.states :=
  hasState_iff_statesIn fun _ => Iff.rfl

/-- The options under which the states are reached are those of the motion itself and those inside its states, in whatever
order the phases are gone through. -/
theorem mem_transitionsIn {order : List Phase} (all : ∀ phase, phase ∈ order ↔ phase ∈ Phase.states) :
    options ∈ motion.transitionsIn order ↔ motion.HasTransition options := by
  rw [transitionsIn, List.mem_append, Option.mem_toList, List.mem_filterMap]
  constructor
  · rintro (own | ⟨⟨path, state⟩, inside, nested⟩)
    · obtain ⟨value, found, written⟩ := Option.bind_eq_some_iff.mp own
      obtain ⟨outer, outermost, rfl⟩ := Option.map_eq_some_iff.mp found
      exact .own outermost (Value.fields?_eq_some_iff.mp written)
    · obtain ⟨value, found, written⟩ := Option.bind_eq_some_iff.mp nested
      cases Value.fields?_eq_some_iff.mp written
      exact .nested ((hasState_iff_statesIn all).mpr ⟨path, inside⟩) found
  · rintro (⟨found, written⟩ | ⟨inside, found⟩)
    · left
      rw [found, Option.map_some, Option.bind_some, written]
      rfl
    · obtain ⟨path, member⟩ := (hasState_iff_statesIn all).mp inside
      refine .inr ⟨_, member, ?_⟩
      rw [found]
      rfl

theorem mem_transitions : options ∈ motion.transitions ↔ motion.HasTransition options :=
  mem_transitionsIn fun _ => Iff.rfl

/-! ### Phases that are taken away -/

/-- States of a motion that has no other phases are states of the first, whatever its transition is. -/
theorem HasState.within (has : after.HasState state)
    (within : ∀ phase value, phase ≠ .transition → after.phase? phase = some value → before.phase? phase = some value) :
    before.HasState state := by
  cases has with
  | phase isState found =>
    refine .phase isState (within _ _ ?_ found)
    rintro rfl
    exact absurd isState (by decide)
  | variant found member => exact .variant (within _ _ (by decide) found) member

theorem HasTransition.within (has : after.HasTransition options)
    (within : ∀ phase value, after.phase? phase = some value → before.phase? phase = some value) :
    before.HasTransition options := by
  cases has with
  | own found written => exact .own (within _ _ found) written
  | nested inside found => exact .nested (inside.within fun phase value _ => within phase value) found

/-! ### Names -/

/-- A motion whose phases are named once, and each of its states says its transition once. -/
structure IsNamedOnce (motion : Motion) : Prop where
  phases : motion.phases.keys.Nodup
  states : ∀ state, motion.HasState state → (Fields.keys state).count Phase.transition.name ≤ 1

theorem isNamedOnce_iff : motion.IsNamedOnce ↔
    motion.phases.keys.Nodup ∧ ∀ state ∈ motion.states, (Fields.keys state.2).count Phase.transition.name ≤ 1 := by
  constructor
  · exact fun named => ⟨named.phases, fun state member => named.states _ (hasState_iff.mpr ⟨state.1, member⟩)⟩
  · rintro ⟨phases, states⟩
    refine ⟨phases, fun state has => ?_⟩
    obtain ⟨path, member⟩ := hasState_iff.mp has
    exact states _ member

instance : DecidablePred IsNamedOnce := fun _ => decidable_of_iff _ isNamedOnce_iff.symm

theorem IsNamedOnce.within (named : before.IsNamedOnce) (phases : after.phases.keys.Nodup)
    (within : ∀ phase value, phase ≠ .transition → after.phase? phase = some value → before.phase? phase = some value) :
    after.IsNamedOnce :=
  ⟨phases, fun state has => named.states state (has.within within)⟩

/-- A change of the states that says no transition a second time. -/
theorem IsNamedOnce.mapStates (named : motion.IsNamedOnce) {change : Fields Value → Fields Value}
    (once : ∀ state, (Fields.keys state).count Phase.transition.name ≤ 1 →
      (Fields.keys (change state)).count Phase.transition.name ≤ 1) : (motion.mapStates change).IsNamedOnce := by
  refine ⟨?_, fun state has => ?_⟩
  · rw [Motion.mapStates, Fields.keys_mapNamed]
    exact named.phases
  · obtain ⟨path, member⟩ := hasState_iff.mp has
    rw [states_mapStates] at member
    obtain ⟨⟨name, first⟩, inside, same⟩ := List.mem_map.mp member
    cases same
    exact once first (named.states first (hasState_iff.mpr ⟨_, inside⟩))

/-! ### The phases as they are written -/

theorem mem_orderedPhases {name : String} : name ∈ motion.orderedPhases ↔ motion.phases.has name = true := by
  rw [orderedPhases, List.mem_append, List.mem_filter, List.mem_filter, ← Fields.has_iff]
  constructor
  · rintro (⟨-, has⟩ | ⟨has, -⟩) <;> exact has
  · intro has
    by_cases known : Phase.names.contains name = true
    · exact .inl ⟨List.contains_iff_mem.mp known, has⟩
    · exact .inr ⟨has, by simpa using known⟩

theorem mem_orderedPhases_of_get? {phase : String} {value : Value} (found : motion.phases.get? phase = some value) :
    phase ∈ motion.orderedPhases := mem_orderedPhases.mpr (Option.isSome_iff_exists.mpr ⟨value, found⟩)

theorem nodup_orderedPhases (named : motion.phases.keys.Nodup) : motion.orderedPhases.Nodup := by
  have names : Phase.names.Nodup := by decide
  refine List.nodup_append.mpr ⟨names.filter _, named.filter _, fun phase known other unknown same => ?_⟩
  have listed : Phase.names.contains phase = true := List.contains_iff_mem.mpr (List.mem_filter.mp known).1
  have absent := (List.mem_filter.mp unknown).2
  rw [← same, listed] at absent
  cases absent

end Motion

end AnimationCode
