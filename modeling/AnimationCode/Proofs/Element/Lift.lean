/-
**What a directive keeps of the transitions in its states.**

Every state of an element that carries the directive loses the transition inside it. The element keeps one of them: the
first that is given, its own before those of its states in their order. The others are gone, and nothing is said of it; only
where all of them agree is none lost.

* `TemplateMotion.foldl_liftFrom`: each state is bared, and the first transition that is given is kept;
* `TemplateMotion.bare_of_lift`, `TemplateMotion.get?_of_lift`: no state has a transition left, and all else is left in it;
* `TemplateMotion.transition_of_lift`, `TemplateMotion.time_of_lift`: the transition that the element keeps, in seconds;
* `TemplateMotion.transition_of_first`, `TemplateMotion.transition_of_agree`: which one of several it is;
* `TemplateMotion.bare_of_motion`: so it is with every element that is read from a template.
-/

import AnimationCode.Element.OfTemplate
import AnimationCode.Proofs.Element.States
import AnimationCode.Proofs.Fields
import AnimationCode.Proofs.Outcome
import AnimationCode.Proofs.Timing

namespace AnimationCode

namespace TemplateMotion

variable {phases : Fields Value} {transition : Value}

/-- The transition that stands inside a phase. -/
def nested? (phases : Fields Value) (phase : Phase) : Option Value :=
  ((phases.get? phase.name).bind Value.fields?).bind fun state => state.get? Phase.transition.name

/-- A phase without the transition inside it; nothing if there is no more to it. -/
def bared? : Value → Option Value
  | .object state =>
    if Fields.has state Phase.transition.name then
      if (Fields.erase state Phase.transition.name).isEmpty then none
      else some (.object (Fields.erase state Phase.transition.name))
    else some (.object state)
  | value => some value

theorem bared?_object (state : Fields Value) : bared? (.object state) =
    if state.has Phase.transition.name then
      if (state.erase Phase.transition.name).isEmpty then none else some (.object (state.erase Phase.transition.name))
    else some (.object state) := rfl

theorem get?_of_bared? {value : Value} {state : Fields Value} (bare : bared? value = some (.object state)) :
    state.get? Phase.transition.name = none := by
  cases value with
  | object before =>
    rw [bared?_object] at bare
    split at bare
    · split at bare
      · cases bare
      · cases bare
        rw [Fields.get?_erase, if_pos rfl]
    · rename_i silent
      cases bare
      rwa [Fields.has, Bool.not_eq_true, Option.isSome_eq_false_iff, Option.isNone_iff_eq_none] at silent
  | _ => cases bare

/-- A state that holds another property keeps it when it is bared. -/
theorem exists_bared? {state : Fields Value} {property : String} {value : Value} (away : property ≠ Phase.transition.name)
    (held : state.get? property = some value) :
    ∃ after : Fields Value, bared? (.object state) = some (.object after) ∧ after.get? property = some value := by
  have left_ : (Fields.erase state Phase.transition.name).get? property = some value := by
    rw [Fields.get?_erase, if_neg away, held]
  rw [bared?_object]
  split
  · rw [if_neg]
    · exact ⟨_, rfl, left_⟩
    · intro empty
      rw [List.isEmpty_iff.mp empty] at left_
      cases left_
  · exact ⟨_, rfl, held⟩

/-- The first of some transitions that is given, after one that goes before them. -/
def firstGiven (own : Value) (others : List Value) : Value :=
  others.foldl (fun kept next => match kept with
    | .null => next
    | _ => kept) own

/-! ### One state -/

theorem get?_liftFrom (phase : Phase) (name : String) :
    (liftFrom (phases, transition) phase).1.get? name =
      if name = phase.name then (phases.get? name).bind bared? else phases.get? name := by
  unfold liftFrom
  dsimp only
  split
  · rename_i state found
    by_cases same : name = phase.name
    · subst same
      rw [if_pos rfl, found, Option.bind_some, bared?, Fields.has]
      split
      · rename_i nested said
        rw [said, Option.isSome_some, if_pos rfl]
        dsimp only
        split
        · rw [Fields.get?_erase, if_pos rfl]
        · rw [Fields.get?_set, if_pos rfl]
      · rename_i silent
        rw [silent, Option.isSome_none, if_neg Bool.false_ne_true]
        exact found
    · rw [if_neg same]
      split
      · dsimp only
        split
        · rw [Fields.get?_erase, if_neg same]
        · rw [Fields.get?_set, if_neg same]
      · rfl
  · rename_i other
    by_cases same : name = phase.name
    · subst same
      rw [if_pos rfl]
      cases found : phases.get? phase.name with
      | none => rfl
      | some value =>
        cases value with
        | object state => exact absurd found (other state)
        | _ => rfl
    · rw [if_neg same]

theorem snd_liftFrom (phase : Phase) :
    (liftFrom (phases, transition) phase).2 = firstGiven transition (nested? phases phase).toList := by
  unfold liftFrom nested?
  dsimp only
  split
  · rename_i state found
    rw [found, Option.bind_some, Value.fields?, Option.bind_some]
    split
    · rename_i nested said
      rw [said]
      rfl
    · rename_i silent
      rw [silent]
      rfl
  · rename_i other
    cases found : phases.get? phase.name with
    | none => rfl
    | some value =>
      cases value with
      | object state => exact absurd found (other state)
      | _ => rfl

theorem nodup_liftFrom (named : phases.keys.Nodup) (phase : Phase) :
    (liftFrom (phases, transition) phase).1.keys.Nodup := by
  unfold liftFrom
  dsimp only
  split
  · split
    · dsimp only
      split
      · exact Fields.nodup_erase named _
      · exact Fields.nodup_set named _ _
    · exact named
  · exact named

/-! ### All states -/

theorem nested?_liftFrom {phase other : Phase} (away : other ≠ phase) :
    nested? (liftFrom (phases, transition) phase).1 other = nested? phases other := by
  rw [nested?, get?_liftFrom, if_neg fun same => away (Phase.name_injective same), nested?]

/-- Each state is bared, and the first transition that is given is kept. -/
theorem foldl_liftFrom {order : List Phase} (once : order.Nodup) :
    (∀ name, (order.foldl liftFrom (phases, transition)).1.get? name =
      if name ∈ order.map Phase.name then (phases.get? name).bind bared? else phases.get? name) ∧
    (order.foldl liftFrom (phases, transition)).2 = firstGiven transition (order.filterMap (nested? phases)) := by
  induction order generalizing phases transition with
  | nil => exact ⟨fun name => rfl, rfl⟩
  | cons first rest ih =>
    obtain ⟨fresh, others⟩ := List.nodup_cons.mp once
    obtain ⟨each, kept⟩ := @ih (liftFrom (phases, transition) first).1 (liftFrom (phases, transition) first).2 others
    constructor
    · intro name
      refine (each name).trans ?_
      rw [get?_liftFrom, List.map_cons]
      by_cases here : name = first.name
      · have away : name ∉ rest.map Phase.name := by
          rintro later
          obtain ⟨phase, member, same⟩ := List.mem_map.mp later
          exact fresh (Phase.name_injective (same.trans here) ▸ member)
        rw [if_neg away, if_pos here, if_pos (by rw [here]; exact List.mem_cons_self)]
      · rw [if_neg here]
        simp only [List.mem_cons, here, false_or]
    · refine kept.trans ?_
      have same : rest.filterMap (nested? (liftFrom (phases, transition) first).1) = rest.filterMap (nested? phases) :=
        List.filterMap_congr fun phase member => nested?_liftFrom fun here => fresh (here ▸ member)
      rw [same, snd_liftFrom, List.filterMap_cons]
      cases nested? phases first <;> rfl

theorem nodup_foldl_liftFrom (named : phases.keys.Nodup) (order : List Phase) :
    (order.foldl liftFrom (phases, transition)).1.keys.Nodup := by
  induction order generalizing phases transition with
  | nil => exact named
  | cons first rest ih => exact ih (nodup_liftFrom named first)

/-! ### The transition that is kept -/

theorem firstGiven_of_given {own : Value} (given : own ≠ .null) (others : List Value) : firstGiven own others = own := by
  induction others with
  | nil => rfl
  | cons next rest ih =>
    have kept : firstGiven own (next :: rest) = firstGiven own rest := by
      cases own with
      | null => exact absurd rfl given
      | _ => rfl
    rw [kept, ih]

/-- Transitions that agree are all kept as the one. -/
theorem firstGiven_of_agree {value : Value} {own : Value} {others : List Value}
    (agree : ∀ other ∈ own :: others, other ≠ .null → other = value) (given : ∃ other ∈ own :: others, other ≠ .null) :
    firstGiven own others = value := by
  induction others generalizing own with
  | nil =>
    obtain ⟨other, member, some_⟩ := given
    cases List.mem_singleton.mp member
    exact agree own List.mem_cons_self some_
  | cons next rest ih =>
    by_cases silent : own = .null
    · subst silent
      refine ih (fun other member => agree other (List.mem_cons_of_mem _ member)) ?_
      obtain ⟨other, member, some_⟩ := given
      rcases List.mem_cons.mp member with rfl | later
      · exact absurd rfl some_
      · exact ⟨other, later, some_⟩
    · rw [firstGiven_of_given silent]
      exact agree own List.mem_cons_self silent

/-! ### Times in seconds -/

/-- Options in seconds: those of a directive count in milliseconds, and those of a component do not. -/
def Carrier.inSeconds : Carrier → Value → Value
  | .directive => Timing.toSeconds
  | .component => id

theorem Carrier.inSeconds_ne_null (carrier : Carrier) {options : Value} (given : options ≠ .null) :
    carrier.inSeconds options ≠ .null := by
  cases carrier with
  | component => exact given
  | directive => cases options <;> simp_all [inSeconds, Timing.toSeconds, Timing.convert]

/-- A variant with its transition in seconds. -/
def variantInSeconds : Value → Value
  | .object state =>
    match Fields.get? state Phase.transition.name with
    | some nested => .object (Fields.set state Phase.transition.name (Timing.toSeconds nested))
    | none => .object state
  | value => value

theorem inSeconds_eq_ok {options seconds : Value} (done : inSeconds options = .ok seconds) :
    seconds = Timing.toSeconds options := by
  unfold inSeconds Timing.toSeconds? at done
  split at done
  · rename_i found
    split at found
    · cases found
      exact (Except.ok.inj done).symm
    · cases found
  · cases done

theorem stateInSeconds_eq_ok {state after : Value} (done : stateInSeconds state = .ok after) :
    after = variantInSeconds state := by
  unfold stateInSeconds at done
  split at done
  · split at done
    · rename_i nested said
      obtain ⟨seconds, made, same⟩ := Outcome.bind_eq_ok.mp done
      cases same
      rw [variantInSeconds, said, inSeconds_eq_ok made]
    · rename_i silent
      cases done
      rw [variantInSeconds, silent]
  · rename_i plain
    cases done
    cases state with
    | object fields => exact (plain fields rfl).elim
    | _ => rfl

theorem variantsInSeconds_eq_ok {variants after : Fields Value} (done : variantsInSeconds variants = .ok after) :
    after = variants.mapValues variantInSeconds := by
  induction variants generalizing after with
  | nil =>
    cases done
    rfl
  | cons field rest ih =>
    obtain ⟨name, state⟩ := field
    rw [variantsInSeconds] at done
    obtain ⟨here, first, remaining⟩ := Outcome.bind_eq_ok.mp done
    obtain ⟨later, others, same⟩ := Outcome.bind_eq_ok.mp remaining
    cases same
    rw [stateInSeconds_eq_ok first, ih others]
    rfl

/-- Phases with the transitions in their variants in seconds. -/
def Carrier.variantsInSeconds : Carrier → Fields Value → Fields Value
  | .directive, phases =>
    match phases.get? Phase.variants.name with
    | some (.object variants) => phases.set Phase.variants.name (.object (Fields.mapValues variantInSeconds variants))
    | _ => phases
  | .component, phases => phases

theorem Carrier.get?_variantsInSeconds (carrier : Carrier) (phases : Fields Value) {name : String}
    (away : name ≠ Phase.variants.name) : (carrier.variantsInSeconds phases).get? name = phases.get? name := by
  cases carrier with
  | component => rfl
  | directive =>
    rw [variantsInSeconds]
    split
    · rw [Fields.get?_set, if_neg away]
    · rfl

theorem Carrier.nodup_variantsInSeconds (carrier : Carrier) (named : phases.keys.Nodup) :
    (carrier.variantsInSeconds phases).keys.Nodup := by
  cases carrier with
  | component => exact named
  | directive =>
    rw [variantsInSeconds]
    split
    · exact Fields.nodup_set named _ _
    · exact named

/-- The times of the transition and of those in the variants are converted, and no other phase is touched. -/
theorem phasesInSeconds_eq_ok {carrier : Carrier} {after : Fields Value} {seconds : Value}
    (done : phasesInSeconds carrier phases transition = .ok (after, seconds)) :
    after = carrier.variantsInSeconds phases ∧ seconds = carrier.inSeconds transition := by
  cases carrier with
  | component =>
    cases done
    exact ⟨rfl, rfl⟩
  | directive =>
    obtain ⟨time, converted, rest⟩ := Outcome.bind_eq_ok.mp done
    have scaled := inSeconds_eq_ok converted
    cases declared : phases.get? Phase.variants.name with
    | none =>
      rw [declared] at rest
      cases rest
      exact ⟨by simp only [Carrier.variantsInSeconds, declared], scaled⟩
    | some value =>
      rw [declared] at rest
      cases value with
      | object variants =>
        obtain ⟨converted, each, same⟩ := Outcome.bind_eq_ok.mp rest
        cases same
        exact ⟨by simp only [Carrier.variantsInSeconds, declared, variantsInSeconds_eq_ok each], scaled⟩
      | _ =>
        cases rest
        exact ⟨by simp only [Carrier.variantsInSeconds, declared], scaled⟩

/-! ### The element -/

variable {carrier : Carrier} {motion lifted : Motion}

/-- The transition that an element keeps of its own and those in its states. -/
def kept (motion : Motion) : Value :=
  firstGiven ((motion.phase? .transition).getD .null) (liftOrder.filterMap (nested? motion.phases))

/-- The phases of an element with its states bared. -/
def bared (motion : Motion) : Fields Value :=
  (liftOrder.foldl liftFrom (motion.phases, (motion.phase? .transition).getD .null)).1

/-- Phases beside a transition, if one is given. -/
def withTransition (phases : Fields Value) : Value → Fields Value
  | .null => phases
  | transition => phases.set Phase.transition.name transition

theorem lift_eq_ok (done : lift carrier motion = .ok lifted) :
    lifted.phases = List.filter (!isIdle ·)
      (withTransition (carrier.variantsInSeconds (bared motion)) (carrier.inSeconds (kept motion).unguarded)) := by
  have same : liftOrder.foldl liftFrom (motion.phases, (motion.phase? .transition).getD .null) = (bared motion, kept motion) :=
    Prod.ext rfl (foldl_liftFrom (by decide)).2
  unfold lift at done
  dsimp only at done
  rw [show motion.phases.get? Phase.transition.name = motion.phase? .transition from rfl, same] at done
  obtain ⟨⟨phases, seconds⟩, converted, made⟩ := Outcome.bind_eq_ok.mp done
  obtain ⟨rfl, rfl⟩ := phasesInSeconds_eq_ok converted
  cases made
  dsimp only
  cases carrier.inSeconds (kept motion).unguarded <;> rfl

theorem nodup_withTransition (named : phases.keys.Nodup) (time : Value) : (withTransition phases time).keys.Nodup := by
  cases time with
  | null => exact named
  | _ => exact Fields.nodup_set named _ _

theorem get?_withTransition (phases : Fields Value) (time : Value) {name : String} (away : name ≠ Phase.transition.name) :
    (withTransition phases time).get? name = phases.get? name := by
  cases time with
  | null => rfl
  | _ => exact (Fields.get?_set ..).trans (if_neg away)

theorem nodup_lifted (carrier : Carrier) (named : motion.phases.keys.Nodup) :
    (withTransition (carrier.variantsInSeconds (bared motion)) (carrier.inSeconds (kept motion).unguarded)).keys.Nodup :=
  nodup_withTransition (carrier.nodup_variantsInSeconds (nodup_foldl_liftFrom named liftOrder)) _

/-- What becomes of a phase that is neither the transition nor the variants: a state is bared, and an idle one is gone. -/
theorem phase?_lift (named : motion.phases.keys.Nodup) (done : lift carrier motion = .ok lifted) {phase : Phase}
    (notTransition : phase ≠ .transition) (notVariants : phase ≠ .variants) :
    lifted.phase? phase = (if phase ∈ liftOrder then (motion.phase? phase).bind bared? else motion.phase? phase).filter
      fun value => !isIdle (phase.name, value) := by
  have away : phase.name ≠ Phase.transition.name := fun same => notTransition (Phase.name_injective same)
  have other : phase.name ≠ Phase.variants.name := fun same => notVariants (Phase.name_injective same)
  have states : (bared motion).get? phase.name =
      if phase ∈ liftOrder then (motion.phase? phase).bind bared? else motion.phase? phase := by
    rw [bared, (foldl_liftFrom (by decide)).1]
    simp only [List.mem_map_of_injective Phase.name_injective]
    rfl
  rw [Motion.phase?, lift_eq_ok done, Fields.get?_filter_of_nodup (nodup_lifted carrier named), get?_withTransition _ _ away,
    carrier.get?_variantsInSeconds _ other, states]

theorem ne_transition {phase : Phase} (isState : phase ∈ liftOrder) : phase ≠ .transition := by
  rintro rfl
  exact absurd isState (by decide)

theorem ne_variants {phase : Phase} (isState : phase ∈ liftOrder) : phase ≠ .variants := by
  rintro rfl
  exact absurd isState (by decide)

/-- None of the states of an element has a transition left. -/
theorem bare_of_lift (named : motion.phases.keys.Nodup) (done : lift carrier motion = .ok lifted) {phase : Phase}
    (isState : phase ∈ liftOrder) {state : Fields Value} (found : lifted.phase? phase = some (.object state)) :
    state.get? Phase.transition.name = none := by
  rw [phase?_lift named done (ne_transition isState) (ne_variants isState), if_pos isState] at found
  obtain ⟨made, -⟩ := Option.filter_eq_some_iff.mp found
  obtain ⟨value, -, bare⟩ := Option.bind_eq_some_iff.mp made
  exact get?_of_bared? bare

/-- Every other property of a state is left where it was. -/
theorem get?_of_lift (named : motion.phases.keys.Nodup) (done : lift carrier motion = .ok lifted) {phase : Phase}
    (isState : phase ∈ liftOrder) {state : Fields Value} (found : motion.phase? phase = some (.object state))
    {property : String} {value : Value} (away : property ≠ Phase.transition.name) (held : state.get? property = some value) :
    ∃ after : Fields Value, lifted.phase? phase = some (.object after) ∧ after.get? property = some value := by
  obtain ⟨after, bare, still⟩ := exists_bared? away held
  have busy : isIdle (phase.name, .object after) = false := by
    cases after with
    | nil => cases still
    | cons field rest => exact Bool.and_false _
  refine ⟨after, ?_, still⟩
  rw [phase?_lift named done (ne_transition isState) (ne_variants isState), if_pos isState, found, Option.bind_some, bare,
    Option.filter_some, busy, Bool.not_false, if_pos rfl]

/-- The transition of an element is the first that is given, in seconds. -/
theorem transition_of_lift (named : motion.phases.keys.Nodup) (done : lift carrier motion = .ok lifted)
    (given : (kept motion).unguarded ≠ .null) :
    lifted.phase? .transition = some (carrier.inSeconds (kept motion).unguarded) := by
  have written (time : Value) (some_ : time ≠ .null) :
      (withTransition (carrier.variantsInSeconds (bared motion)) time).get? Phase.transition.name = some time := by
    cases time with
    | null => exact absurd rfl some_
    | _ => exact (Fields.get?_set ..).trans (if_pos rfl)
  rw [Motion.phase?, lift_eq_ok done, Fields.get?_filter_of_nodup (nodup_lifted carrier named),
    written _ (carrier.inSeconds_ne_null given)]
  rfl

/-- The first state that says a transition has it kept, whatever later ones say. -/
theorem transition_of_first (named : motion.phases.keys.Nodup) (done : lift carrier motion = .ok lifted)
    (alone : (motion.phase? .transition).getD .null = .null) {before after : List Phase} {phase : Phase}
    (order : liftOrder = before ++ phase :: after) (silent : ∀ other ∈ before, nested? motion.phases other = none)
    {options : Fields Value} (said : nested? motion.phases phase = some (.object options)) :
    lifted.phase? .transition = some (carrier.inSeconds (.object options)) := by
  have nothing : before.filterMap (nested? motion.phases) = [] := List.filterMap_eq_nil_iff.mpr silent
  have same : kept motion = .object options := by
    rw [kept, alone, order, List.filterMap_append, nothing, List.nil_append, List.filterMap_cons, said]
    have given : Value.object options ≠ .null := nofun
    exact firstGiven_of_given given (after.filterMap (nested? motion.phases))
  rw [transition_of_lift named done (by rw [same]; nofun), same]
  rfl

/-- Where all transitions of an element agree, it keeps them as the one. -/
theorem transition_of_agree (named : motion.phases.keys.Nodup) (done : lift carrier motion = .ok lifted)
    {options : Fields Value}
    (agree : ∀ other ∈ (motion.phase? .transition).getD .null :: liftOrder.filterMap (nested? motion.phases),
      other ≠ .null → other = .object options)
    (given : ∃ other ∈ (motion.phase? .transition).getD .null :: liftOrder.filterMap (nested? motion.phases), other ≠ .null) :
    lifted.phase? .transition = some (carrier.inSeconds (.object options)) := by
  have same : kept motion = .object options := firstGiven_of_agree agree given
  rw [transition_of_lift named done (by rw [same]; nofun), same]
  rfl

/-- Of two that disagree, only the first is kept. -/
example : (lift .component { Motion.ofTag "div" with phases := [
      ("animate", .object [("x", .int 1), ("transition", .object [("duration", .int 1)])]),
      ("hover", .object [("scale", .int 2), ("transition", .object [("duration", .int 2)])])] }).map Motion.phases =
    .ok [("animate", .object [("x", .int 1)]), ("hover", .object [("scale", .int 2)]),
      ("transition", .object [("duration", .int 1)])] := rfl

/-- A time at any depth of the transition that a directive keeps is one in seconds. -/
theorem time_of_lift (named : motion.phases.keys.Nodup) (done : lift .directive motion = .ok lifted) {options : Value}
    (given : (kept motion).unguarded = options) (some_ : options ≠ .null) {path : List String} {name : String} {value : Value}
    (isTime : name ∈ Timing.keys) (found : options.unguarded.at? (path ++ [name]) = some value)
    (plain : value.isObject = false) :
    ∃ seconds, lifted.phase? .transition = some seconds ∧
      seconds.unguarded.at? (path ++ [name]) = some (Timing.seconds value) := by
  subst given
  exact ⟨_, transition_of_lift named done some_,
    Timing.at?_convert_of_time Timing.keepsPlain_seconds isTime found plain⟩

/-! ### The element of a template -/

variable {parse : Script.Parser}

theorem nodup_addAttribute {place : Location} {start read : Motion} {written : Template.Attribute} {said : List String}
    (named : start.phases.keys.Nodup) (done : addAttribute parse carrier place start written = .ok (read, said)) :
    read.phases.keys.Nodup := by
  unfold addAttribute at done
  dsimp only at done
  split at done
  · cases done
    exact named
  · obtain ⟨value, -, rest⟩ := Outcome.bind_eq_ok.mp done
    split at rest
    · cases rest
      exact Fields.nodup_set named _ _
    · cases rest
      exact Fields.nodup_set named _ _
    · split at rest <;> cases rest <;> exact named
  · obtain ⟨text, -, rest⟩ := Outcome.bind_eq_ok.mp done
    cases rest
    exact named
  · obtain ⟨value, -, rest⟩ := Outcome.bind_eq_ok.mp done
    cases rest
    exact named

theorem nodup_addAttributes {place : Location} {start read : Motion} {written : List Template.Attribute}
    {warnings said : List String} (named : start.phases.keys.Nodup)
    (done : addAttributes parse carrier place start warnings written = .ok (read, said)) : read.phases.keys.Nodup := by
  induction written generalizing start warnings with
  | nil =>
    cases done
    exact named
  | cons first rest ih =>
    rw [addAttributes] at done
    obtain ⟨result, one, later⟩ := Outcome.bind_eq_ok.mp done
    exact ih (nodup_addAttribute named one) later

/-- The motion of an element of a template before its attributes are read. -/
def started (index : LineIndex) (node : TemplateNode) : Motion :=
  { Motion.ofTag (renderedTag node.tag) with location? := some (index.location node.start) }

/-- An animated element is what its attributes say, lifted. What is said about it is said about its attributes: nothing is
said about transitions that are lost. -/
theorem motion_eq_ok {index : LineIndex} {node : TemplateNode} {found : Motion} {warnings : List String}
    (done : TemplateMotion.motion parse index node = .ok (some found, warnings)) :
    ∃ carrier read lifted, carrier? node = some carrier ∧
      addAttributes parse carrier (index.location node.start) (started index node) [] node.attributes = .ok (read, warnings) ∧
      read.phases.keys.Nodup ∧ lift carrier read = .ok lifted ∧ found.phases = lifted.phases := by
  unfold TemplateMotion.motion at done
  cases carried : carrier? node with
  | none =>
    rw [carried] at done
    cases done
  | some carrier =>
    simp only [carried] at done
    obtain ⟨⟨read, said⟩, all, rest⟩ := Outcome.bind_eq_ok.mp done
    obtain ⟨lifted, up, made⟩ := Outcome.bind_eq_ok.mp rest
    have fresh : (started index node).phases.keys.Nodup := List.nodup_nil
    split at made
    · cases made
    · cases made
      exact ⟨carrier, read, lifted, rfl, all, nodup_addAttributes fresh all, up, rfl⟩

/-- No state of an element that was read from a template has a transition of its own, but for a drag. -/
theorem bare_of_motion {index : LineIndex} {node : TemplateNode} {found : Motion} {warnings : List String}
    (done : TemplateMotion.motion parse index node = .ok (some found, warnings)) {phase : Phase} (isState : phase ∈ liftOrder)
    {state : Fields Value} (set_ : found.phase? phase = some (.object state)) : state.get? Phase.transition.name = none := by
  obtain ⟨carrier, read, lifted, -, -, named, up, same⟩ := motion_eq_ok done
  refine bare_of_lift named up isState ?_
  rwa [Motion.phase?, ← same]

end TemplateMotion

end AnimationCode
