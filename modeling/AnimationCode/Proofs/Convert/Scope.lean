/-
**Labels and where they hold.**

A label stands for what the variants of an element say under its name. An element without a label of its own for a state
takes that of the nearest element around it which has one. The labels that are handed down from element to element, so that
a component may become calls, are those that are found by looking outward from each.

* `Element.lineages`: the motions of an element, each with those around it;
* `Labels.inScope?`: the label that holds in an element for a state;
* `Labels.get?_within`: the labels handed down are those found by looking outward;
* `Labels.motions_resolveEach`: every motion is resolved by the labels found so;
* `Labels.phase?_resolve`: what becomes of a state where there are variants;
* `Component.resolves_revise`: what a component that becomes calls has of its labels.
-/

import AnimationCode.Proofs.Convert.Labels
import AnimationCode.Proofs.Convert.Markup
import AnimationCode.Proofs.Revision

namespace AnimationCode

/-! ### The elements around an element -/

namespace Element

mutual

/-- The motions of an element and of all inside it, parents first, each with those around it from the nearest outward. -/
def lineages (around : List Motion) : Element → List (List Motion × Motion)
  | ⟨own, children⟩ => (around, own) :: lineagesEach (own :: around) children

/-- The motions of several elements, each with those around it. -/
def lineagesEach (around : List Motion) : List Element → List (List Motion × Motion)
  | [] => []
  | element :: rest => lineages around element ++ lineagesEach around rest

end

mutual

/-- Without those around them, they are the motions in document order. -/
theorem map_snd_lineages (around : List Motion) : (element : Element) →
    (lineages around element).map Prod.snd = motions element
  | ⟨own, children⟩ => by rw [lineages, motions, List.map_cons, map_snd_lineagesEach (own :: around) children]

theorem map_snd_lineagesEach (around : List Motion) : (elements : List Element) →
    (lineagesEach around elements).map Prod.snd = motionsEach elements
  | [] => rfl
  | element :: rest => by
    rw [lineagesEach, motionsEach, List.map_append, map_snd_lineages around element, map_snd_lineagesEach around rest]

end

end Element

/-- The motions of a forest in document order, each with those around it from the nearest outward. -/
def Forest.lineages (forest : Forest) : List (List Motion × Motion) := Element.lineagesEach [] forest

/-! ### Labels in scope -/

namespace Labels

variable {motion : Motion} {labels variants : Fields Value} {phase : Phase}

/-- The label that the elements around give a state: that of the nearest which names one. -/
def inherited? (around : List Motion) (phase : Phase) : Option Value :=
  around.findSome? fun outer => (outer.phase? phase).filter fun value => !value.isObject

/-- The label that holds in an element for a state that it does not write out: its own, or else an inherited one. -/
def inScope? (around : List Motion) (own : Motion) (phase : Phase) : Option Value :=
  (own.phase? phase).or (inherited? around phase)

/-- The labels that are handed down to an element from those around it. -/
def within (around : List Motion) : Fields Value := around.foldr (fun outer inherited => scope inherited outer) []

theorem areOfStates_within (around : List Motion) : AreOfStates (within around) := by
  induction around with
  | nil => exact areOfStates_nil
  | cons outer rest ih => exact areOfStates_scope ih outer

theorem nodup_within (around : List Motion) : (within around).keys.Nodup := by
  induction around with
  | nil => exact List.nodup_nil
  | cons outer rest ih =>
    rw [within, List.foldr_cons, scope, Fields.keys_update]
    exact nodup_tellAll ih _

/-- What is handed down is what is found by looking outward. -/
theorem get?_within (around : List Motion) (state : phase ∈ Phase.states) :
    (within around).get? phase.name = inherited? around phase := by
  induction around with
  | nil => rfl
  | cons outer rest ih =>
    rw [within, List.foldr_cons, get?_scope _ outer state, inherited?, List.findSome?_cons]
    change Option.or _ ((within rest).get? phase.name) = _
    rw [ih]
    cases (outer.phase? phase).filter fun value => !value.isObject with
    | none => rfl
    | some label => rfl

/-- In an element that does not write a state out, its label is the one in scope. -/
theorem get?_within_cons (around : List Motion) (own : Motion) (state : phase ∈ Phase.states)
    (label : (own.phase? phase).any Value.isObject = false) :
    (within (own :: around)).get? phase.name = inScope? around own phase := by
  rw [get?_within _ state, inherited?, List.findSome?_cons, inScope?]
  cases found : own.phase? phase with
  | none => rfl
  | some value =>
    rw [found, Option.any_some] at label
    rw [Option.filter_some, label]
    rfl

mutual

/-- Every motion in an element is resolved by the labels found looking outward from it. -/
theorem motions_resolveElement (around : List Motion) : (element : Element) →
    (resolveElement (within around) element).1.motions =
      (Element.lineages around element).map fun place => (resolve (within (place.2 :: place.1)) place.2).1
  | ⟨own, children⟩ => by
    have inside := motions_resolveEach (own :: around) children
    rw [resolveElement, Element.lineages, List.map_cons, ← inside]
    rfl

theorem motions_resolveEach (around : List Motion) : (elements : List Element) →
    Element.motionsEach (resolveEach (within around) elements).1 =
      (Element.lineagesEach around elements).map fun place => (resolve (within (place.2 :: place.1)) place.2).1
  | [] => rfl
  | element :: rest => by
    rw [resolveEach, Element.lineagesEach, List.map_append, ← motions_resolveElement around element,
      ← motions_resolveEach around rest]
    rfl

end

/-! ### One motion -/

/-- The properties that a label stands for: those of the variants that it names, a later one over an earlier one. -/
def union (variants : Fields Value) (label : Value) : Fields Value :=
  Fields.ofPairs ((names label).filterMap (lookUp variants)).flatten

theorem merged_eq (variants : Fields Value) (label : Value) : merged variants (names label) = union variants label :=
  Fields.foldl_update [] _

/-- What a label makes of a state: nothing if it stands for no properties. -/
def made? (variants : Fields Value) (label : Value) : Option Value :=
  if (union variants label).isEmpty then none
  else some (.object (Fields.erase (union variants label) Phase.transition.name))

theorem phase?_setResolved (variants : Fields Value) (motion : Motion) (name : String) (label : Value)
    (state : phase ∈ Phase.states) : (setResolved variants motion name label).phase? phase =
      ((if phase.name = name then made? variants label else none).or (motion.phase? phase)) := by
  unfold setResolved made?
  dsimp only
  rw [merged_eq]
  by_cases empty : (union variants label).isEmpty = true
  · rw [if_pos empty, if_pos empty, ite_self, Option.none_or]
  · rw [if_neg empty, if_neg empty, Motion.phase?, Fields.get?_set]
    by_cases here : phase.name = name
    · rw [if_pos here, if_pos here]
      rfl
    · rw [if_neg here, if_neg here, Option.none_or]
      split
      · rw [Fields.get?_setNew, if_neg (Phase.name_ne_transition state), Option.or_none]
        rfl
      · rfl

/-- Labels of different states are resolved each on its own. -/
theorem phase?_foldl (variants : Fields Value) (state : phase ∈ Phase.states) {wanted : Fields Value} :
    ∀ {motion : Motion}, wanted.keys.Nodup →
      (wanted.foldl (fun acc (name, label) => setResolved variants acc name label) motion).phase? phase =
        ((wanted.get? phase.name).bind (made? variants)).or (motion.phase? phase) := by
  induction wanted with
  | nil => exact fun _ => rfl
  | cons pair rest ih =>
    intro motion once
    obtain ⟨name, label⟩ := pair
    -- the labels that follow are of other states, so what this one makes of its state is left alone
    obtain ⟨fresh, later⟩ := List.nodup_cons.mp once
    rw [List.foldl_cons, ih later, phase?_setResolved variants motion name label state, Fields.get?_cons]
    by_cases here : phase.name = name
    · rw [if_pos here, if_pos here, Fields.get?_eq_none_iff.mpr (here ▸ fresh)]
      rfl
    · rw [if_neg here, if_neg here, Option.none_or]

/-- A transition of its own stays. -/
theorem transition_foldl (variants : Fields Value) {wanted : Fields Value} {own : Value} :
    ∀ {motion : Motion}, AreOfStates wanted → motion.phase? .transition = some own →
      (wanted.foldl (fun acc (name, label) => setResolved variants acc name label) motion).phase? .transition = some own := by
  induction wanted with
  | nil => exact fun _ => id
  | cons pair rest ih =>
    intro motion states found
    obtain ⟨name, label⟩ := pair
    have noState : Phase.transition.name ∉ Phase.stateNames := by decide
    have away : Phase.transition.name ≠ name := fun same => noState (same ▸ states name List.mem_cons_self)
    refine ih (fun other member => states other (List.mem_cons_of_mem _ member)) ?_
    unfold setResolved
    dsimp only
    split
    · exact found
    · rw [Motion.phase?, Fields.get?_set, if_neg away]
      split
      · rw [Fields.get?_setNew, show motion.phases.get? Phase.transition.name = some own from found]
        rfl
      · exact found

theorem get?_toResolve (labels : Fields Value) (motion : Motion) (phase : Phase) :
    (toResolve labels motion).get? phase.name =
      if (motion.phase? phase).any Value.isObject then none else labels.get? phase.name := by
  have kept := Fields.get?_filter labels (fun name => !((motion.phases.get? name).any Value.isObject)) phase.name
  refine kept.trans ?_
  change (if (!(motion.phase? phase).any Value.isObject) = true then _ else _) = _
  cases (motion.phase? phase).any Value.isObject <;> rfl

/-- What becomes of a state where there are variants: what its label makes of it, unless it is written out. -/
theorem phase?_resolve {declared : Value} (known : motion.phase? .variants = some declared) (once : labels.keys.Nodup)
    (state : phase ∈ Phase.states) : (resolve labels motion).1.phase? phase =
      ((if (motion.phase? phase).any Value.isObject then none else labels.get? phase.name).bind
        (made? (declared.fields?.getD []))).or (motion.phase? phase) := by
  have wanted : (toResolve labels motion).keys.Nodup := once.sublist (List.filter_sublist.map Prod.fst)
  unfold resolve
  rw [show motion.phases.get? Phase.variants.name = some declared from known]
  dsimp only
  rw [Motion.phase?, Fields.get?_erase, if_neg (Phase.name_ne_variants state), ← get?_toResolve]
  exact phase?_foldl _ state wanted

/-- A transition is not replaced by one that labels bring along. -/
theorem transition_resolve {own : Value} (states : AreOfStates labels) (found : motion.phase? .transition = some own) :
    (resolve labels motion).1.phase? .transition = some own := by
  unfold resolve
  split
  · have wanted : AreOfStates (toResolve labels motion) := fun name member => by
      obtain ⟨field, kept, rfl⟩ := List.mem_map.mp member
      exact states field.1 (List.mem_map_of_mem (List.mem_filter.mp kept).1)
    dsimp only
    rw [Motion.phase?, Fields.get?_erase, if_neg (by decide)]
    exact transition_foldl _ wanted found
  · split
    · exact found
    · exact Fields.get?_filter_of_get? found (by rw [Bool.or_eq_true]; exact .inr (by decide))

/-- No variants are left. -/
theorem variants_resolve (labels : Fields Value) (motion : Motion) : (resolve labels motion).1.phase? .variants = none := by
  unfold resolve
  split
  · exact (Fields.get?_erase ..).trans (if_pos rfl)
  · rename_i absent
    split
    · exact absent
    · rw [Motion.phase?, Fields.get?_eq_none_iff]
      rw [Fields.get?_eq_none_iff] at absent
      exact fun member => absent ((List.filter_sublist.map Prod.fst).subset member)

/-- Without variants, no label is left in a state, and what is written out stays. -/
theorem phase?_resolve_of_undeclared (undeclared : motion.phase? .variants = none) (state : phase ∈ Phase.states) :
    (∀ value, (resolve labels motion).1.phase? phase = some value → value.isObject = true) ∧
      ∀ fields, motion.phase? phase = some (.object fields) →
        (resolve labels motion).1.phase? phase = some (.object fields) := by
  unfold resolve
  rw [show motion.phases.get? Phase.variants.name = none from undeclared]
  dsimp only
  split
  · rename_i written
    exact ⟨fun value found => List.all_eq_true.mp written _ (mem_ownPhases state found), fun _ => id⟩
  · refine ⟨fun value found => ?_, fun fields found => Fields.get?_filter_of_get? found rfl⟩
    have listed : Phase.stateNames.contains phase.name = true := List.contains_iff_mem.mpr (List.mem_map_of_mem state)
    have kept := (List.mem_filter.mp (Fields.mem_of_get? found)).2
    rwa [listed, Bool.not_true, Bool.or_false] at kept

end Labels

/-! ### Transitions after the delays -/

namespace Stagger

variable {outer : Option (Stagger × Nat)} {own delayed : Motion} {value : Value}

/-- A transition that is another one, or options of which all but the delay are from it. The delay may be one more that is
reckoned on top of its own. -/
def StemsFrom (own value : Value) : Prop :=
  value = own ∨ ∃ options, value = .object options ∧ ∀ name said, Fields.get? options name = some said →
    (own.unguarded.fields?.bind fun fields => fields.get? name) = some said ∨
      name = "delay" ∧ ∃ (stagger : Stagger) (steps : Nat) (delay : Quantity),
        stagger.delay? (ownDelay (own.fields?.getD [])) steps = some delay ∧ said = Value.ofQuantity delay

/-- A child that is delayed has a transition that stems from its own. -/
theorem stemsFrom_receive (found : own.phase? .transition = some value) (received : receive outer own = .ok delayed) :
    ∃ later, delayed.phase? .transition = some later ∧ StemsFrom value later := by
  cases outer with
  | none =>
    cases received
    exact ⟨value, found, .inl rfl⟩
  | some given =>
    obtain ⟨delay, reckoned, rfl⟩ := exists_delay_of_delayed received
    have plain : plainOptions own = value.fields?.getD [] := by
      rw [plainOptions, found]
      rfl
    rw [plain] at reckoned ⊢
    refine ⟨_, (Fields.get?_set ..).trans (if_pos rfl), .inr ⟨_, rfl, fun name said here => ?_⟩⟩
    rw [Fields.get?_set] at here
    split at here
    · rename_i named
      cases here
      exact .inr ⟨named, given.1, given.2, delay, reckoned, rfl⟩
    · cases value with
      | object options => exact .inl here
      | _ => cases here

/-- What is left of options stems from the same. -/
theorem StemsFrom.withoutKeys {later last : Value} (stems : StemsFrom value later) (found : own.phase? .transition = some later)
    (left_ : (withoutKeys own).phase? .transition = some last) : StemsFrom value last := by
  unfold Stagger.withoutKeys at left_
  dsimp only at left_
  split at left_
  · rw [Motion.phase?, Fields.get?_erase, if_pos rfl] at left_
    cases left_
  · rw [Motion.phase?, Fields.get?_set, if_pos rfl] at left_
    cases left_
    refine .inr ⟨_, rfl, fun name said here => ?_⟩
    have kept := (Fields.get?_filter ((optionsOf own).getD []) (fun key => !keys.contains key) name).symm.trans here
    split at kept
    · have options : optionsOf own = later.unguarded.fields? := by
        rw [optionsOf, found]
        rfl
      rw [options] at kept
      -- if the transition is the one before, its options may be guarded; if not, they are plain
      rcases stems with rfl | ⟨fields, rfl, each⟩
      · left
        cases known : later.unguarded.fields? with
        | none =>
          rw [known] at kept
          cases kept
        | some fields =>
          rw [known] at kept
          exact kept
      · exact each name said kept
    · cases kept

/-- What writing out delays leaves of a motion: its states, and a transition that stems from its own. -/
structure Keeps (before after : Motion) : Prop where
  states : ∀ phase : Phase, phase ≠ .transition → after.phase? phase = before.phase? phase
  transition : ∀ own, before.phase? .transition = some own → ∀ value, after.phase? .transition = some value →
    StemsFrom own value

theorem keeps_settle (received : receive outer own = .ok delayed) (children : List Element) :
    Keeps own (settle delayed children) := by
  refine ⟨fun phase away => ?_, fun value found last left_ => ?_⟩
  · exact (staggered_settle received children).differs.get?_eq fun same => away (Phase.name_injective same)
  · obtain ⟨later, there, stems⟩ := stemsFrom_receive found received
    unfold settle at left_
    split at left_
    · exact stems.withoutKeys there left_
    · cases there.symm.trans left_
      exact stems

end Stagger

/-! ### Whole components -/

/-- What a motion has of its labels once it becomes calls, given those around it. Nothing names variants any more; what was
written out stays; a state with a label in scope gets the properties that it stands for; and a transition of its own is not
replaced. -/
structure Labels.Resolves (around : List Motion) (before after : Motion) : Prop where
  variants : after.hasPhase .variants = false
  written : ∀ phase ∈ Phase.states, ∀ fields, before.phase? phase = some (.object fields) →
    after.phase? phase = some (.object fields)
  resolved : ∀ variants, before.phase? .variants = some (.object variants) → ∀ phase ∈ Phase.states,
    (before.phase? phase).any Value.isObject = false → ∀ label, inScope? around before phase = some label →
      union variants label ≠ [] →
        after.phase? phase = some (.object (Fields.erase (union variants label) Phase.transition.name))
  transition : ∀ own, before.phase? .transition = some own → ∀ value, after.phase? .transition = some value →
    Stagger.StemsFrom own value
  undeclared : before.hasPhase .variants = false → ∀ phase ∈ Phase.states, ∀ value, after.phase? phase = some value →
    value.isObject = true

theorem Labels.resolves_of_keeps {around : List Motion} {before after : Motion}
    (keeps : Stagger.Keeps (resolve (within (before :: around)) before).1 after) : Resolves around before after where
  variants := by
    rw [Motion.hasPhase, Fields.has]
    change (after.phase? .variants).isSome = false
    rw [keeps.states _ (by decide), variants_resolve]
    rfl
  written := by
    intro phase state fields found
    have away : phase ≠ .transition := fun same => Phase.name_ne_transition state (congrArg Phase.name same)
    rw [keeps.states phase away]
    cases known : before.phase? .variants with
    | none => exact (phase?_resolve_of_undeclared known state).2 fields found
    | some declared =>
      rw [phase?_resolve known (nodup_within _) state, found]
      rfl
  resolved := by
    intro variants known phase state open_ label held some_
    have away : phase ≠ .transition := fun same => Phase.name_ne_transition state (congrArg Phase.name same)
    have made : made? variants label = some (.object (Fields.erase (union variants label) Phase.transition.name)) := by
      rw [made?, if_neg (by simpa using some_)]
    rw [keeps.states phase away, phase?_resolve known (nodup_within _) state, open_, get?_within_cons around before state open_,
      held]
    change (made? variants label).or _ = _
    rw [made]
    rfl
  transition := fun own found => keeps.transition own (transition_resolve (areOfStates_within _) found)
  undeclared := by
    intro silent phase state value found
    have away : phase ≠ .transition := fun same => Phase.name_ne_transition state (congrArg Phase.name same)
    have none_ : before.phase? .variants = none := by
      rwa [Motion.hasPhase, Fields.has, Option.isSome_eq_false_iff, Option.isNone_iff_eq_none] at silent
    rw [keeps.states phase away] at found
    exact (phase?_resolve_of_undeclared none_ state).1 value found

namespace Component

variable {component converted revised : Component} {account told : Account} {context : Context} {thresholds : Fields Value}

/-- Calls have no spelling of their own for any phase. -/
theorem spelled_js (forest : Forest) : spelled .js forest = forest := by
  refine Forest.map_eq_self fun motion _ => ?_
  have unspelled (name : String) : Phase.respelling? name .js = none := by
    unfold Phase.respelling?
    split <;> rfl
  have one (name : String) : (Convert.respell .js motion name).1 = motion := by
    unfold Convert.respell
    rw [unspelled]
    split <;> rfl
  have all (names : List String) : (Convert.respellAll .js names motion).1 = motion := by
    induction names with
    | nil => rfl
    | cons name rest ih => rw [Convert.respellAll_cons, one, ih]
  exact all motion.phases.keys

theorem resolves_convert (done : component.convert .js account = .ok (converted, told)) :
    List.Forall₂ (fun place after => Labels.Resolves place.1 place.2 after) component.elements.lineages
      converted.elements.motions := by
  obtain ⟨staggered, noted, expanded, carried_, -⟩ := convert_eq_ok done
  have labelled_ : (labelled .js component.elements).motions = component.elements.lineages.map fun place =>
      (Labels.resolve (Labels.within (place.2 :: place.1)) place.2).1 := by
    rw [labelled, spelled_js]
    exact Labels.motions_resolveEach [] component.elements
  have delayed : Forest.Pairs (fun _ => Stagger.Keeps) (labelled .js component.elements) staggered := by
    rcases expandStagger_eq_ok expanded with ⟨-, found, result, -⟩ | ⟨other, -, -⟩
    · exact Stagger.pairs_expandForest (fun _ _ _ _ children _ received => Stagger.keeps_settle received children) result
    · exact absurd (.inr rfl) other
  have carriedOver : Forest.Pairs (fun _ own after => after = { own with attributes := after.attributes }) staggered
      converted.elements := by
    rw [carried_]
    exact Forest.pairs_map fun motion _ => carryOver_fst .js component.bindings motion
  have kept : Forest.Pairs (fun _ => Stagger.Keeps) (labelled .js component.elements) converted.elements := by
    refine delayed.after carriedOver fun _ own middle last keeps attributes => ?_
    rw [attributes]
    exact ⟨keeps.states, keeps.transition⟩
  have motions := kept.forall₂_motions
  rw [labelled_, List.forall₂_map_left_iff] at motions
  exact motions.imp fun _ _ => Labels.resolves_of_keeps

/-- **A label stands for what it names in the nearest scope.** A component that becomes calls, without being optimized, has
in every element the states that its labels stand for there. -/
theorem resolves_revise (away : component.framework ≠ .js) (calls : context.framework = .js)
    (plain : context.focus = Focus.none) (done : component.revise account context thresholds = .ok (revised, told)) :
    List.Forall₂ (fun place after => Labels.Resolves place.1 place.2 after) component.elements.lineages
      revised.elements.motions := by
  obtain ⟨middle, between, optimized, ⟨stay, -⟩ | ⟨-, converted, result, rfl⟩⟩ := revise_eq_ok done
  · exact absurd (stay.symm.trans calls) away
  · rw [plain, optimize_none] at optimized
    cases optimized
    rw [calls] at result
    have resolves := resolves_convert result
    exact resolves

/-- A component of two elements, the inner of which follows the label of the outer one. -/
def following : Component :=
  Component.ofForest .react false "Box"
    [⟨{ Motion.ofTag "ul" with
        phases := [("animate", .text "show"), ("variants", .object [("show", .object [("opacity", .int 1)])])] },
      [⟨{ Motion.ofTag "li" with
          phases := [("initial", .object [("x", .int 9)]), ("transition", .object [("duration", .int 1)]),
            ("variants", .object [("show", .object [("x", .int 0), ("transition", .object [("duration", .int 2)])])])] },
        []⟩]⟩]

/-- The inner element gets what the label stands for among its own variants, and keeps its transition. -/
theorem resolves_revise_following : ∃ revised told,
    following.revise (Account.start .react) ⟨.js, false, "Box", Focus.none⟩ [] = .ok (revised, told) ∧
    revised.elements.motions.map Motion.phases = [
      [("animate", .object [("opacity", .int 1)])],
      [("initial", .object [("x", .int 9)]), ("transition", .object [("duration", .int 1)]),
        ("animate", .object [("x", .int 0)])]] ∧
    List.Forall₂ (fun place after => Labels.Resolves place.1 place.2 after) following.elements.lineages
      revised.elements.motions :=
  ⟨_, _, rfl, rfl, @resolves_revise following _ (Account.start .react) _ ⟨.js, false, "Box", Focus.none⟩ [] (by decide)
    rfl rfl rfl⟩

end Component

end AnimationCode
