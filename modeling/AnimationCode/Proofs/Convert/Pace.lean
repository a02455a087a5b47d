/-
**The pace of animations under a conversion.**

A conversion moves transitions, merges them into that of the element and writes delays into them, and it leaves some out.
How often an animation repeats and how long it takes stays as it was: every pass brings no pace that was not there before.

* `Motion.KeepsPace`: no transition repeats at a pace that is new;
* `Labels.keepsPace_resolve`: a transition that a label brings along was one of its variant;
* `Stagger.keepsPace_settle`: delays are written into a transition that was there, or into one that does not repeat;
* `Component.keepsPace_convert`: a whole conversion.
-/

import AnimationCode.Proofs.Convert.Labels
import AnimationCode.Proofs.Element.States

namespace AnimationCode

namespace Fields

variable {α : Type}

/-- What stands in fields written one list after another stood in one of the lists. -/
theorem mem_of_get?_foldl_update {extras : List (Fields α)} {fields : Fields α} {name : String} {value : α}
    (found : (extras.foldl update fields).get? name = some value) :
    fields.get? name = some value ∨ ∃ extra ∈ extras, (name, value) ∈ extra := by
  induction extras generalizing fields with
  | nil => exact .inl found
  | cons extra rest ih =>
    rcases ih found with here | ⟨later, member, inside⟩
    · rw [get?_update] at here
      rcases Option.or_eq_some_iff.mp here with written | ⟨-, before⟩
      · exact .inr ⟨extra, List.mem_cons_self, List.mem_reverse.mp (mem_of_get? written)⟩
      · exact .inl before
    · exact .inr ⟨later, List.mem_cons_of_mem _ member, inside⟩

end Fields

/-- Options under which an animation repeats as often as under others, each time within the same seconds. -/
structure Transition.SamePace (options others : Fields Value) : Prop where
  repeats : others.get? "repeat" = options.get? "repeat"
  lasts : others.get? "duration" = options.get? "duration"

namespace Motion

variable {before middle after : Motion}

/-- A motion whose transitions do not repeat, or do so as some did before. -/
structure KeepsPace (before after : Motion) : Prop where
  mark : after.reducedMotion = before.reducedMotion
  transitions : ∀ options, after.HasTransition options →
    options.get? "repeat" = none ∨ ∃ others, before.HasTransition others ∧ Transition.SamePace others options

theorem KeepsPace.of_hasTransition (mark : after.reducedMotion = before.reducedMotion)
    (within : ∀ options, after.HasTransition options → before.HasTransition options) : before.KeepsPace after :=
  ⟨mark, fun options has => .inr ⟨options, within options has, rfl, rfl⟩⟩

theorem KeepsPace.refl (motion : Motion) : motion.KeepsPace motion := .of_hasTransition rfl fun _ => id

theorem KeepsPace.trans (earlier : before.KeepsPace middle) (later : middle.KeepsPace after) : before.KeepsPace after := by
  refine ⟨later.mark.trans earlier.mark, fun options has => ?_⟩
  rcases later.transitions options has with silent | ⟨others, halfway, same⟩
  · exact .inl silent
  · rcases earlier.transitions others halfway with silent | ⟨first, start, paced⟩
    · exact .inl (same.repeats.trans silent)
    · exact .inr ⟨first, start, same.repeats.trans paced.repeats, same.lasts.trans paced.lasts⟩

/-- Another spelling of phases that only some frameworks know. -/
theorem Respelled.keepsPace (respelled : before.Respelled after) : before.KeepsPace after := by
  refine .of_hasTransition ?_ fun options has => has.within fun phase value found => ?_
  · rw [respelled.same]
  · rwa [respelled.shared] at found

theorem Respelled.isNamedOnce (respelled : before.Respelled after) (named : before.IsNamedOnce) : after.IsNamedOnce := by
  refine named.within respelled.named fun phase value _ found => ?_
  rwa [respelled.shared] at found

end Motion

/-! ### Labels -/

namespace Labels

variable {motion : Motion} {inherited labels variants : Fields Value}

/-- A transition that labels stand for is that of a variant. -/
theorem hasTransition_of_merged {declared : Value} {names : List Value} {options : Fields Value} (named : motion.IsNamedOnce)
    (known : motion.phase? .variants = some declared)
    (found : (merged (declared.fields?.getD []) names).get? Phase.transition.name = some (.object options)) :
    motion.HasTransition options := by
  rcases Fields.mem_of_get?_foldl_update found with nothing | ⟨state, member, inside⟩
  · cases nothing
  · obtain ⟨label, -, looked⟩ := List.mem_filterMap.mp member
    obtain ⟨value, named_, written⟩ := Option.bind_eq_some_iff.mp looked
    obtain ⟨name, -, declared_⟩ := Option.bind_eq_some_iff.mp named_
    cases Value.fields?_eq_some_iff.mp written
    cases declared with
    | object variants =>
      have has : motion.HasState state := .variant known (Fields.mem_of_get? declared_)
      exact .nested has (Fields.get?_of_count_le_one (named.states state has) inside)
    | _ => cases declared_

/-- What becomes of a motion while its labels are resolved: its states are its own or say no transition, and its
transition is its own or that of a variant. -/
structure Gathers (motion after : Motion) : Prop where
  mark : after.reducedMotion = motion.reducedMotion
  states : ∀ phase ∈ Phase.states, ∀ state : Fields Value, after.phase? phase = some (.object state) →
    motion.phase? phase = some (.object state) ∨ state.get? Phase.transition.name = none
  transition : ∀ options value, after.phase? .transition = some value → value.unguarded = .object options →
    motion.HasTransition options

theorem Gathers.refl (motion : Motion) : Gathers motion motion := ⟨rfl, fun _ _ _ => .inl, fun _ _ => .own⟩

/-- One more label is resolved. -/
theorem Gathers.setResolved {declared label : Value} {after : Motion} {name : String} (named : motion.IsNamedOnce)
    (known : motion.phase? .variants = some declared) (state : name ∈ Phase.stateNames) (gathers : Gathers motion after) :
    Gathers motion (setResolved (declared.fields?.getD []) after name label) := by
  have away : Phase.transition.name ≠ name := by
    rintro rfl
    exact absurd state (by decide)
  unfold Labels.setResolved
  dsimp only
  split
  · exact gathers
  · refine ⟨gathers.mark, fun phase isState fields found => ?_, fun options value found written => ?_⟩
    · rw [Motion.phase?, Fields.get?_set] at found
      split at found
      · cases found
        right
        rw [Fields.get?_erase, if_pos rfl]
      · refine gathers.states phase isState fields ?_
        split at found
        · rw [Fields.get?_setNew, if_neg (Phase.name_ne_transition isState), Option.or_none] at found
          exact found
        · exact found
    · rw [Motion.phase?, Fields.get?_set, if_neg away] at found
      split at found
      · rename_i brought meets
        rw [Fields.get?_setNew, if_pos rfl] at found
        rcases Option.or_eq_some_iff.mp found with here | ⟨-, new⟩
        · exact gathers.transition options value here written
        · cases new
          cases written
          exact hasTransition_of_merged named known meets
      · exact gathers.transition options value found written

/-- Without the variants, no transition is new. -/
theorem Gathers.hasTransition {after : Motion} {options : Fields Value} (gathers : Gathers motion after)
    (has : Motion.HasTransition { after with phases := after.phases.erase Phase.variants.name } options) :
    motion.HasTransition options := by
  have kept {phase : Phase} {value : Value} (away : phase.name ≠ Phase.variants.name)
      (found : Motion.phase? { after with phases := after.phases.erase Phase.variants.name } phase = some value) :
      after.phase? phase = some value := by
    rwa [Motion.phase?, Fields.get?_erase, if_neg away] at found
  cases has with
  | own found written => exact gathers.transition _ _ (kept (by decide) found) written
  | nested inside said =>
    cases inside with
    | phase isState found =>
      rcases gathers.states _ isState _ (kept (Phase.name_ne_variants isState) found) with own | silent
      · exact .nested (.phase isState own) said
      · rw [silent] at said
        cases said
    | variant found member =>
      rw [Motion.phase?, Fields.get?_erase, if_pos rfl] at found
      cases found

theorem gathers_foldl {declared : Value} (named : motion.IsNamedOnce) (known : motion.phase? .variants = some declared)
    {wanted : Fields Value} (states : AreOfStates wanted) :
    Gathers motion (wanted.foldl (fun acc (phase, label) => setResolved (declared.fields?.getD []) acc phase label) motion) := by
  induction wanted using List.reverseRecOn with
  | nil => exact .refl motion
  | append_singleton before pair ih =>
    rw [List.foldl_append]
    have earlier : AreOfStates before := fun name member => states name (by simp [Fields.keys] at member ⊢; tauto)
    exact (ih earlier).setResolved named known (states pair.1 (by simp [Fields.keys]))

/-- No transition is new to a motion whose labels were resolved. -/
theorem keepsPace_resolve (named : motion.IsNamedOnce) (states : AreOfStates labels) :
    motion.KeepsPace (resolve labels motion).1 := by
  unfold resolve
  cases declared_ : motion.phases.get? Phase.variants.name with
  | none =>
    dsimp only
    split
    · exact .refl motion
    · -- Some phases are left out. A name that occurs twice would now mean another phase.
      refine .of_hasTransition rfl fun options has => has.within fun phase value found => ?_
      exact Fields.get?_of_mem named.phases (List.mem_filter.mp (Fields.mem_of_get? found)).1
  | some declared =>
    have wanted : AreOfStates (toResolve labels motion) := fun name member => by
      obtain ⟨field, kept, rfl⟩ := List.mem_map.mp member
      exact states field.1 (List.mem_map_of_mem (List.mem_filter.mp kept).1)
    have gathers := gathers_foldl named declared_ wanted
    exact .of_hasTransition gathers.mark fun options => gathers.hasTransition

mutual

theorem pairs_keepsPace_resolveElement {inherited : Fields Value} (states : AreOfStates inherited) (around : Option Motion) :
    (element : Element) → (∀ motion ∈ element.motions, motion.IsNamedOnce) →
    Element.Pairs (fun _ => Motion.KeepsPace) around element (resolveElement inherited element).1
  | ⟨own, children⟩, named => by
    have inner := areOfStates_scope states own
    exact .intro (keepsPace_resolve (named own (by simp [Element.motions])) inner)
      (pairs_keepsPace_resolveEach inner (some own) children fun motion member =>
        named motion (by simp [Element.motions, member]))

theorem pairs_keepsPace_resolveEach {inherited : Fields Value} (states : AreOfStates inherited) (around : Option Motion) :
    (elements : List Element) → (∀ motion ∈ Element.motionsEach elements, motion.IsNamedOnce) →
    Element.PairsEach (fun _ => Motion.KeepsPace) around elements (resolveEach inherited elements).1
  | [], _ => .nil
  | element :: rest, named =>
    .cons
      (pairs_keepsPace_resolveElement states around element fun motion member =>
        named motion (by simp [Element.motionsEach, member]))
      (pairs_keepsPace_resolveEach states around rest fun motion member =>
        named motion (by simp [Element.motionsEach, member]))

end

end Labels

/-! ### Delays -/

namespace Stagger

variable {own : Motion} {options : Fields Value}

theorem hasTransition_of_optionsOf (found : optionsOf own = some options) : own.HasTransition options := by
  obtain ⟨value, known, written⟩ := Option.bind_eq_some_iff.mp found
  exact .own known (Value.fields?_eq_some_iff.mp written)

/-- A motion with other options of its transition has those, and else the transitions of its states. -/
theorem hasTransition_withOptions {others : Fields Value} (has : (withOptions own options).HasTransition others) :
    others = options ∨ own.HasTransition others := by
  cases has with
  | own found written =>
    rw [Motion.phase?, withOptions, Fields.get?_set, if_pos rfl] at found
    cases found
    cases written
    exact .inl rfl
  | nested inside said =>
    refine .inr (.nested (inside.within fun phase value away found => ?_) said)
    have other : phase.name ≠ Phase.transition.name := fun same => away (Phase.name_injective same)
    rwa [Motion.phase?, withOptions, Fields.get?_set, if_neg other] at found

/-- The delay of a child is written into its transition, or into a new one that does not repeat. -/
theorem keepsPace_delay (own : Motion) (delay : Value) :
    own.KeepsPace (withOptions own (Fields.set (plainOptions own) "delay" delay)) := by
  refine ⟨rfl, fun others has => ?_⟩
  rcases hasTransition_withOptions has with rfl | before
  · rw [Fields.get?_set, if_neg (by decide)]
    unfold plainOptions
    cases plain : (own.phase? .transition).bind Value.fields? with
    | none => exact .inl rfl
    | some options =>
      obtain ⟨value, known, written⟩ := Option.bind_eq_some_iff.mp plain
      cases Value.fields?_eq_some_iff.mp written
      refine .inr ⟨options, .own known rfl, ?_, ?_⟩
      · rw [Option.getD_some, Fields.get?_set, if_neg (by decide)]
      · rw [Option.getD_some, Fields.get?_set, if_neg (by decide)]
  · exact .inr ⟨others, before, rfl, rfl⟩

/-- How children follow one another says nothing of the pace. -/
theorem keepsPace_withoutKeys (own : Motion) : own.KeepsPace (withoutKeys own) := by
  unfold withoutKeys
  dsimp only
  split
  · refine .of_hasTransition rfl fun options has => has.within fun phase value found => ?_
    rw [Motion.phase?, Fields.get?_erase] at found
    split at found
    · cases found
    · exact found
  · rename_i some_
    have others_ {others : Fields Value} := @hasTransition_withOptions own
      (((optionsOf own).getD []).filter fun field => !keys.contains field.1) others
    refine ⟨rfl, fun others has => ?_⟩
    rcases others_ has with rfl | before
    · cases found : optionsOf own with
      | none =>
        rw [found] at some_
        exact absurd rfl some_
      | some options =>
        refine .inr ⟨options, hasTransition_of_optionsOf found, ?_, ?_⟩
        · exact Fields.get?_filter options (fun name => !keys.contains name) "repeat"
        · exact Fields.get?_filter options (fun name => !keys.contains name) "duration"
    · exact .inr ⟨others, before, rfl, rfl⟩

/-- Delays are written into a transition that was there, or into one that does not repeat. -/
theorem keepsPace_settle {outer : Option (Stagger × Nat)} {delayed : Motion} (children : List Element)
    (received : receive outer own = .ok delayed) : own.KeepsPace (settle delayed children) := by
  have first : own.KeepsPace delayed := by
    cases outer with
    | none =>
      cases received
      exact .refl own
    | some given =>
      obtain ⟨delay, rfl⟩ := delayed_eq_ok received
      exact keepsPace_delay own delay
  unfold settle
  split
  · exact first.trans (keepsPace_withoutKeys delayed)
  · exact first

end Stagger

/-! ### The whole conversion -/

namespace Component

variable {target : Framework} {component converted : Component} {account told : Account} {forest staggered : Forest}

theorem pairs_keepsPace_resolveLabels (target : Framework) (named : ∀ motion ∈ forest.motions, motion.IsNamedOnce) :
    Forest.Pairs (fun _ => Motion.KeepsPace) forest (resolveLabels target forest).1 := by
  unfold resolveLabels
  split
  · exact Labels.pairs_keepsPace_resolveEach Labels.areOfStates_nil none forest named
  · exact Forest.pairs_self (fun _ => .refl) forest

theorem pairs_keepsPace_expandStagger {noted : List Remark} (done : expandStagger target forest = .ok (staggered, noted)) :
    Forest.Pairs (fun _ => Motion.KeepsPace) forest staggered := by
  rcases expandStagger_eq_ok done with ⟨-, found, result, -⟩ | ⟨-, rfl, -⟩
  · exact Stagger.pairs_expandForest (fun _ _ _ _ children _ => Stagger.keepsPace_settle children) result
  · exact Forest.pairs_self (fun _ => .refl) staggered

/-- No animation of a converted component repeats at a pace that is new. -/
theorem keepsPace_convert (named : ∀ motion ∈ component.elements.motions, motion.IsNamedOnce)
    (done : component.convert target account = .ok (converted, told)) :
    Forest.Pairs (fun _ => Motion.KeepsPace) component.elements converted.elements := by
  obtain ⟨staggered, noted, expanded, after, -⟩ := convert_eq_ok done
  have spelledAgain : ∀ motion ∈ component.elements.motions, motion.Respelled (Convert.phases target motion).1 :=
    fun motion member => Convert.respelled_phases (named motion member).phases
  have first : Forest.Pairs (fun _ => Motion.KeepsPace) component.elements (spelled target component.elements) :=
    Forest.pairs_map fun motion member => (spelledAgain motion member).keepsPace
  have second : Forest.Pairs (fun _ => Motion.KeepsPace) (spelled target component.elements)
      (labelled target component.elements) := by
    refine pairs_keepsPace_resolveLabels target fun motion member => ?_
    rw [spelled, Forest.motions_map] at member
    obtain ⟨own, known, rfl⟩ := List.mem_map.mp member
    exact (spelledAgain own known).isNamedOnce (named own known)
  have third : Forest.Pairs (fun _ => Motion.KeepsPace) (labelled target component.elements) staggered :=
    pairs_keepsPace_expandStagger expanded
  have fourth : Forest.Pairs (fun _ => Motion.KeepsPace) staggered converted.elements := by
    rw [after]
    refine Forest.pairs_map fun motion _ => ?_
    rw [carryOver_fst]
    exact .of_hasTransition rfl fun options has => has.within fun _ _ => id
  have chained (_ : Option Motion) (own middle last : Motion) : own.KeepsPace middle → middle.KeepsPace last →
      own.KeepsPace last := .trans
  exact ((first.after second chained).after third chained).after fourth chained

end Component

end AnimationCode
