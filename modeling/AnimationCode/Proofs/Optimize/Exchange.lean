/-
**What gives way to a transform.**

A transform takes the place of a property in all states of an element that hold it, or in none. Each keeps its place
among the others, and nothing else is touched but the style, to which a size is pinned. Which properties give way is
seen before the first of them does.

* `Transforms.Exchanged`: what becomes of a motion some of whose properties give way;
* `Rewrite.exchanges_inTurn`: rewrites in a row exchange what each of them would exchange alone;
* `Component.exchanged_optimizePerformance`: what putting transforms in place of layout makes of a component.
-/

import AnimationCode.Proofs.Element.Pairs
import AnimationCode.Proofs.Revision

namespace AnimationCode

namespace Transforms

open Rewrite

/-! ### What becomes of a motion -/

/-- The properties that may give way, each with its transform. -/
def pairs : List (String × String) := TextPass.shifts ++ TextPass.scales

/-- A value with its frames changed, if all of them are pixels. -/
def moved (change : Binary64 → Binary64) (value : Value) : Value :=
  match frames? value with
  | some frames => withFrames value (frames.map change)
  | none => value

/-- A field of a state before and after some properties gave way: one of these has the name of its transform, every other
field is as it was. -/
inductive Becomes (made : List (String × String)) : String × Value → String × Value → Prop
  | gives {old new : String} (member : (old, new) ∈ made) (change : Binary64 → Binary64) (value : Value) :
      Becomes made (old, value) (new, moved change value)
  | stays {field : String × Value} (apart : ∀ pair ∈ made, field.1 ≠ pair.1) : Becomes made field field

/-- A motion before and after some sizes were pinned. If there are any, its style is written out or absent, and gains their
names and that of the point that scales are about, as far as it lacks them; no other attribute differs. -/
inductive Pinned (sizes : List String) (before after : Motion) : Prop
  | nothing (none_ : sizes = []) (same : after.attributes = before.attributes)
  | style {style added : Fields Value} (some_ : sizes ≠ []) (written : style? before = some style)
      (same : after.attributes = before.attributes.set "style" (.object (style ++ added))) (once : added.keys.Nodup)
      (gained : ∀ name, name ∈ added.keys ↔ (name ∈ sizes ∨ name = "transformOrigin") ∧ name ∉ style.keys)

/-- The sizes among the properties that gave way. -/
def sizes (made : List (String × String)) : List String := (made.filter TextPass.scales.contains).map Prod.fst

/-- What becomes of a motion some of whose properties give way, given what is said about it: they are held by some state,
they give way in all states, each in its place, and nothing else differs but a style to which sizes are pinned. A property
that is still there was advised against. -/
structure Exchanged (said : List String) (made : List (String × String)) (before after : Motion) : Prop where
  among : made.Sublist pairs
  held : ∀ pair ∈ made, ∃ state, before.HasState state ∧ state.has pair.1 = true
  same : after = { before with phases := after.phases, attributes := after.attributes }
  phases : List.Forall₂ (Motion.PhaseAlike (List.Forall₂ (Becomes made))) before.phases after.phases
  pinned : Pinned (sizes made) before after
  advised : ∀ pair ∈ pairs, ∀ state, after.HasState state → state.has pair.1 = true →
    TextPass.scaleAdvice pair.1 pair.2 ∈ said

variable {made later : List (String × String)} {before middle after motion : Motion}

/-! ### One state -/

theorem forall₂_substitute (old new : String) (change : Binary64 → Binary64) (state : Fields Value) :
    List.Forall₂ (Becomes [(old, new)]) state (substitute old new change state) := by
  refine List.forall₂_map_right_iff.mpr (List.forall₂_same.mpr ?_)
  rintro ⟨name, value⟩ -
  dsimp only
  split_ifs with here
  · subst here
    exact .gives (List.mem_singleton_self _) change value
  · exact .stays fun pair member => by rwa [List.mem_singleton.mp member]

theorem Becomes.trans {field changed last : String × Value} (apart : ∀ pair ∈ made, ∀ next ∈ later, pair.2 ≠ next.1)
    (first : Becomes made field changed) (second : Becomes later changed last) : Becomes (made ++ later) field last := by
  cases first with
  | @gives old new member change value =>
    -- a transform is no property that gives way
    have still : ∀ next ∈ later, new ≠ next.1 := apart (old, new) member
    cases second with
    | gives again => exact absurd rfl (still _ again)
    | stays => exact .gives (List.mem_append_left _ member) change value
  | stays away =>
    cases second with
    | gives member change value => exact .gives (List.mem_append_right _ member) change value
    | stays apart => exact .stays (List.forall_mem_append.mpr ⟨away, apart⟩)

theorem forall₂_becomes_trans {state changed last : Fields Value}
    (apart : ∀ pair ∈ made, ∀ next ∈ later, pair.2 ≠ next.1)
    (first : List.Forall₂ (Becomes made) state changed) (second : List.Forall₂ (Becomes later) changed last) :
    List.Forall₂ (Becomes (made ++ later)) state last := by
  induction first generalizing last with
  | nil =>
    cases second
    exact .nil
  | cons here _ ih =>
    cases second with
    | cons next rest => exact .cons (here.trans apart next) (ih rest)

/-! ### The style -/

theorem keys_setNew (fields : Fields Value) (name : String) (value : Value) :
    ∃ added : Fields Value, fields.setNew name value = fields ++ added ∧ added.keys.Nodup ∧
      ∀ other, other ∈ added.keys ↔ other = name ∧ other ∉ fields.keys := by
  unfold Fields.setNew
  split
  · rename_i known
    have member := Fields.has_iff.mp known
    refine ⟨[], (List.append_nil fields).symm, List.nodup_nil, fun other => ?_⟩
    constructor
    · exact fun none_ => absurd none_ List.not_mem_nil
    · rintro ⟨rfl, fresh⟩
      exact absurd member fresh
  · rename_i unknown
    have fresh : name ∉ fields.keys := fun member => unknown (Fields.has_iff.mpr member)
    refine ⟨[(name, value)], rfl, List.nodup_singleton name, fun other => ?_⟩
    constructor
    · intro member
      obtain rfl := List.mem_singleton.mp member
      exact ⟨rfl, fresh⟩
    · rintro ⟨rfl, -⟩
      exact List.mem_singleton_self _

theorem keys_append (fields added : Fields Value) : Fields.keys (fields ++ added) = fields.keys ++ added.keys := List.map_append

/-- What a style gains in two steps. -/
theorem gained_append {style added more : Fields Value} {first second both : String → Prop}
    (either : ∀ name, both name ↔ first name ∨ second name) (once : added.keys.Nodup) (onceMore : more.keys.Nodup)
    (gained : ∀ name, name ∈ added.keys ↔ first name ∧ name ∉ style.keys)
    (gainedMore : ∀ name, name ∈ more.keys ↔ second name ∧ name ∉ Fields.keys (style ++ added)) :
    (Fields.keys (added ++ more)).Nodup ∧
      ∀ name, name ∈ Fields.keys (added ++ more) ↔ both name ∧ name ∉ style.keys := by
  have fresh (name : String) : name ∈ more.keys ↔ second name ∧ name ∉ style.keys ∧ name ∉ added.keys := by
    rw [gainedMore, keys_append, List.mem_append, not_or]
  rw [keys_append]
  refine ⟨List.nodup_append.mpr ⟨once, onceMore, ?_⟩, fun name => ?_⟩
  · rintro name known other new rfl
    exact ((fresh name).mp new).2.2 known
  · rw [List.mem_append, fresh, gained, either]
    tauto

theorem pinned_append (property origin : String) (peak : Binary64) (style : Fields Value) :
    ∃ added : Fields Value, pinned property origin peak style = style ++ added ∧ added.keys.Nodup ∧
      ∀ name, name ∈ added.keys ↔ (name ∈ [property] ∨ name = "transformOrigin") ∧ name ∉ style.keys := by
  obtain ⟨first, sized, once, gained⟩ := keys_setNew style property (.text (Decimal.general peak ++ "px"))
  obtain ⟨second, about, onceMore, gainedMore⟩ := keys_setNew (style ++ first) "transformOrigin" (.text origin)
  have either (name : String) : (name ∈ [property] ∨ name = "transformOrigin") ↔
      name = property ∨ name = "transformOrigin" := by rw [List.mem_singleton]
  obtain ⟨nodup, all⟩ := gained_append either once onceMore gained gainedMore
  exact ⟨first ++ second, by rw [pinned, sized, about, List.append_assoc], nodup, all⟩

theorem Pinned.refl (motion : Motion) : Pinned [] motion motion := .nothing rfl rfl

theorem Pinned.trans {first second : List String} (earlier : Pinned first before middle) (next : Pinned second middle after) :
    Pinned (first ++ second) before after := by
  have unpinned (same : middle.attributes = before.attributes) : style? middle = style? before := by rw [style?, style?, same]
  cases earlier with
  | nothing none_ same =>
    subst none_
    cases next with
    | nothing none_ again => exact .nothing none_ (again.trans same)
    | style some_ written again once gained =>
      exact .style some_ ((unpinned same).symm.trans written) (by rw [again, same]) once gained
  | @style style added some_ written same once gained =>
    have already : style? middle = some (style ++ added) := by
      rw [style?, same, Fields.get?_set, if_pos rfl]
    cases next with
    | nothing none_ again =>
      subst none_
      rw [List.append_nil]
      exact .style some_ written (again.trans same) once gained
    | @style _ more someMore writtenMore again onceMore gainedMore =>
      cases already.symm.trans writtenMore
      have either (name : String) : (name ∈ first ++ second ∨ name = "transformOrigin") ↔
          (name ∈ first ∨ name = "transformOrigin") ∨ (name ∈ second ∨ name = "transformOrigin") := by
        rw [List.mem_append]
        tauto
      obtain ⟨nodup, all⟩ := gained_append either once onceMore gained gainedMore
      refine .style (fun none_ => some_ (List.append_eq_nil_iff.mp none_).1) written ?_ nodup all
      rw [again, same, Fields.set_set, List.append_assoc]

end Transforms

/-! ### Rewrites in a row -/

namespace Rewrite

open Transforms

variable {rewrite : Rewrite} {before middle after motion : Motion} {made later : List (String × String)}

/-- The property and its transform. -/
def pair (rewrite : Rewrite) : String × String := (rewrite.old, rewrite.new)

/-- Whether a rewrite finds its property, and the property gives way. -/
def gives (rewrite : Rewrite) (motion : Motion) : Bool := !rewrite.isIdle motion && rewrite.ready motion

/-- The properties of a row that give way. -/
def givenBy (row : List Rewrite) (motion : Motion) : List (String × String) :=
  (row.filter fun rewrite => rewrite.gives motion).map pair

/-- A transform is no property that gives way. -/
theorem apart_pairs : ∀ pair ∈ pairs, ∀ next ∈ pairs, pair.2 ≠ next.1 := by decide

theorem givenBy_sublist (row : List Rewrite) (motion : Motion) : (givenBy row motion).Sublist (row.map Rewrite.pair) :=
  List.filter_sublist.map Rewrite.pair

theorem givenBy_subset {row : List Rewrite} (among : row ⊆ rewrites) (motion : Motion) : givenBy row motion ⊆ pairs :=
  List.Subset.trans (givenBy_sublist row motion).subset (List.map_subset Rewrite.pair among)

theorem apply_fst (rewrite : Rewrite) (motion : Motion) :
    (rewrite.apply motion).1 = if rewrite.gives motion then rewrite.act motion else motion := by
  unfold apply gives
  cases rewrite.isIdle motion
  · cases rewrite.ready motion <;> rfl
  · rfl

/-- What some rewrites make of a motion: one change of every state, and sizes pinned. -/
structure Exchanges (made : List (String × String)) (before after : Motion) : Prop where
  same : after = { before with phases := after.phases, attributes := after.attributes }
  states : ∃ change, after.phases = (before.mapStates change).phases ∧
    ∀ state, List.Forall₂ (Becomes made) state (change state)
  pinned : Pinned (sizes made) before after

theorem Exchanges.refl (motion : Motion) : Exchanges [] motion motion := by
  refine ⟨rfl, ⟨id, ?_, fun state => ?_⟩, .refl motion⟩
  · rw [Motion.mapStates_id]
  · exact List.forall₂_same.mpr fun field _ => .stays nofun

theorem Exchanges.trans (apart : ∀ pair ∈ made, ∀ next ∈ later, pair.2 ≠ next.1)
    (first : Exchanges made before middle) (second : Exchanges later middle after) : Exchanges (made ++ later) before after := by
  obtain ⟨same, ⟨change, phases, becomes⟩, pinned⟩ := first
  obtain ⟨sameNext, ⟨next, phasesNext, becomesNext⟩, pinnedNext⟩ := second
  refine ⟨by rw [sameNext, same], ⟨next ∘ change, ?_, fun state => ?_⟩, ?_⟩
  · rw [phasesNext, ← Motion.mapStates_mapStates]
    exact congrArg (fun phases : Fields Value => (Motion.mapStates next { before with phases := phases }).phases) phases
  · exact forall₂_becomes_trans apart (becomes state) (becomesNext (change state))
  · have both : sizes (made ++ later) = sizes made ++ sizes later := by
      rw [sizes, sizes, sizes, List.filter_append, List.map_append]
    rw [both]
    exact pinned.trans pinnedNext

/-- The states afterwards are those before, each with the same change. -/
theorem Exchanges.exists_change (exchanges : Exchanges made before after) : ∃ change,
    after.phases = (before.mapStates change).phases ∧
      after.states = before.states.map (fun state => (state.1, change state.2)) ∧
      ∀ state, List.Forall₂ (Becomes made) state (change state) := by
  obtain ⟨change, phases, becomes⟩ := exchanges.states
  refine ⟨change, phases, ?_, becomes⟩
  rw [← Motion.states_mapStates, Motion.states, Motion.states, Motion.statesIn, Motion.statesIn, Motion.variantStates, Motion.variantStates]
  simp only [Motion.keyframes?, Motion.phase?, phases]

/-- A rewrite that acts exchanges its own property. -/
theorem exchanges_act (member : rewrite ∈ rewrites) (ready : rewrite.ready motion = true) :
    Exchanges [rewrite.pair] motion (rewrite.act motion) := by
  simp only [rewrites, List.mem_cons, List.not_mem_nil, or_false] at member
  have position_ (old new : String) (noSize : TextPass.scales.contains (old, new) = false) :
      Exchanges [(old, new)] motion ((position old new).act motion) := by
    refine ⟨rfl, ⟨_, rfl, forall₂_substitute old new id⟩, ?_⟩
    rw [sizes, List.filter_cons_of_neg (by rw [noSize]; exact Bool.false_ne_true)]
    exact .nothing rfl rfl
  have size_ (property scale origin : String) (isSize : TextPass.scales.contains (property, scale) = true)
      (ready : (size property scale origin).ready motion = true) :
      Exchanges [(property, scale)] motion ((size property scale origin).act motion) := by
    obtain ⟨style, written⟩ := Option.isSome_iff_exists.mp (Bool.and_eq_true_iff.mp ready).1
    obtain ⟨added, gains, once, gained⟩ := pinned_append property origin (peak motion property) style
    refine ⟨rfl, ⟨_, rfl, forall₂_substitute property scale _⟩, ?_⟩
    rw [sizes, List.filter_cons_of_pos isSize]
    refine .style (List.cons_ne_nil _ _) written ?_ once gained
    rw [← gains]
    change motion.attributes.set "style" (.object (pinned property origin _ ((style? motion).getD []))) = _
    rw [written]
    rfl
  rcases member with rfl | rfl | rfl | rfl
  · exact position_ "top" "y" (by decide)
  · exact position_ "left" "x" (by decide)
  · exact size_ "width" "scaleX" "left center" (by decide) ready
  · exact size_ "height" "scaleY" "center top" (by decide) ready

/-- A rewrite that spares another leaves it as much to give. -/
theorem gives_apply {other : Rewrite} (spares : rewrite.Spares other) (motion : Motion) :
    other.gives (rewrite.apply motion).1 = other.gives motion := by
  rw [apply_fst]
  split
  · rename_i given
    have ready := (Bool.and_eq_true_iff.mp given).2
    rw [gives, gives, spares.isIdle motion ready, spares.ready motion ready]
  · rfl

theorem exchanges_apply (member : rewrite ∈ rewrites) (motion : Motion) :
    Exchanges (givenBy [rewrite] motion) motion (rewrite.apply motion).1 := by
  rw [apply_fst, givenBy]
  by_cases given : rewrite.gives motion = true
  · rw [List.filter_cons_of_pos (by exact given), if_pos given]
    exact exchanges_act member (Bool.and_eq_true_iff.mp given).2
  · rw [List.filter_cons_of_neg (by exact given), if_neg given]
    exact .refl motion

/-- **Rewrites in a row exchange what each of them would exchange alone**, if each spares those after it. -/
theorem exchanges_inTurn {row : List Rewrite} (among : row ⊆ rewrites)
    (spare : row.Pairwise fun earlier later => earlier.Spares later) (motion : Motion) :
    Exchanges (givenBy row motion) motion (inTurn (row.map apply) motion).1 := by
  induction row generalizing motion with
  | nil => exact .refl motion
  | cons first rest ih =>
    obtain ⟨firstSpares, restSpare⟩ := List.pairwise_cons.mp spare
    obtain ⟨here, others⟩ := List.cons_subset.mp among
    have still : givenBy rest (first.apply motion).1 = givenBy rest motion := by
      rw [givenBy, givenBy]
      exact congrArg (List.map pair) (List.filter_congr fun other member => gives_apply (firstSpares other member) motion)
    have next := ih others restSpare (first.apply motion).1
    rw [still] at next
    have alone : [first] ⊆ rewrites := List.cons_subset.mpr ⟨here, List.nil_subset _⟩
    have apart : ∀ pair ∈ givenBy [first] motion, ∀ next ∈ givenBy rest motion, pair.2 ≠ next.1 :=
      fun pair member next following =>
        apart_pairs pair (givenBy_subset alone motion member) next (givenBy_subset others motion following)
    have both : givenBy (first :: rest) motion = givenBy [first] motion ++ givenBy rest motion := by
      rw [givenBy, givenBy, givenBy, ← List.map_append, ← List.filter_append, List.singleton_append]
    rw [List.map_cons, inTurn_cons, both]
    exact (exchanges_apply here motion).trans apart next

end Rewrite

namespace Transforms

open Rewrite

variable {motion : Motion} {said : List String}

/-- Each rewrite spares those that come after it. -/
theorem rewrites_spare_later : rewrites.Pairwise Rewrite.Spares := by
  simp only [rewrites, List.pairwise_cons, List.mem_cons, List.not_mem_nil, or_false,
    forall_eq_or_imp, forall_eq, false_implies, implies_true, List.Pairwise.nil, and_true]
  refine ⟨⟨?_, ?_, ?_⟩, ⟨?_, ?_⟩, ?_⟩
  · exact position_spared fun motion => column_position motion (by decide) (by decide)
  · exact size_spared (fun motion => column_position motion (by decide) (by decide)) fun _ _ => rfl
  · exact size_spared (fun motion => column_position motion (by decide) (by decide)) fun _ _ => rfl
  · exact size_spared (fun motion => column_position motion (by decide) (by decide)) fun _ _ => rfl
  · exact size_spared (fun motion => column_position motion (by decide) (by decide)) fun _ _ => rfl
  · exact size_spared (fun motion => column_size motion (by decide) (by decide)) style?_size

theorem mem_holders {property : String} {state : Fields Value} :
    state ∈ holders motion property ↔ motion.HasState state ∧ state.has property = true := by
  rw [holders, List.mem_filter, Motion.hasState_iff, List.mem_map]
  constructor
  · rintro ⟨⟨⟨path, state⟩, member, rfl⟩, held⟩
    exact ⟨⟨path, member⟩, held⟩
  · rintro ⟨⟨path, member⟩, held⟩
    exact ⟨⟨_, member, rfl⟩, held⟩

theorem isIdle_eq_false {rewrite : Rewrite} :
    rewrite.isIdle motion = false ↔ ∃ state, motion.HasState state ∧ state.has rewrite.old = true := by
  rw [isIdle, List.isEmpty_eq_false_iff_exists_mem]
  exact exists_congr fun _ => mem_holders

/-- What gives way is held by a state. -/
theorem held_of_mem_givenBy {row : List Rewrite} {pair : String × String} (member : pair ∈ givenBy row motion) :
    ∃ state, motion.HasState state ∧ state.has pair.1 = true := by
  obtain ⟨rewrite, kept, rfl⟩ := List.mem_map.mp member
  have busy := (Bool.and_eq_true_iff.mp (List.mem_filter.mp kept).2).1
  exact isIdle_eq_false.mp ((Bool.not_eq_true' _).mp busy)

theorem exchanges_apply (motion : Motion) : Exchanges (givenBy rewrites motion) motion (apply motion).1 := by
  rw [apply_eq]
  exact exchanges_inTurn (List.Subset.refl rewrites) rewrites_spare_later motion

/-- What becomes of a motion when transforms take the place of layout. -/
theorem exchanged_apply (finite : hasTooLarge motion = false) (told : (apply motion).2 ⊆ said) :
    Exchanged said (givenBy rewrites motion) motion (apply motion).1 := by
  have exchanges := exchanges_apply motion
  obtain ⟨change, phases, becomes⟩ := exchanges.states
  refine ⟨givenBy_sublist rewrites motion, fun _ => held_of_mem_givenBy, exchanges.same, ?_, exchanges.pinned, ?_⟩
  · rw [phases]
    exact Motion.forall₂_phases_mapStates becomes motion
  · intro pair member state inside held
    obtain ⟨rewrite, known, rfl⟩ := List.mem_map.mp (show pair ∈ rewrites.map Rewrite.pair from member)
    have busy : ¬ rewrite.isIdle (apply motion).1 = true := fun idle => by
      rw [isIdle, List.isEmpty_iff] at idle
      exact List.not_mem_nil (idle ▸ mem_holders.mpr ⟨inside, held⟩)
    have given := ((settled_apply finite).rewrites rewrite known).given
    rw [advice, if_neg busy] at given
    exact told (given (List.mem_singleton_self _))

end Transforms

namespace Component

/-- **Transforms take the place of layout in all states of an element or in none**, and nothing else is touched but the style
that a size is pinned to. It fails only where a number is past every finite one. -/
theorem exchanged_optimizePerformance (component : Component) (account : Account) :
    component.elements.motions.any Transforms.hasTooLarge = true ∧
        component.optimizePerformance account = .error .numberTooLarge ∨
      ∃ revised told, component.optimizePerformance account = .ok (revised, told) ∧
        revised = { component with elements := revised.elements } ∧
        Forest.Pairs (fun _ before after => ∃ made, Transforms.Exchanged told.suggestions made before after)
          component.elements revised.elements := by
  by_cases tooLarge : component.elements.motions.any Transforms.hasTooLarge = true
  · left
    refine ⟨tooLarge, ?_⟩
    rw [optimizePerformance, Transforms.applyToForest, if_pos tooLarge]
    rfl
  · right
    have done : component.optimizePerformance account =
        .ok (component.withForest account (component.elements.revise Transforms.apply)) := by
      rw [optimizePerformance, Transforms.applyToForest, if_neg tooLarge]
      rfl
    refine ⟨_, _, done, rfl, Forest.pairs_map fun motion member => ?_⟩
    have finite : Transforms.hasTooLarge motion = false :=
      Bool.eq_false_iff.mpr fun large => tooLarge (List.any_eq_true.mpr ⟨motion, member, large⟩)
    have told : (Transforms.apply motion).2 ⊆
        (component.withForest account (component.elements.revise Transforms.apply)).2.suggestions :=
      List.Subset.trans (Forest.told_revise.mp (List.Subset.refl _) motion member) (items_subset_tellAll account.suggestions _)
    exact ⟨_, Transforms.exchanged_apply finite told⟩

end Component

end AnimationCode
