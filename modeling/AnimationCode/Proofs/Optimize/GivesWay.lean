/-
**Which properties give way.**

Whether a property gives way to its transform is said by the states that hold it, and by them alone: in all of them its
frames are pixels, and none has the transform. So no state comes to name a property twice. States without the property
are not asked; one of them may have the transform, and what was two properties of the element is one from then on.

* `Motion.Replaces`: a property of a state that has its transform in its place afterwards;
* `Transforms.GivesWay`: what the states that hold a property must be like;
* `Component.replaces_iff_givesWay`: just those properties are replaced that can give way.
-/

import AnimationCode.Proofs.Optimize.Exchange

namespace AnimationCode

/-- A state of a motion holds a property, and afterwards has another in its place. -/
def Motion.Replaces (before after : Motion) (pair : String × String) : Prop :=
  ∃ states ∈ before.states.zip after.states, ∃ fields ∈ states.1.2.zip states.2.2,
    fields.1.1 = pair.1 ∧ fields.2.1 = pair.2

theorem exists_mem_zip {α β : Type} {related : α → β → Prop} {items : List α} {others : List β}
    (pairs : List.Forall₂ related items others) {item : α} (member : item ∈ items) :
    ∃ other, (item, other) ∈ items.zip others ∧ related item other := by
  induction pairs with
  | nil => cases member
  | cons here _ ih =>
    rcases List.mem_cons.mp member with rfl | later
    · exact ⟨_, List.mem_cons_self, here⟩
    · obtain ⟨other, known, related⟩ := ih later
      exact ⟨other, List.mem_cons_of_mem _ known, related⟩

theorem exists_getElem? {α β : Type} {related : α → β → Prop} {items : List α} {others : List β}
    (pairs : List.Forall₂ related items others) {place : Nat} {other : β} (found : others[place]? = some other) :
    ∃ item, items[place]? = some item ∧ related item other := by
  induction pairs generalizing place with
  | nil => cases found
  | cons here _ ih =>
    cases place with
    | zero =>
      cases found
      exact ⟨_, rfl, here⟩
    | succ place => exact ih found

namespace Transforms

open Rewrite

variable {motion before after : Motion} {made : List (String × String)}

/-- The states of a motion that hold a property let it give way to its transform: there are some, in all of them its frames
are pixels, and none has the transform. A size also needs a frame above zero, and a style that is written out or absent. -/
structure GivesWay (motion : Motion) (pair : String × String) : Prop where
  held : ∃ state, motion.HasState state ∧ state.has pair.1 = true
  pixels : ∀ state, motion.HasState state → state.has pair.1 = true → ((state.get? pair.1).bind frames?).isSome = true
  free : ∀ state, motion.HasState state → state.has pair.1 = true → state.has pair.2 = false
  size : pair ∈ TextPass.scales → (style? motion).isSome = true ∧ (Binary64.zero false).lt (peak motion pair.1) = true

theorem canReplace_iff {old new : String} : canReplace motion old new = true ↔
    (∀ state, motion.HasState state → state.has old = true → ((state.get? old).bind frames?).isSome = true) ∧
      ∀ state, motion.HasState state → state.has old = true → state.has new = false := by
  rw [canReplace, Bool.and_eq_true_iff, Bool.not_eq_true', framesOf, List.all_map, List.all_eq_true, List.any_eq_false]
  simp only [mem_holders, and_imp, Function.comp_apply, Bool.not_eq_true]

theorem gives_iff {rewrite : Rewrite} (member : rewrite ∈ rewrites) :
    rewrite.gives motion = true ↔ GivesWay motion rewrite.pair := by
  have position_ (old new : String) (noSize : (old, new) ∉ TextPass.scales) :
      (position old new).gives motion = true ↔ GivesWay motion (old, new) := by
    rw [gives, Bool.and_eq_true_iff, Bool.not_eq_true', isIdle_eq_false]
    constructor
    · rintro ⟨held, ready⟩
      obtain ⟨pixels, free⟩ := canReplace_iff.mp ready
      exact ⟨held, pixels, free, fun isSize => absurd isSize noSize⟩
    · exact fun way => ⟨way.held, canReplace_iff.mpr ⟨way.pixels, way.free⟩⟩
  have size_ (old new origin : String) (isSize : (old, new) ∈ TextPass.scales) :
      (size old new origin).gives motion = true ↔ GivesWay motion (old, new) := by
    rw [gives, Bool.and_eq_true_iff, Bool.not_eq_true', isIdle_eq_false]
    constructor
    · rintro ⟨held, ready⟩
      obtain ⟨styled, replaceable, high⟩ := (Bool.and_eq_true_iff.mp ready).imp_right Bool.and_eq_true_iff.mp
      obtain ⟨pixels, free⟩ := canReplace_iff.mp replaceable
      exact ⟨held, pixels, free, fun _ => ⟨styled, high⟩⟩
    · intro way
      obtain ⟨styled, high⟩ := way.size isSize
      have replaceable := canReplace_iff.mpr ⟨way.pixels, way.free⟩
      exact ⟨way.held, Bool.and_eq_true_iff.mpr ⟨styled, Bool.and_eq_true_iff.mpr ⟨replaceable, high⟩⟩⟩
  simp only [rewrites, List.mem_cons, List.not_mem_nil, or_false] at member
  rcases member with rfl | rfl | rfl | rfl
  · exact position_ "top" "y" (by decide)
  · exact position_ "left" "x" (by decide)
  · exact size_ "width" "scaleX" "left center" (by decide)
  · exact size_ "height" "scaleY" "center top" (by decide)

theorem mem_givenBy {pair : String × String} (known : pair ∈ pairs) :
    pair ∈ givenBy rewrites motion ↔ GivesWay motion pair := by
  have once : ∀ rewrite ∈ rewrites, ∀ other ∈ rewrites, other.pair = rewrite.pair →
      other.gives motion = rewrite.gives motion := by
    intro rewrite member other another same
    exact Bool.eq_iff_iff.mpr (by rw [gives_iff member, gives_iff another, same])
  obtain ⟨rewrite, member, rfl⟩ := List.mem_map.mp (show pair ∈ rewrites.map Rewrite.pair from known)
  rw [← gives_iff member, givenBy, List.mem_map]
  constructor
  · rintro ⟨other, kept, same⟩
    obtain ⟨another, given⟩ := List.mem_filter.mp kept
    rwa [once rewrite member other another same] at given
  · exact fun given => ⟨rewrite, List.mem_filter.mpr ⟨member, given⟩, rfl⟩

/-- The states of a motion and of what becomes of it lie in pairs. -/
theorem forall₂_states (exchanges : Exchanges made before after) : List.Forall₂ (fun state changed =>
    changed.1 = state.1 ∧ List.Forall₂ (Becomes made) state.2 changed.2) before.states after.states := by
  obtain ⟨change, -, states, becomes⟩ := exchanges.exists_change
  rw [states]
  exact List.forall₂_map_right_iff.mpr (List.forall₂_same.mpr fun state _ => ⟨rfl, becomes state.2⟩)

/-- The name of a field that becomes another: it gave way to its transform, or it is the same. -/
theorem Becomes.name {field changed : String × Value} (becomes : Becomes made field changed) :
    (field.1, changed.1) ∈ made ∨ changed.1 = field.1 ∧ ∀ pair ∈ made, field.1 ≠ pair.1 := by
  cases becomes with
  | gives member => exact .inl member
  | stays apart => exact .inr ⟨rfl, apart⟩

/-- A property is replaced in some state exactly if it is among those that give way. -/
theorem replaces_iff_mem (among : made ⊆ pairs)
    (held : ∀ pair ∈ made, ∃ state, before.HasState state ∧ state.has pair.1 = true)
    (exchanges : Exchanges made before after) {pair : String × String} (known : pair ∈ pairs) :
    before.Replaces after pair ↔ pair ∈ made := by
  have states := forall₂_states exchanges
  have sameOld : ∀ pair ∈ pairs, ∀ next ∈ pairs, pair.1 = next.1 → pair.2 = next.2 := by decide
  constructor
  · rintro ⟨⟨⟨path, state⟩, ⟨_, other⟩⟩, inside, ⟨field, changed⟩, here, old, new⟩
    have becomes := List.forall₂_zip (List.forall₂_zip states inside).2 here
    rcases becomes.name with gave | ⟨same, -⟩
    · rwa [old, new] at gave
    · exact absurd (new.symm.trans (same.trans old)) (apart_pairs pair known pair known)
  · intro member
    obtain ⟨state, has, holds⟩ := held pair member
    obtain ⟨path, inside⟩ := Motion.hasState_iff.mp has
    obtain ⟨⟨_, other⟩, zipped, -, fields⟩ := exists_mem_zip states inside
    obtain ⟨⟨name, value⟩, here, same⟩ := List.mem_map.mp (Fields.has_iff.mp holds)
    obtain ⟨changed, fieldsZipped, becomes⟩ := exists_mem_zip fields here
    refine ⟨_, zipped, _, fieldsZipped, same, ?_⟩
    rcases becomes.name with gave | ⟨-, stayed⟩
    · exact sameOld (name, changed.1) (among gave) pair known same
    · exact absurd same (stayed pair member)

/-- No state comes to name a property twice, if those that give way leave it none of their transforms. -/
theorem nodup_becomes (among : made ⊆ pairs) {state changed : Fields Value}
    (becomes : List.Forall₂ (Becomes made) state changed)
    (free : ∀ pair ∈ made, state.has pair.1 = true → state.has pair.2 = false) (once : state.keys.Nodup) :
    changed.keys.Nodup := by
  have sameNew : ∀ pair ∈ pairs, ∀ next ∈ pairs, pair.2 = next.2 → pair.1 = next.1 := by decide
  have free_ : ∀ pair ∈ made, pair.1 ∈ state.keys → pair.2 ∉ state.keys := fun pair member old new => by
    rw [← Fields.has_iff] at old new
    exact Bool.false_ne_true ((free pair member old).symm.trans new)
  clear free
  induction becomes with
  | nil => exact List.nodup_nil
  | @cons field after rest others here later ih =>
    obtain ⟨fresh, onceLater⟩ := List.nodup_cons.mp once
    refine List.nodup_cons.mpr ⟨fun twice => ?_, ih onceLater fun pair member old new =>
      free_ pair member (List.mem_cons_of_mem _ old) (List.mem_cons_of_mem _ new)⟩
    obtain ⟨another, inside, same⟩ := List.mem_map.mp twice
    obtain ⟨second, known, becomes⟩ : ∃ second ∈ rest, Becomes made second another := by
      obtain ⟨second, zipped, becomes⟩ := exists_mem_zip later.flip inside
      exact ⟨second, (List.of_mem_zip zipped).2, becomes⟩
    have secondKey : second.1 ∈ Fields.keys rest := List.mem_map_of_mem known
    rcases here.name with gave | ⟨stayed, -⟩
    · rcases becomes.name with gaveToo | ⟨stayedToo, -⟩
      · exact fresh (sameNew _ (among gave) _ (among gaveToo) same.symm ▸ secondKey)
      · refine free_ _ gave List.mem_cons_self (List.mem_cons_of_mem _ ?_)
        exact same ▸ stayedToo ▸ secondKey
    · rcases becomes.name with gaveToo | ⟨stayedToo, -⟩
      · refine free_ _ gaveToo (List.mem_cons_of_mem _ secondKey) ?_
        exact same ▸ stayed ▸ List.mem_cons_self
      · exact fresh (stayed.symm.trans (same.symm.trans stayedToo) ▸ secondKey)

/-- Every motion of a forest is exchanged as it would be alone. -/
theorem pairs_applyToForest {forest revised : Forest} {said : List String} (done : applyToForest forest = .ok (revised, said)) :
    Forest.Pairs (fun _ before after => Exchanges (givenBy rewrites before) before after) forest revised := by
  obtain ⟨-, same, -⟩ := applyToForest_eq_ok done
  cases same
  exact Forest.pairs_map fun motion _ => exchanges_apply motion

end Transforms

namespace Component

variable {component revised : Component} {account told : Account}

/-- **The states that hold a property, and they alone, say whether it gives way**: in none of them is the transform there
already, so that no state comes to name a property twice. A state without the property may have the transform. -/
theorem replaces_iff_givesWay (done : component.optimizePerformance account = .ok (revised, told)) :
    Forest.Pairs (fun _ before after =>
      (∀ pair ∈ Transforms.pairs, before.Replaces after pair ↔ Transforms.GivesWay before pair) ∧
        ∀ states ∈ before.states.zip after.states, (Fields.keys states.1.2).Nodup → (Fields.keys states.2.2).Nodup)
      component.elements revised.elements := by
  obtain ⟨forest, said, result, rfl, -⟩ := optimizePerformance_eq_ok done
  refine (Transforms.pairs_applyToForest result).mono fun _ before after exchanges => ?_
  have among : Rewrite.givenBy Transforms.rewrites before ⊆ Transforms.pairs :=
    Rewrite.givenBy_subset (List.Subset.refl _) before
  have ways (pair : String × String) (member : pair ∈ Rewrite.givenBy Transforms.rewrites before) :
      Transforms.GivesWay before pair := (Transforms.mem_givenBy (among member)).mp member
  refine ⟨fun pair known => ?_, fun states member once => ?_⟩
  · rw [← Transforms.mem_givenBy known]
    exact Transforms.replaces_iff_mem among (fun _ => Transforms.held_of_mem_givenBy) exchanges known
  · obtain ⟨-, becomes⟩ := List.forall₂_zip (Transforms.forall₂_states exchanges) member
    have inside : before.HasState states.1.2 := Motion.hasState_iff.mpr ⟨_, (List.of_mem_zip member).1⟩
    exact Transforms.nodup_becomes among becomes (fun pair known => (ways pair known).free _ inside) once

/-- A component of one element that begins with a shift and is moved from there. -/
def sliding : Component :=
  Component.ofForest .react false "Box"
    [⟨{ Motion.ofTag "div" with
        phases := [("initial", .object [("x", .int 5)]), ("animate", .object [("left", .int 10)])] }, []⟩]

/-- The position becomes a shift, though another state has one: the two are merged. -/
theorem replaces_iff_givesWay_sliding : ∃ revised told,
    sliding.optimizePerformance (Account.start .react) = .ok (revised, told) ∧
    revised.elements.motions.map Motion.phases =
      [[("initial", .object [("x", .int 5)]), ("animate", .object [("x", .int 10)])]] ∧
    Forest.Pairs (fun _ before after =>
      (∀ pair ∈ Transforms.pairs, before.Replaces after pair ↔ Transforms.GivesWay before pair) ∧
        ∀ states ∈ before.states.zip after.states, (Fields.keys states.1.2).Nodup → (Fields.keys states.2.2).Nodup)
      sliding.elements revised.elements :=
  ⟨_, _, rfl, by cbv, @replaces_iff_givesWay sliding _ (Account.start .react) _ rfl⟩

end Component

end AnimationCode
