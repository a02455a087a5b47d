/-
**Transforms in place of layout, a second time.**

Each of the four changes is a rewrite of one property: it is left alone if no state holds it, gives way
to a transform if it can, and draws advice otherwise.

* `Rewrite.inTurn_settled`: after rewrites that clear their own property and spare those before them, all
  have settled: each has nothing left to do, and what it would say was said;
* `Transforms.settled_apply`: transforms put in place of layout leave no layout that could give way;
* `Transforms.applyToForest_of_settled`: a forest without such layout stays as it is.
-/

import AnimationCode.Optimize.Transforms
import AnimationCode.Proofs.Element.Forest
import AnimationCode.Proofs.Element.States

namespace AnimationCode

namespace Transforms

/-! ### What a change looks at -/

/-- In each state that holds a property: its value there, and whether the transform is there too. -/
def column (motion : Motion) (old new : String) : List (Option Value × Bool) :=
  (holders motion old).map fun state => (state.get? old, state.has new)

theorem isEmpty_column (motion : Motion) (old new : String) :
    (column motion old new).isEmpty = (holders motion old).isEmpty := by
  rw [column, List.isEmpty_map]

theorem framesOf_eq (motion : Motion) (old new : String) :
    framesOf motion old = (column motion old new).map fun cell => cell.1.bind frames? := by
  rw [framesOf, column, List.map_map]
  rfl

theorem canReplace_eq (motion : Motion) (old new : String) :
    canReplace motion old new =
      (((column motion old new).map fun cell => cell.1.bind frames?).all Option.isSome &&
        !(column motion old new).any (·.2)) := by
  rw [canReplace, framesOf_eq motion old new]
  simp only [column, List.any_map, Function.comp_def]

theorem get?_substitute {old new name : String} (change : Binary64 → Binary64)
    (state : Fields Value) (notOld : name ≠ old) (notNew : name ≠ new) :
    (substitute old new change state).get? name = state.get? name := by
  induction state with
  | nil => rfl
  | cons field rest ih =>
    obtain ⟨key, value⟩ := field
    by_cases replaced : key = old
    · subst replaced
      simp only [substitute, List.map_cons, if_true] at ih ⊢
      rw [Fields.get?_cons, Fields.get?_cons, if_neg notNew, if_neg notOld]
      exact ih
    · simp only [substitute, List.map_cons, if_neg replaced] at ih ⊢
      rw [Fields.get?_cons, Fields.get?_cons, ih]

theorem has_substitute {old new name : String} (change : Binary64 → Binary64)
    (state : Fields Value) (notOld : name ≠ old) (notNew : name ≠ new) :
    (substitute old new change state).has name = state.has name := by
  rw [Fields.has, get?_substitute change state notOld notNew, Fields.has]

theorem has_substitute_old {old new : String} (change : Binary64 → Binary64) (state : Fields Value)
    (different : old ≠ new) : (substitute old new change state).has old = false := by
  induction state with
  | nil => rfl
  | cons field rest ih =>
    obtain ⟨key, value⟩ := field
    by_cases replaced : key = old
    · subst replaced
      simp only [Fields.has, substitute, List.map_cons, if_true] at ih ⊢
      rw [Fields.get?_cons, if_neg different]
      exact ih
    · simp only [Fields.has, substitute, List.map_cons, if_neg replaced] at ih ⊢
      rw [Fields.get?_cons, if_neg (Ne.symm replaced)]
      exact ih

theorem holders_mapStates (change : Fields Value → Fields Value) (motion : Motion)
    (property : String) :
    holders (motion.mapStates change) property =
      ((motion.states.map Prod.snd).map change).filter (·.has property) := by
  rw [holders, Motion.states_mapStates, List.map_map, List.map_map]
  rfl

/-- A substitution leaves no state with the old property. -/
theorem holders_substitute {old new : String} (change : Binary64 → Binary64) (motion : Motion)
    (different : old ≠ new) : holders (motion.mapStates (substitute old new change)) old = [] := by
  rw [holders_mapStates, List.filter_eq_nil_iff]
  intro state member
  obtain ⟨before, -, rfl⟩ := List.mem_map.mp member
  simp [has_substitute_old change before different]

/-- A substitution is not seen by a change of other names. -/
theorem column_substitute {old new property transform : String} (change : Binary64 → Binary64)
    (motion : Motion) (apart : property ≠ old ∧ property ≠ new)
    (transformApart : transform ≠ old ∧ transform ≠ new) :
    column (motion.mapStates (substitute old new change)) property transform =
      column motion property transform := by
  have sameHolders : (fun state : Fields Value => (substitute old new change state).has property) =
      fun state => state.has property := by
    funext state
    exact has_substitute change state apart.1 apart.2
  rw [column, holders_mapStates, List.filter_map, Function.comp_def, sameHolders, List.map_map,
    column, holders]
  apply List.map_congr_left
  intro state _
  simp only [Function.comp_apply, get?_substitute change state apart.1 apart.2,
    has_substitute change state transformApart.1 transformApart.2]

end Transforms

/-! ### Rewrites -/

/-- A change of one property that all states make together. -/
structure Rewrite where
  old : String
  new : String
  /-- Whether the property can give way. -/
  ready : Motion → Bool
  /-- The motion after it gave way. -/
  act : Motion → Motion

namespace Rewrite

open Transforms

/-- Whether a rewrite finds its property in no state. -/
def isIdle (rewrite : Rewrite) (motion : Motion) : Bool := (holders motion rewrite.old).isEmpty

/-- The motion after a rewrite, and what there is to say. -/
def apply (rewrite : Rewrite) (motion : Motion) : Motion × List String :=
  if rewrite.isIdle motion then (motion, [])
  else if rewrite.ready motion then (rewrite.act motion, [replaced rewrite.old rewrite.new])
  else (motion, [TextPass.scaleAdvice rewrite.old rewrite.new])

/-- What a rewrite says when it does nothing. -/
def advice (rewrite : Rewrite) (motion : Motion) : List String :=
  if rewrite.isIdle motion then [] else [TextPass.scaleAdvice rewrite.old rewrite.new]

/-- A rewrite that does nothing, and whose advice has been given. -/
structure Settled (rewrite : Rewrite) (motion : Motion) (said : List String) : Prop where
  refuses : rewrite.isIdle motion = true ∨ rewrite.ready motion = false
  given : rewrite.advice motion ⊆ said

/-- A rewrite that leaves no state with its property. -/
def Clears (rewrite : Rewrite) : Prop := ∀ motion, rewrite.isIdle (rewrite.act motion) = true

/-- A rewrite after which another finds as much to do as before. -/
structure Spares (rewrite other : Rewrite) : Prop where
  isIdle : ∀ motion, rewrite.ready motion = true →
    other.isIdle (rewrite.act motion) = other.isIdle motion
  ready : ∀ motion, rewrite.ready motion = true →
    other.ready (rewrite.act motion) = other.ready motion

theorem apply_of_settled {rewrite : Rewrite} {motion : Motion} {said : List String}
    (settled : rewrite.Settled motion said) :
    rewrite.apply motion = (motion, rewrite.advice motion) := by
  unfold apply advice
  cases idle : rewrite.isIdle motion with
  | true => rfl
  | false =>
    have unready : rewrite.ready motion = false := by simpa [idle] using settled.refuses
    simp [unready]

/-- A rewrite has settled once it was applied. -/
theorem settled_apply {rewrite : Rewrite} (clears : rewrite.Clears) (motion : Motion) :
    rewrite.Settled (rewrite.apply motion).1 (rewrite.apply motion).2 := by
  unfold apply
  cases idle : rewrite.isIdle motion with
  | true => exact ⟨Or.inl idle, by simp [advice, idle]⟩
  | false =>
    cases ready : rewrite.ready motion with
    | true => exact ⟨Or.inl (clears motion), by simp [advice, clears motion]⟩
    | false => exact ⟨Or.inr ready, by simp [advice, idle]⟩

/-- A rewrite that has settled stays so under another that spares it. -/
theorem Settled.apply {rewrite other : Rewrite} {motion : Motion} {said : List String}
    (settled : rewrite.Settled motion said) (spares : other.Spares rewrite) :
    rewrite.Settled (other.apply motion).1 said := by
  unfold Rewrite.apply
  split
  · exact settled
  · split
    · rename_i ready
      have idle := spares.isIdle motion ready
      refine ⟨?_, ?_⟩
      · rw [idle, spares.ready motion ready]
        exact settled.refuses
      · rw [advice, idle]
        exact settled.given
    · exact settled

theorem Settled.mono {rewrite : Rewrite} {motion : Motion} {said more : List String}
    (settled : rewrite.Settled motion said) (within : said ⊆ more) : rewrite.Settled motion more :=
  ⟨settled.refuses, List.Subset.trans settled.given within⟩

theorem inTurn_cons (change : Motion → Motion × List String)
    (changes : List (Motion → Motion × List String)) (motion : Motion) :
    inTurn (change :: changes) motion =
      ((inTurn changes (change motion).1).1, (change motion).2 ++ (inTurn changes (change motion).1).2) := by
  have carried : ∀ (changes : List (Motion → Motion × List String)) (motion : Motion)
      (said : List String),
      changes.foldl (fun (state : Motion × List String) change =>
        ((change state.1).1, state.2 ++ (change state.1).2)) (motion, said) =
      ((inTurn changes motion).1, said ++ (inTurn changes motion).2) := by
    intro changes
    induction changes with
    | nil =>
      intro motion said
      simp [inTurn]
    | cons first rest ih =>
      intro motion said
      simp only [inTurn, List.foldl_cons, List.nil_append] at ih ⊢
      rw [ih, ih (first motion).1 (first motion).2]
      simp
  exact (carried changes (change motion).1 (change motion).2)

/-- What every rewrite of a row keeps holds at its end. -/
theorem inTurn_induction (holds : Motion → Prop) {rewrites : List Rewrite} {motion : Motion}
    (start : holds motion)
    (step : ∀ rewrite ∈ rewrites, ∀ motion, holds motion → holds (rewrite.apply motion).1) :
    holds (inTurn (rewrites.map Rewrite.apply) motion).1 := by
  induction rewrites generalizing motion with
  | nil => exact start
  | cons first rest ih =>
    rw [List.map_cons, inTurn_cons]
    exact ih (step first List.mem_cons_self motion start)
      fun rewrite member => step rewrite (List.mem_cons_of_mem _ member)

/-- **All rewrites of a row have settled at its end**, if each clears its own property and spares those
before it. -/
theorem inTurn_settled {rewrites : List Rewrite} (clear : ∀ rewrite ∈ rewrites, rewrite.Clears)
    (spare : rewrites.Pairwise fun earlier later => later.Spares earlier) (motion : Motion) :
    ∀ rewrite ∈ rewrites, rewrite.Settled (inTurn (rewrites.map Rewrite.apply) motion).1
      (inTurn (rewrites.map Rewrite.apply) motion).2 := by
  induction rewrites generalizing motion with
  | nil => simp
  | cons first rest ih =>
    obtain ⟨firstSpared, restSpared⟩ := List.pairwise_cons.mp spare
    rw [List.map_cons, inTurn_cons]
    intro rewrite member
    rcases List.mem_cons.mp member with rfl | later
    · have once := settled_apply (clear rewrite List.mem_cons_self) motion
      have still := inTurn_induction (rewrite.Settled · (rewrite.apply motion).2) once
        fun other inside _ settled => settled.apply (firstSpared other inside)
      exact still.mono (List.subset_append_left _ _)
    · have restClear : ∀ other ∈ rest, other.Clears :=
        fun other inside => clear other (List.mem_cons_of_mem _ inside)
      exact (ih restClear restSpared (first.apply motion).1 rewrite later).mono
        (List.subset_append_right _ _)

/-- Rewrites that have settled leave the motion as it is and say nothing new. -/
theorem inTurn_of_settled {rewrites : List Rewrite} {motion : Motion} {said : List String}
    (settled : ∀ rewrite ∈ rewrites, rewrite.Settled motion said) :
    (inTurn (rewrites.map Rewrite.apply) motion).1 = motion ∧
      (inTurn (rewrites.map Rewrite.apply) motion).2 ⊆ said := by
  induction rewrites with
  | nil => exact ⟨rfl, List.nil_subset _⟩
  | cons first rest ih =>
    have firstSettled := settled first List.mem_cons_self
    obtain ⟨same, within⟩ := ih fun rewrite member => settled rewrite (List.mem_cons_of_mem _ member)
    rw [List.map_cons, inTurn_cons, apply_of_settled firstSettled]
    exact ⟨same, List.append_subset.mpr ⟨firstSettled.given, within⟩⟩

end Rewrite

/-! ### The four changes -/

namespace Transforms

open Rewrite

/-- A position that gives way to a shift. -/
def position (old new : String) : Rewrite :=
  ⟨old, new, fun motion => canReplace motion old new,
    fun motion => motion.mapStates (substitute old new id)⟩

/-- The greatest value of a size in all states. -/
def peak (motion : Motion) (property : String) : Binary64 :=
  greatest ((framesOf motion property).flatMap (·.getD []))

/-- A size that gives way to a scale of its greatest value. -/
def size (property scale origin : String) : Rewrite :=
  ⟨property, scale,
    fun motion => (style? motion).isSome &&
      (canReplace motion property scale && (Binary64.zero false).lt (peak motion property)),
    fun motion =>
      let change (x : Binary64) : Binary64 := (x.div (peak motion property)).roundTo scalePlaces
      { motion.mapStates (substitute property scale change) with
        attributes := motion.attributes.set "style"
          (.object (pinned property origin (peak motion property) ((style? motion).getD []))) }⟩

/-- The rewrites in the order in which they are made. -/
def rewrites : List Rewrite :=
  [position "top" "y", position "left" "x", size "width" "scaleX" "left center",
    size "height" "scaleY" "center top"]

theorem movePosition_eq (old new : String) :
    movePosition old new = (position old new).apply := rfl

theorem scaleSize_eq (property scale origin : String) :
    scaleSize property scale origin = (size property scale origin).apply := by
  funext motion
  unfold scaleSize Rewrite.apply
  split
  · rename_i idle
    rw [if_pos (show (size property scale origin).isIdle motion = true from idle)]
  · rename_i busy
    rw [if_neg (show ¬ (size property scale origin).isIdle motion = true from busy)]
    split
    · rename_i style found
      simp only [size, peak, found, Option.isSome_some, Bool.true_and, Option.getD_some]
      rfl
    · rename_i missing
      simp [size, missing]

theorem apply_eq : apply = inTurn (rewrites.map Rewrite.apply) := by
  unfold apply rewrites
  simp only [List.map_cons, List.map_nil, movePosition_eq, scaleSize_eq]

theorem ready_size (property scale origin : String) (motion : Motion) :
    (size property scale origin).ready motion =
      ((style? motion).isSome && (canReplace motion property scale &&
        (Binary64.zero false).lt (greatest (((column motion property scale).map fun cell =>
          cell.1.bind frames?).flatMap (·.getD []))))) := by
  rw [← framesOf_eq]
  rfl

theorem style?_set (motion : Motion) (style : Fields Value) :
    (style? { motion with attributes := motion.attributes.set "style" (.object style) }).isSome =
      true := by
  simp [style?, Fields.get?_set]

theorem clears_position {old new : String} (different : old ≠ new) : (position old new).Clears := by
  intro motion
  rw [isIdle, position, holders_substitute id motion different]
  rfl

theorem clears_size {property scale origin : String} (different : property ≠ scale) :
    (size property scale origin).Clears := by
  intro motion
  rw [isIdle]
  exact congrArg List.isEmpty (holders_substitute _ motion different)

/-! ### What the changes leave to one another -/

/-- A rewrite of names apart from those of another does not change what the other looks at. -/
theorem column_position {old new property transform : String} (motion : Motion)
    (apart : property ≠ old ∧ property ≠ new) (transformApart : transform ≠ old ∧ transform ≠ new) :
    column ((position old new).act motion) property transform = column motion property transform :=
  column_substitute id motion apart transformApart

theorem column_size {old new origin property transform : String} (motion : Motion)
    (apart : property ≠ old ∧ property ≠ new) (transformApart : transform ≠ old ∧ transform ≠ new) :
    column ((size old new origin).act motion) property transform = column motion property transform :=
  column_substitute _ motion apart transformApart

/-- A position is spared by a rewrite that it does not see. -/
theorem position_spared {rewrite : Rewrite} {old new : String}
    (same : ∀ motion, column (rewrite.act motion) old new = column motion old new) :
    rewrite.Spares (position old new) where
  isIdle motion _ := by
    have idle (motion : Motion) : (position old new).isIdle motion = (column motion old new).isEmpty :=
      (isEmpty_column motion old new).symm
    rw [idle, idle, same]
  ready motion _ := by
    have ready (motion : Motion) : (position old new).ready motion = canReplace motion old new := rfl
    rw [ready, ready, canReplace_eq, canReplace_eq, same]

/-- A size is spared by a rewrite that it does not see and that leaves the style readable. -/
theorem size_spared {rewrite : Rewrite} {property scale origin : String}
    (same : ∀ motion, column (rewrite.act motion) property scale = column motion property scale)
    (styled : ∀ motion, rewrite.ready motion = true →
      (style? (rewrite.act motion)).isSome = (style? motion).isSome) :
    rewrite.Spares (size property scale origin) where
  isIdle motion _ := by
    have idle (motion : Motion) :
        (size property scale origin).isIdle motion = (column motion property scale).isEmpty :=
      (isEmpty_column motion property scale).symm
    rw [idle, idle, same]
  ready motion ready := by
    rw [ready_size, ready_size, canReplace_eq, canReplace_eq, same, styled motion ready]

theorem style?_size {property scale origin : String} (motion : Motion)
    (ready : (size property scale origin).ready motion = true) :
    (style? ((size property scale origin).act motion)).isSome = (style? motion).isSome := by
  have styled : (style? motion).isSome = true := by
    rw [ready_size, Bool.and_eq_true] at ready
    exact ready.1
  rw [styled]
  exact style?_set (motion.mapStates _) _

theorem clears_of_mem {rewrite : Rewrite} (member : rewrite ∈ rewrites) : rewrite.Clears := by
  simp only [rewrites, List.mem_cons, List.not_mem_nil, or_false] at member
  rcases member with rfl | rfl | rfl | rfl
  · exact clears_position (by decide)
  · exact clears_position (by decide)
  · exact clears_size (by decide)
  · exact clears_size (by decide)

theorem rewrites_spare : rewrites.Pairwise fun earlier later => later.Spares earlier := by
  simp only [rewrites, List.pairwise_cons, List.mem_cons, List.not_mem_nil, or_false,
    forall_eq_or_imp, forall_eq, false_implies, implies_true, List.Pairwise.nil, and_true]
  refine ⟨⟨?_, ?_, ?_⟩, ⟨?_, ?_⟩, ?_⟩
  · exact position_spared fun motion => column_position motion (by decide) (by decide)
  · exact position_spared fun motion => column_size motion (by decide) (by decide)
  · exact position_spared fun motion => column_size motion (by decide) (by decide)
  · exact position_spared fun motion => column_size motion (by decide) (by decide)
  · exact position_spared fun motion => column_size motion (by decide) (by decide)
  · exact size_spared (fun motion => column_size motion (by decide) (by decide)) style?_size

/-- All rewrites of a motion have settled, and no frame of it is past every finite number. -/
structure Settled (motion : Motion) (said : List String) : Prop where
  rewrites : ∀ rewrite ∈ rewrites, rewrite.Settled motion said
  finite : hasTooLarge motion = false

theorem Settled.mono {motion : Motion} {said more : List String} (settled : Settled motion said)
    (within : said ⊆ more) : Settled motion more :=
  ⟨fun rewrite member => (settled.rewrites rewrite member).mono within, settled.finite⟩

/-- Settled motions stay as they are. -/
theorem Settled.apply_eq_self {motion : Motion} {said : List String} (settled : Settled motion said) :
    (apply motion).1 = motion ∧ (apply motion).2 ⊆ said := by
  rw [apply_eq]
  exact inTurn_of_settled settled.rewrites

/-- The properties that can give way. -/
def layout : List String := ["top", "left", "width", "height"]

/-- Whether a frame of a property is a whole number past every finite one. -/
def isOverlarge (motion : Motion) (property : String) : Bool :=
  (holders motion property).any fun state =>
    match state.get? property with
    | some (.list items) => items.any isTooLarge
    | some value => isTooLarge value
    | none => false

theorem hasTooLarge_eq_false {motion : Motion} :
    hasTooLarge motion = false ↔ ∀ property ∈ layout, isOverlarge motion property = false := by
  rw [show hasTooLarge motion = layout.any (isOverlarge motion) from rfl, List.any_eq_false]
  simp only [Bool.not_eq_true]

theorem isOverlarge_eq (motion : Motion) (property : String) :
    isOverlarge motion property = (column motion property property).any fun cell =>
      match cell.1 with
      | some (.list items) => items.any isTooLarge
      | some value => isTooLarge value
      | none => false := by
  rw [isOverlarge, column, List.any_map]
  rfl

theorem column_act {rewrite : Rewrite} (member : rewrite ∈ rewrites) (motion : Motion)
    {property : String} (apart : property ≠ rewrite.old ∧ property ≠ rewrite.new) :
    column (rewrite.act motion) property property = column motion property property := by
  simp only [rewrites, List.mem_cons, List.not_mem_nil, or_false] at member
  rcases member with rfl | rfl | rfl | rfl
  · exact column_position motion apart apart
  · exact column_position motion apart apart
  · exact column_size motion apart apart
  · exact column_size motion apart apart

theorem ne_new {rewrite : Rewrite} (member : rewrite ∈ rewrites) {property : String}
    (inLayout : property ∈ layout) : property ≠ rewrite.new := by
  have apart : ∀ name ∈ rewrites.map Rewrite.new, ∀ property ∈ layout, property ≠ name := by decide
  exact apart rewrite.new (List.mem_map_of_mem member) property inLayout

/-- A rewrite brings no overlarge frame into the layout. -/
theorem isOverlarge_apply {rewrite : Rewrite} (member : rewrite ∈ rewrites) {motion : Motion}
    {property : String} (inLayout : property ∈ layout)
    (fits : isOverlarge motion property = false) :
    isOverlarge (rewrite.apply motion).1 property = false := by
  unfold Rewrite.apply
  split
  · exact fits
  · split
    · by_cases own : property = rewrite.old
      · subst own
        have cleared : holders (rewrite.act motion) rewrite.old = [] :=
          List.isEmpty_iff.mp (clears_of_mem member motion)
        simp [isOverlarge, cleared]
      · rw [isOverlarge_eq, column_act member motion ⟨own, ne_new member inLayout⟩, ← isOverlarge_eq]
        exact fits
    · exact fits

/-- **Transforms put in place of layout leave no layout that could give way**, and what there is to say
about the rest has been said. -/
theorem settled_apply {motion : Motion} (finite : hasTooLarge motion = false) :
    Settled (apply motion).1 (apply motion).2 := by
  rw [apply_eq]
  refine ⟨inTurn_settled (fun _ => clears_of_mem) rewrites_spare motion, ?_⟩
  rw [hasTooLarge_eq_false] at finite ⊢
  exact inTurn_induction (fun motion => ∀ property ∈ layout, isOverlarge motion property = false) finite
    fun _ member _ fits property inLayout => isOverlarge_apply member inLayout (fits property inLayout)

/-! ### Forests -/

theorem applyToForest_eq_ok {forest revised : Forest} {said : List String}
    (done : applyToForest forest = .ok (revised, said)) :
    (∀ motion ∈ forest.motions, hasTooLarge motion = false) ∧ forest.revise apply = (revised, said) ∧
      ∀ motion ∈ revised.motions, ∃ before ∈ forest.motions, (apply before).1 = motion :=
  Forest.revise_eq_ok done

/-- A forest that was optimized is settled. -/
theorem settled_applyToForest {forest revised : Forest} {said : List String}
    (done : applyToForest forest = .ok (revised, said)) :
    ∀ motion ∈ revised.motions, Settled motion said := by
  obtain ⟨finite, same, each⟩ := applyToForest_eq_ok done
  intro motion member
  obtain ⟨before, inside, rfl⟩ := each motion member
  have told : (forest.revise apply).2 ⊆ said := by rw [same]; exact List.Subset.refl said
  exact (settled_apply (finite before inside)).mono (Forest.told_revise.mp told before inside)

/-- A forest that is settled stays as it is. -/
theorem applyToForest_of_settled {forest : Forest} {said : List String}
    (settled : ∀ motion ∈ forest.motions, Settled motion said) :
    ∃ again ⊆ said, applyToForest forest = .ok (forest, again) := by
  have fit : ¬ forest.motions.any hasTooLarge = true := by
    rw [Bool.not_eq_true, List.any_eq_false]
    intro motion member
    simp [(settled motion member).finite]
  refine ⟨(forest.revise apply).2, ?_, ?_⟩
  · exact Forest.told_revise.mpr fun motion member => (settled motion member).apply_eq_self.2
  · have same : forest.map (fun motion => (apply motion).1) = forest :=
      Forest.map_eq_self fun motion member => (settled motion member).apply_eq_self.1
    rw [applyToForest, if_neg fit]
    exact congrArg Except.ok (Prod.ext same rfl)

end Transforms

end AnimationCode
