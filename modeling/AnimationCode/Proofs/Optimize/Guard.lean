/-
**Guarding what never rests, a second time.**

No transform is called like the transition, and none takes its place. So a motion whose transitions were named once keeps
them so.

* `Guard.settled_applyToForest`: after guarding, no motion without a mark is rapid;
* `Guard.applyToForest_of_settled`: a forest in which none is stays as it is;
* `Transforms.Settled.guard`: a mark gives no transform anything to do;
* `Transforms.isNamedOnce_apply`, `Guard.isNamedOnce_apply`: the names of the transitions after both.
-/

import AnimationCode.Optimize.Guard
import AnimationCode.Proofs.Element.States
import AnimationCode.Proofs.Optimize.Transforms

namespace AnimationCode

namespace Guard

/-- A motion that gives way already, or needs not to. -/
def Settled (short : Binary64) (motion : Motion) : Prop :=
  motion.reducedMotion = true ∨ rapid? short motion = none ∧ isUnfit short motion = false

theorem apply_of_settled {short : Binary64} {motion : Motion} (settled : Settled short motion) :
    apply short motion = (motion, []) := by
  unfold apply
  rcases settled with marked | ⟨calm, -⟩
  · rw [if_pos marked]
  · rw [calm]
    split <;> rfl

theorem isUnfit_of_settled {short : Binary64} {motion : Motion} (settled : Settled short motion) :
    isUnfit short motion = false := by
  rcases settled with marked | ⟨-, fit⟩
  · rw [isUnfit, marked]
    rfl
  · exact fit

/-- A motion has settled once it was guarded. -/
theorem settled_apply {short : Binary64} {motion : Motion} (fit : isUnfit short motion = false) :
    Settled short (apply short motion).1 := by
  unfold apply
  split
  · rename_i marked
    exact Or.inl marked
  · split
    · exact Or.inl rfl
    · rename_i calm
      exact Or.inr ⟨calm, fit⟩

theorem applyToForest_eq_ok {short : Binary64} {forest revised : Forest} {said : List String}
    (done : applyToForest short forest = .ok (revised, said)) :
    (∀ motion ∈ forest.motions, isUnfit short motion = false) ∧
      forest.revise (apply short) = (revised, said) ∧
      ∀ motion ∈ revised.motions, ∃ before ∈ forest.motions, (apply short before).1 = motion :=
  Forest.revise_eq_ok done

/-- After guarding, no motion without a mark is rapid. -/
theorem settled_applyToForest {short : Binary64} {forest revised : Forest} {said : List String}
    (done : applyToForest short forest = .ok (revised, said)) :
    ∀ motion ∈ revised.motions, Settled short motion := by
  obtain ⟨fit, -, each⟩ := applyToForest_eq_ok done
  intro motion member
  obtain ⟨before, inside, rfl⟩ := each motion member
  exact settled_apply (fit before inside)

/-- A forest that is settled stays as it is, and there is nothing to say. -/
theorem applyToForest_of_settled {short : Binary64} {forest : Forest}
    (settled : ∀ motion ∈ forest.motions, Settled short motion) :
    applyToForest short forest = .ok (forest, []) := by
  have fit : ¬ forest.motions.any (isUnfit short) = true := by
    rw [Bool.not_eq_true, List.any_eq_false]
    intro motion member
    simp [isUnfit_of_settled (settled motion member)]
  have same : forest.map (fun motion => (apply short motion).1) = forest :=
    Forest.map_eq_self fun motion member => by rw [apply_of_settled (settled motion member)]
  have silent : (forest.revise (apply short)).2 = [] := by
    rw [List.eq_nil_iff_forall_not_mem]
    intro word spoken
    obtain ⟨motion, member, inside⟩ := List.mem_flatMap.mp spoken
    rw [apply_of_settled (settled motion member)] at inside
    cases inside
  rw [applyToForest, if_neg fit]
  exact congrArg Except.ok (Prod.ext same silent)

/-- The motion that a guarded one was, but for its mark. -/
theorem apply_fst (short : Binary64) (motion : Motion) :
    ∃ marked, (apply short motion).1 = { motion with reducedMotion := marked } := by
  unfold apply
  split
  · exact ⟨motion.reducedMotion, rfl⟩
  · split
    · exact ⟨true, rfl⟩
    · exact ⟨motion.reducedMotion, rfl⟩

end Guard

namespace Transforms

theorem ready_marked {rewrite : Rewrite} (member : rewrite ∈ rewrites) (motion : Motion)
    (marked : Bool) :
    rewrite.ready { motion with reducedMotion := marked } = rewrite.ready motion := by
  simp only [rewrites, List.mem_cons, List.not_mem_nil, or_false] at member
  rcases member with rfl | rfl | rfl | rfl <;> rfl

/-- A mark gives no transform anything to do. -/
theorem Settled.guard {motion : Motion} {said : List String} (settled : Settled motion said)
    (short : Binary64) : Settled (Guard.apply short motion).1 said := by
  obtain ⟨marked, same⟩ := Guard.apply_fst short motion
  rw [same]
  refine ⟨fun rewrite member => ?_, settled.finite⟩
  have before := settled.rewrites rewrite member
  exact ⟨by rw [ready_marked member]; exact before.refuses, before.given⟩

/-! ### Names -/

theorem keys_substitute (old new : String) (change : Binary64 → Binary64) (state : Fields Value) :
    Fields.keys (substitute old new change state) = (Fields.keys state).map fun name => if name = old then new else name := by
  rw [Fields.keys, Fields.keys, substitute, List.map_map, List.map_map]
  refine List.map_congr_left fun field _ => ?_
  simp only [Function.comp_apply]
  split <;> rfl

theorem count_substitute {old new name : String} (change : Binary64 → Binary64) (state : Fields Value) (notOld : name ≠ old)
    (notNew : name ≠ new) :
    (Fields.keys (substitute old new change state)).count name = (Fields.keys state).count name := by
  rw [keys_substitute]
  induction Fields.keys state with
  | nil => rfl
  | cons key rest ih =>
    rw [List.map_cons, List.count_cons, List.count_cons, ih]
    by_cases here : key = old
    · simp [here, notNew.symm, notOld.symm]
    · rw [if_neg here]

/-- A rewrite substitutes its transform for its property in every state. -/
theorem phases_act {rewrite : Rewrite} (member : rewrite ∈ rewrites) (motion : Motion) :
    ∃ change, (rewrite.act motion).phases = (motion.mapStates (substitute rewrite.old rewrite.new change)).phases := by
  simp only [rewrites, List.mem_cons, List.not_mem_nil, or_false] at member
  rcases member with rfl | rfl | rfl | rfl <;> exact ⟨_, rfl⟩

theorem isNamedOnce_act {rewrite : Rewrite} (member : rewrite ∈ rewrites) {motion : Motion} (named : motion.IsNamedOnce) :
    (rewrite.act motion).IsNamedOnce := by
  have notOld : Phase.transition.name ≠ rewrite.old := by
    have apart : ∀ name ∈ rewrites.map Rewrite.old, Phase.transition.name ≠ name := by decide
    exact apart rewrite.old (List.mem_map_of_mem member)
  have notNew : Phase.transition.name ≠ rewrite.new := by
    have apart : ∀ name ∈ rewrites.map Rewrite.new, Phase.transition.name ≠ name := by decide
    exact apart rewrite.new (List.mem_map_of_mem member)
  obtain ⟨change, same⟩ := phases_act member motion
  have substituted : (motion.mapStates (substitute rewrite.old rewrite.new change)).IsNamedOnce :=
    named.mapStates fun state once => by rwa [count_substitute change state notOld notNew]
  refine substituted.within (by rw [same]; exact substituted.phases) fun phase value _ found => ?_
  rwa [Motion.phase?, same] at found

/-- Transforms in place of layout leave transitions named once. -/
theorem isNamedOnce_apply {motion : Motion} (named : motion.IsNamedOnce) : (apply motion).1.IsNamedOnce := by
  rw [apply_eq]
  refine Rewrite.inTurn_induction Motion.IsNamedOnce named fun rewrite member motion named => ?_
  unfold Rewrite.apply
  split
  · exact named
  · split
    · exact isNamedOnce_act member named
    · exact named

end Transforms

namespace Guard

/-- A mark leaves transitions named once. -/
theorem isNamedOnce_apply (short : Binary64) {motion : Motion} (named : motion.IsNamedOnce) :
    (apply short motion).1.IsNamedOnce := by
  obtain ⟨marked, same⟩ := apply_fst short motion
  rw [same]
  exact named.within named.phases fun _ _ _ => id

end Guard

end AnimationCode
