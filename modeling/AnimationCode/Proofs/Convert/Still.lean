/-
**What a revision leaves alone.**

A revision changes what is animated and how. The elements stay where they are, one inside the other as before, each with
its tag, its place in the source, its text and the number of elements inside that are not animated.

* `Motion.still`, `Motion.withoutPhases`: what is left of a motion without what a revision may change, and without its phases;
* `Forest.map_still`: a pass that changes nothing else;
* `Component.exists_carried`, `Component.map_still_convert`: a conversion touches the phases first, and then the attributes;
* `Component.map_still_revise`: the forest of a revised component, with that alone, is the one before.
-/

import AnimationCode.Proofs.Convert.Passes
import AnimationCode.Proofs.Convert.Phases
import AnimationCode.Proofs.Element.Pairs
import AnimationCode.Proofs.Optimize.Guard
import AnimationCode.Proofs.Revision

namespace AnimationCode

/-- What no revision changes of a motion. -/
def Motion.still (motion : Motion) : Motion := { motion with phases := [], attributes := [], reducedMotion := false }

/-- All of a motion but its phases. -/
def Motion.withoutPhases (motion : Motion) : Motion := { motion with phases := [] }

theorem Motion.of_still_eq {motion other : Motion} (same : motion.still = other.still) :
    motion.location? = other.location? ∧ motion.content? = other.content? ∧ motion.plainMarkup = other.plainMarkup := by
  rw [still, still, Motion.mk.injEq] at same
  exact ⟨same.2.2.2.1, same.2.2.2.2.1, same.2.2.2.2.2.2.1⟩

theorem Motion.of_withoutPhases_eq {motion other : Motion} (same : motion.withoutPhases = other.withoutPhases) :
    motion.location? = other.location? ∧ motion.attributes = other.attributes ∧ motion.still = other.still := by
  have bare (motion : Motion) : motion.withoutPhases.still = motion.still := rfl
  refine ⟨?_, ?_, by rw [← bare motion, same, bare]⟩
  · rw [withoutPhases, withoutPhases, Motion.mk.injEq] at same
    exact same.2.2.2.1
  · rw [withoutPhases, withoutPhases, Motion.mk.injEq] at same
    exact same.2.2.1

/-- A change of every motion that touches nothing else. -/
theorem Forest.map_still {change : Motion → Motion} (same : ∀ motion, (change motion).still = motion.still)
    (forest : Forest) : (forest.map change).map Motion.still = forest.map Motion.still := by
  have pairs : Forest.Pairs (fun _ own after => after.still = own.still) forest (forest.map change) :=
    pairs_map fun motion _ => same motion
  exact pairs.map_eq fun _ _ _ => id

namespace Transforms

theorem still_act {rewrite : Rewrite} (member : rewrite ∈ rewrites) (motion : Motion) :
    (rewrite.act motion).still = motion.still := by
  simp only [rewrites, List.mem_cons, List.not_mem_nil, or_false] at member
  rcases member with rfl | rfl | rfl | rfl <;> rfl

theorem still_apply (motion : Motion) : (apply motion).1.still = motion.still := by
  rw [apply_eq]
  refine Rewrite.inTurn_induction (·.still = motion.still) rfl fun rewrite member other same => ?_
  unfold Rewrite.apply
  split
  · exact same
  · split
    · exact (still_act member other).trans same
    · exact same

end Transforms

theorem Guard.still_apply (short : Binary64) (motion : Motion) : (apply short motion).1.still = motion.still := by
  obtain ⟨marked, same⟩ := apply_fst short motion
  rw [same]
  rfl

namespace Convert

variable {target : Framework}

theorem withoutPhases_respell (motion : Motion) (name : String) :
    (respell target motion name).1.withoutPhases = motion.withoutPhases := by
  unfold respell
  split
  · rfl
  · split
    · split <;> rfl
    · rfl

theorem withoutPhases_phases (motion : Motion) : (phases target motion).1.withoutPhases = motion.withoutPhases := by
  have all (names : List String) : ∀ motion, (respellAll target names motion).1.withoutPhases = motion.withoutPhases := by
    induction names with
    | nil => exact fun _ => rfl
    | cons name rest ih =>
      intro motion
      rw [respellAll_cons]
      exact (ih _).trans (withoutPhases_respell motion name)
  exact all motion.phases.keys motion

end Convert

namespace Labels

theorem withoutPhases_setResolved (variants : Fields Value) (motion : Motion) (phase : String) (label : Value) :
    (setResolved variants motion phase label).withoutPhases = motion.withoutPhases := by
  unfold setResolved
  dsimp only
  split <;> rfl

theorem withoutPhases_resolve (labels : Fields Value) (motion : Motion) :
    (resolve labels motion).1.withoutPhases = motion.withoutPhases := by
  have all (variants : Fields Value) (wanted : Fields Value) : ∀ motion : Motion, (wanted.foldl (fun acc field =>
      setResolved variants acc field.1 field.2) motion).withoutPhases = motion.withoutPhases := by
    induction wanted with
    | nil => exact fun _ => rfl
    | cons field rest ih => exact fun motion => (ih _).trans (withoutPhases_setResolved variants motion field.1 field.2)
  unfold resolve
  split
  · exact all _ _ motion
  · split <;> rfl

mutual

theorem pairs_withoutPhases_resolveElement (around : Option Motion) (inherited : Fields Value) : (element : Element) →
    Element.Pairs (fun _ own after => after.withoutPhases = own.withoutPhases) around element (resolveElement inherited element).1
  | ⟨own, children⟩ =>
    .intro (withoutPhases_resolve _ own) (pairs_withoutPhases_resolveEach (some own) (scope inherited own) children)

theorem pairs_withoutPhases_resolveEach (around : Option Motion) (inherited : Fields Value) : (elements : List Element) →
    Element.PairsEach (fun _ own after => after.withoutPhases = own.withoutPhases) around elements (resolveEach inherited elements).1
  | [] => .nil
  | element :: rest =>
    .cons (pairs_withoutPhases_resolveElement around inherited element) (pairs_withoutPhases_resolveEach around inherited rest)

end

end Labels

namespace Component

variable {target : Framework} {component revised converted : Component} {account told : Account}

/-- Before a conversion turns to the attributes, it touches the phases alone. -/
theorem pairs_withoutPhases_expandStagger {forest staggered : Forest} {noted : List Remark}
    (done : expandStagger target (labelled target forest) = .ok (staggered, noted)) :
    Forest.Pairs (fun _ own after => after.withoutPhases = own.withoutPhases) forest staggered := by
  have spelling : Forest.Pairs (fun _ own after => after.withoutPhases = own.withoutPhases) forest (spelled target forest) :=
    Forest.pairs_map fun motion _ => Convert.withoutPhases_phases motion
  have labels : Forest.Pairs (fun _ own after => after.withoutPhases = own.withoutPhases) (spelled target forest)
      (labelled target forest) := by
    unfold labelled resolveLabels
    split
    · exact Labels.pairs_withoutPhases_resolveEach none [] _
    · have same (_ : Option Motion) (motion : Motion) : motion.withoutPhases = motion.withoutPhases := rfl
      exact Forest.pairs_self same _
  have delays : Forest.Pairs (fun _ own after => after.withoutPhases = own.withoutPhases) (labelled target forest) staggered :=
    (pairs_expandStagger done).mono fun _ _ _ staggered => by rw [staggered.same]; rfl
  have both {own middle last : Motion} (earlier : middle.withoutPhases = own.withoutPhases)
      (later : last.withoutPhases = middle.withoutPhases) : last.withoutPhases = own.withoutPhases := later.trans earlier
  exact (spelling.after labels fun _ _ _ _ => both).after delays fun _ _ _ _ => both

/-- A conversion carries over motions that it touched in their phases alone, and tells what is lost of each. -/
theorem exists_carried (done : component.convert target account = .ok (converted, told)) :
    ∃ staggered, Forest.Pairs (fun _ own after => after.withoutPhases = own.withoutPhases) component.elements staggered ∧
      converted.elements = carried target component.bindings staggered ∧
      ∀ motion ∈ staggered.motions, ∀ limitation, .limitation limitation ∈ (carryOver target component.bindings motion).2 →
        limitation ∈ told.limitations := by
  obtain ⟨staggered, noted, expanded, after, rfl⟩ := convert_eq_ok done
  refine ⟨staggered, pairs_withoutPhases_expandStagger expanded, after, fun motion member limitation remarked => ?_⟩
  refine mem_limitations_of_mem (List.mem_append_left _ (List.mem_append_left _ ?_))
  exact List.mem_append_left _ (List.mem_append_right _ (List.mem_flatMap.mpr ⟨motion, member, remarked⟩))

/-- A conversion leaves the elements where they are. -/
theorem map_still_convert (done : component.convert target account = .ok (converted, told)) :
    converted.elements.map Motion.still = component.elements.map Motion.still := by
  obtain ⟨staggered, pairs, after, -⟩ := exists_carried done
  have attributes : converted.elements.map Motion.still = staggered.map Motion.still := by
    rw [after]
    exact Forest.map_still (fun motion => by rw [carryOver_fst]; rfl) staggered
  rw [attributes]
  exact pairs.map_eq fun _ _ _ same => (Motion.of_withoutPhases_eq same).2.2

/-- An optimization leaves the elements where they are. -/
theorem map_still_optimize {focus : Focus} {thresholds : Fields Value}
    (done : component.optimize focus thresholds account = .ok (revised, told)) :
    revised.elements.map Motion.still = component.elements.map Motion.still := by
  obtain ⟨middle, between, first, second⟩ := optimize_eq_ok done
  have halfway : middle.elements.map Motion.still = component.elements.map Motion.still := by
    rcases first with ⟨-, first⟩ | ⟨-, rfl, -⟩
    · obtain ⟨forest, said, result, rfl, -⟩ := optimizePerformance_eq_ok first
      obtain ⟨-, same, -⟩ := Transforms.applyToForest_eq_ok result
      cases same
      exact Forest.map_still Transforms.still_apply component.elements
    · rfl
  rcases second with ⟨-, second⟩ | ⟨-, rfl, -⟩
  · obtain ⟨short, forest, said, -, result, rfl, -⟩ := optimizeAccessibility_eq_ok second
    obtain ⟨-, same, -⟩ := Guard.applyToForest_eq_ok result
    cases same
    exact (Forest.map_still (Guard.still_apply short) middle.elements).trans halfway
  · exact halfway

/-- **A revision changes only what is animated and how.** -/
theorem map_still_revise {context : Context} {thresholds : Fields Value}
    (done : component.revise account context thresholds = .ok (revised, told)) :
    revised.elements.map Motion.still = component.elements.map Motion.still := by
  obtain ⟨middle, between, first, rest⟩ := revise_eq_ok done
  have halfway := map_still_optimize first
  rcases rest with ⟨-, rfl⟩ | ⟨-, converted, second, rfl⟩
  · exact halfway
  · exact (map_still_convert second).trans halfway

end Component

end AnimationCode
