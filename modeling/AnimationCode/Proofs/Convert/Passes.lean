/-
**The passes of a conversion.**

A conversion spells the phases, resolves labels, writes out delays, and then turns to the attributes; each pass works on
what the one before left. There is nothing to remark on a motion whose attributes the target understands.

* `Attributes.convert_fst`, `Attributes.convert_of_portable`: what the last pass does to the attributes of a motion;
* `Component.convert_eq_ok`: the converted component and the remarks on it, pass by pass;
* `Component.expandStagger_eq_ok`, `Component.pairs_expandStagger`: what writing out delays may change;
* `Component.settled_convert`: no delays in numbers are left to write out;
* `Component.mem_limitations_of_mem`: what a pass remarks is told in the end.
-/

import AnimationCode.Proofs.Account
import AnimationCode.Proofs.Convert.Stagger
import AnimationCode.Proofs.Fields
import AnimationCode.Proofs.Outcome
import AnimationCode.Revision

namespace AnimationCode

namespace Attributes

variable {target : Framework} {motion : Motion}

theorem selectorToClass_fst (target : Framework) (motion : Motion) :
    (selectorToClass target motion).1 = { motion with attributes := (selectorToClass target motion).1.attributes } := by
  unfold selectorToClass
  split
  · rfl
  · rfl
  · split
    · rfl
    · dsimp only
      split
      · split <;> rfl
      · rfl

theorem classToSelector_eq (target : Framework) (motion : Motion) :
    classToSelector target motion = { motion with attributes := (classToSelector target motion).attributes } := by
  unfold classToSelector
  split
  · split
    · split <;> rfl
    · rfl
  · rfl

/-- Only the attributes of a converted motion differ. -/
theorem convert_fst (target : Framework) (motion : Motion) :
    (convert target motion).1 = { motion with attributes := (convert target motion).1.attributes } := by
  unfold convert dropOthers
  dsimp only
  rw [classToSelector_eq, selectorToClass_fst]

/-- Attributes that a framework understands: none is a selector, and a viewport says at most whether it counts once. -/
structure ArePortable (target : Framework) (attributes : Fields Value) : Prop where
  each : ∀ name ∈ attributes.keys, isPortable target name = true
  selector : attributes.has "selector" = false
  viewport : ∀ options, attributes.get? "viewport" = some (.object options) → ∀ name ∈ Fields.keys options, name = "once"

theorem viewportRemarks_of_portable (portable : ArePortable target motion.attributes) : viewportRemarks target motion = [] := by
  unfold viewportRemarks
  split
  · rename_i options found
    have nothing : (Fields.keys options).filter (· != "once") = [] := by
      rw [List.filter_eq_nil_iff]
      intro name member
      simp [portable.viewport options found name member]
    rw [nothing]
    exact if_pos (.inr List.mergeSort_nil)
  · rfl

theorem selectorToClass_of_portable (portable : ArePortable target motion.attributes) :
    selectorToClass target motion = (motion, []) := by
  have absent : motion.attributes.get? "selector" = none := by
    have := portable.selector
    rwa [Fields.has, Option.isSome_eq_false_iff, Option.isNone_iff_eq_none] at this
  rw [selectorToClass, absent]

theorem stays_of_portable {name : String} (portable : isPortable target name = true) : stays target name = true := by
  rw [stays, portable, Bool.or_true]

/-- Portable attributes stay as they are, and there is nothing to remark on them. -/
theorem convert_of_portable (markup : target ≠ .js) (portable : ArePortable target motion.attributes) :
    convert target motion = (motion, []) := by
  have selected : classToSelector target motion = motion := if_neg fun both => markup both.1
  have kept : motion.attributes.filter (fun field => stays target field.1) = motion.attributes := by
    refine List.filter_eq_self.mpr fun field member => stays_of_portable (portable.each field.1 ?_)
    exact List.mem_map_of_mem member
  have dropped : dropRemarks target motion = [] := by
    rw [dropRemarks, List.map_eq_nil_iff, List.filter_eq_nil_iff]
    intro name member
    simp [stays_of_portable (portable.each name member)]
  rw [convert, selectorToClass_of_portable portable]
  dsimp only
  rw [selected, viewportRemarks_of_portable portable, dropped, dropOthers]
  exact Prod.ext (congrArg (fun attributes => { motion with attributes := attributes }) kept) rfl

end Attributes

namespace References

/-- Where nothing is bound, no expression names what is lost. -/
theorem remarks_of_unbound (target : Framework) (motion : Motion) : remarks target [] motion = [] := by
  have unused (value : Value) : boundNames [] value = [] := by
    have nothing (source : String) : (names source).filter (List.contains []) = [] :=
      List.filter_eq_nil_iff.mpr fun _ _ => Bool.false_ne_true
    rw [boundNames, funext nothing, List.flatMap_eq_nil_iff.mpr fun _ _ => rfl]
    rfl
  rw [remarks, List.filterMap_eq_nil_iff]
  intro field _
  rw [remark?, unused]

end References

namespace Component

variable {target : Framework} {component converted : Component} {account told : Account} {forest staggered : Forest}
  {remarks : List Remark}

/-- A forest with its phases spelled for a framework. -/
def spelled (target : Framework) (forest : Forest) : Forest := forest.map fun motion => (Convert.phases target motion).1

/-- A forest with its phases spelled for a framework, and its labels resolved where there are no variants. -/
def labelled (target : Framework) (forest : Forest) : Forest := (resolveLabels target (spelled target forest)).1

/-- A forest with its attributes for a framework. -/
def carried (target : Framework) (bindings : List String) (forest : Forest) : Forest :=
  forest.map fun motion => (carryOver target bindings motion).1

/-- The remark on elements that are no longer inside one another. -/
def flattened (target : Framework) (forest : Forest) : List Remark :=
  if target == .js && forest.any fun element => !element.children.isEmpty then
    [Convert.limitAll "nesting" "Nested motion elements were flattened into selector lookups"]
  else []

/-- What is remarked on a forest, pass by pass. -/
def forestRemarks (target : Framework) (bindings : List String) (forest staggered : Forest) (noted : List Remark) :
    List Remark :=
  (forest.revise (Convert.phases target)).2 ++ (resolveLabels target (spelled target forest)).2 ++ noted ++
    (staggered.revise (carryOver target bindings)).2 ++ flattened target (carried target bindings staggered)

theorem convertForest_eq_ok {bindings : List String} {after : Forest}
    (done : convertForest target bindings forest = .ok (after, remarks)) :
    ∃ staggered noted, expandStagger target (labelled target forest) = .ok (staggered, noted) ∧
      after = carried target bindings staggered ∧ remarks = forestRemarks target bindings forest staggered noted := by
  unfold convertForest at done
  obtain ⟨found, result, same⟩ := Outcome.bind_eq_ok.mp done
  cases same
  exact ⟨found.1, found.2, result, rfl, rfl⟩

theorem convert_eq_ok (done : component.convert target account = .ok (converted, told)) :
    ∃ staggered noted, expandStagger target (labelled target component.elements) = .ok (staggered, noted) ∧
      converted.elements = carried target component.bindings staggered ∧
      told = account.addRemarks (forestRemarks target component.bindings component.elements staggered noted ++
        component.surroundings target ++ component.hooks.flatMap (Hooks.remarks target)) := by
  obtain ⟨found, result, made⟩ := Outcome.bind_eq_ok.mp done
  cases made
  obtain ⟨staggered, noted, expanded, after, same⟩ := convertForest_eq_ok result
  exact ⟨staggered, noted, expanded, after, by rw [same]⟩

/-- Carrying a motion over touches its attributes alone. -/
theorem carryOver_fst (target : Framework) (bindings : List String) (motion : Motion) :
    (carryOver target bindings motion).1 =
      { motion with attributes := (carryOver target bindings motion).1.attributes } :=
  Attributes.convert_fst target motion

/-- What a pass remarks is told in the end. -/
theorem mem_limitations_of_mem {limitation : Limitation} (member : .limitation limitation ∈ remarks) :
    limitation ∈ (account.addRemarks remarks).limitations := by
  rw [Account.addRemarks_eq]
  exact items_subset_tellAll _ _ (List.mem_filterMap.mpr ⟨_, member, rfl⟩)

/-- Delays are written out where the framework has no options for them, and nothing changes elsewhere. -/
theorem expandStagger_eq_ok {noted : List Remark} (done : expandStagger target forest = .ok (staggered, noted)) :
    ((target = .vue ∨ target = .js) ∧ ∃ found, Stagger.expandEach none 0 0 forest = .ok (staggered, found) ∧
      noted = if found then [.note Stagger.remark] else []) ∨
    (¬ (target = .vue ∨ target = .js) ∧ staggered = forest ∧ noted = []) := by
  unfold expandStagger at done
  split at done
  · rename_i written
    obtain ⟨found, result, same⟩ := Outcome.bind_eq_ok.mp done
    cases same
    exact .inl ⟨written, found.2, result, rfl⟩
  · rename_i kept
    cases done
    exact .inr ⟨kept, rfl, rfl⟩

/-- What writing out delays may change in a forest. -/
theorem pairs_expandStagger {noted : List Remark} (done : expandStagger target forest = .ok (staggered, noted)) :
    Forest.Pairs (fun around own after => own.Staggered ((target = .vue ∨ target = .js) ∧
      (Stagger.asks own = true ∨ around.any Stagger.asks = true)) after) forest staggered := by
  rcases expandStagger_eq_ok done with ⟨written, found, result, -⟩ | ⟨-, rfl, -⟩
  · refine (Stagger.pairs_expandForest Stagger.related_settle result).mono fun around own after related => ?_
    exact ⟨related.same, related.differs, fun silent => related.unless_ fun asked => silent ⟨written, asked⟩⟩
  · exact Forest.pairs_self (fun _ _ => ⟨rfl, .inl rfl, fun _ => rfl⟩) staggered

/-- Where delays are written out, an element with others inside asks for none that are numbers. -/
theorem settled_expandStagger {noted : List Remark} (written : target = .vue ∨ target = .js)
    (done : expandStagger target forest = .ok (staggered, noted)) :
    ∀ part ∈ Element.partsEach staggered, part.children ≠ [] → Stagger.ofMotion? part.own = none := by
  rcases expandStagger_eq_ok done with ⟨-, found, result, -⟩ | ⟨kept, -, -⟩
  · exact Stagger.settled_expandEach forest result
  · exact absurd written kept

/-- In a component that became a template or calls, no element with others inside asks for delays that are numbers. -/
theorem settled_convert (written : target = .vue ∨ target = .js)
    (done : component.convert target account = .ok (converted, told)) :
    ∀ part ∈ Element.partsEach converted.elements, part.children ≠ [] → Stagger.ofMotion? part.own = none := by
  obtain ⟨staggered, noted, expanded, after, -⟩ := convert_eq_ok done
  intro part member inside
  rw [after, carried, Forest.map, Element.partsEach_mapEach] at member
  obtain ⟨⟨own, children⟩, known, rfl⟩ := List.mem_map.mp member
  have some_ : children ≠ [] := by
    rintro rfl
    exact inside rfl
  have settled := settled_expandStagger written expanded _ known some_
  rw [Element.map, carryOver_fst]
  exact settled

/-- Writing out delays is noted, and nothing else is said of it. -/
theorem remark_of_expandStagger {noted : List Remark} (done : expandStagger target forest = .ok (staggered, noted)) :
    ∀ remark ∈ noted, remark = .note Stagger.remark := by
  rcases expandStagger_eq_ok done with ⟨-, found, -, rfl⟩ | ⟨-, -, rfl⟩
  · intro remark member
    split at member
    · exact List.mem_singleton.mp member
    · cases member
  · exact List.forall_mem_nil _

theorem exists_expandStagger (moderate : target ≠ .react → Stagger.AreModerate forest.motions) :
    ∃ staggered noted, expandStagger target forest = .ok (staggered, noted) := by
  unfold expandStagger
  split
  · rename_i written
    have other : target ≠ .react := by
      rcases written with rfl | rfl <;> decide
    have alone : ∀ stagger ∈ (none : Option Stagger), stagger.Fits ∧ 0 + forest.length ≤ 0 ∧ 0 ≤ Stagger.mostMotions := nofun
    obtain ⟨staggered, found, done⟩ := Stagger.exists_expandEach forest alone (moderate other)
    rw [done]
    exact ⟨_, _, rfl⟩
  · exact ⟨_, _, rfl⟩

end Component

end AnimationCode
