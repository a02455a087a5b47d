/-
**Where findings lie.**

A finding is about an element, and lies where the element does, or nowhere. So a report on elements whose places count
from one can be made.

* `Finding.IsPlaced`: a finding whose place counts from one, if it has one;
* `Report.isPlaced_check`: such are the findings about elements whose places do;
* `Report.failsOnly_issuesOf`, `Report.exists_issuesOf`: issues can be made of such findings, and fail only for others.
-/

import AnimationCode.Analysis.Report
import AnimationCode.Proofs.Analysis.Report
import AnimationCode.Proofs.Analysis.Shape
import AnimationCode.Proofs.Element.Place

namespace AnimationCode

open Outcome

/-- A finding whose place counts from one, if it has one. -/
def Finding.IsPlaced (finding : Finding) : Prop := ∀ place ∈ finding.location?, place.IsCounted

/-- Findings that lie at one place. -/
def LieAt (place : Option Location) (findings : List Finding) : Prop := ∀ finding ∈ findings, finding.location? = place

variable {place : Option Location} {findings more : List Finding}

theorem LieAt.append (first : LieAt place findings) (second : LieAt place more) : LieAt place (findings ++ more) :=
  List.forall_mem_append.mpr ⟨first, second⟩

theorem lieAt_nil : LieAt place [] := List.forall_mem_nil _

theorem lieAt_flatMap {α : Type} {items : List α} {check : α → List Finding} (each : ∀ item ∈ items, LieAt place (check item)) :
    LieAt place (items.flatMap check) := by
  intro finding member
  obtain ⟨item, inside, found⟩ := List.mem_flatMap.mp member
  exact each item inside finding found

/-! ### Shape -/

namespace Shape

variable (longest : Binary64) (place : Option Location)

theorem here_ofContentAt : OfContentAt place fun finding => finding.location? = place := fun _ _ _ _ _ => rfl

theorem lieAt_ofLabels (declared : Option (List String)) (phase : String) (value : Value) :
    LieAt place (ofLabels declared place phase value) := by
  unfold ofLabels
  split
  · exact lieAt_nil
  · intro found member
    obtain ⟨label, -, rfl⟩ := List.mem_map.mp member
    rfl

theorem lieAt_ofPhase (declared : Option (List String)) (phase : String) (value : Value) :
    LieAt place (ofPhase longest declared place phase value) := by
  unfold ofPhase
  split
  · exact List.forall_mem_singleton.mpr rfl
  · split
    · exact forall_ofOptions (here_ofContentAt place) value
    · split
      · split
        · exact lieAt_flatMap fun field _ => forall_ofState (here_ofContentAt place) field.2
        · exact forall_ofState (here_ofContentAt place) _
      · split
        · exact lieAt_nil
        · exact lieAt_ofLabels place declared phase value

theorem lieAt_ofMotion (declared : Option (List String)) (motion : Motion) :
    LieAt motion.location? (ofMotion longest declared motion) :=
  lieAt_flatMap fun field _ => lieAt_ofPhase longest motion.location? declared field.1 field.2

end Shape

theorem LieAt.isPlaced {motion : Motion} (lie : LieAt motion.location? findings) (placed : motion.IsPlaced) :
    ∀ finding ∈ findings, finding.IsPlaced := by
  intro finding member
  unfold Finding.IsPlaced
  rw [lie finding member]
  exact placed

mutual

theorem Shape.isPlaced_ofElement (longest : Binary64) (inherited : Option (List String)) :
    (element : Element) → (∀ motion ∈ element.motions, motion.IsPlaced) →
    ∀ finding ∈ ofElement longest inherited element, finding.IsPlaced
  | ⟨own, children⟩, placed => by
    rw [Element.motions] at placed
    obtain ⟨here, below⟩ := List.forall_mem_cons.mp placed
    rw [ofElement]
    exact List.forall_mem_append.mpr ⟨(lieAt_ofMotion longest _ own).isPlaced here, isPlaced_ofForest longest _ children below⟩

theorem Shape.isPlaced_ofForest (longest : Binary64) (inherited : Option (List String)) :
    (elements : List Element) → (∀ motion ∈ Element.motionsEach elements, motion.IsPlaced) →
    ∀ finding ∈ ofForest longest inherited elements, finding.IsPlaced
  | [], _ => by
    rw [ofForest]
    exact List.forall_mem_nil _
  | element :: rest, placed => by
    rw [Element.motionsEach] at placed
    obtain ⟨here, later⟩ := List.forall_mem_append.mp placed
    rw [ofForest]
    exact List.forall_mem_append.mpr ⟨isPlaced_ofElement longest inherited element here, isPlaced_ofForest longest inherited rest later⟩

end

/-! ### Performance and accessibility -/

theorem Performance.lieAt_ofMotion (long : Binary64) (motion : Motion) : LieAt motion.location? (ofMotion long motion) := by
  refine LieAt.append (fun found member => ?_) fun found member => ?_
  · obtain ⟨entry, -, rfl⟩ := List.mem_map.mp member
    rfl
  · obtain ⟨seconds, -, rfl⟩ := Option.map_eq_some_iff.mp (Option.mem_toList.mp member)
    rfl

theorem Accessibility.lieAt_ofMotion (short : Binary64) (motion : Motion) : LieAt motion.location? (ofMotion short motion) := by
  unfold ofMotion
  split_ifs <;> simp [LieAt]

namespace Report

/-! ### Reports -/

/-- The findings about elements whose places count from one. -/
theorem isPlaced_check {thresholds : Fields Value} {forest : Forest} (placed : ∀ motion ∈ forest.motions, motion.IsPlaced)
    (done : check thresholds forest = .ok findings) : ∀ finding ∈ findings, finding.IsPlaced := by
  have each {check : Motion → List Finding} (lie : ∀ motion, LieAt motion.location? (check motion)) :
      ∀ finding ∈ forest.motions.flatMap check, finding.IsPlaced := by
    intro finding member
    obtain ⟨motion, inside, found⟩ := List.mem_flatMap.mp member
    exact (lie motion).isPlaced (placed motion inside) finding found
  obtain ⟨told, -, done⟩ := Outcome.bind_eq_ok.mp done
  obtain ⟨shape, shaped, done⟩ := Outcome.bind_eq_ok.mp done
  obtain ⟨_, writable, done⟩ := Outcome.bind_eq_ok.mp done
  obtain ⟨-, rfl⟩ := Value.whenWritable_eq_ok.mp writable
  obtain ⟨performance, performed, done⟩ := Outcome.bind_eq_ok.mp done
  obtain ⟨accessibility, accessed, done⟩ := Outcome.bind_eq_ok.mp done
  cases done
  refine List.forall_mem_append.mpr ⟨List.forall_mem_append.mpr ⟨?_, ?_⟩, ?_⟩
  · obtain ⟨longest, -, made⟩ := Outcome.bind_eq_ok.mp shaped
    cases made
    exact Shape.isPlaced_ofForest longest none forest placed
  · obtain ⟨long, -, made⟩ := Outcome.bind_eq_ok.mp performed
    dsimp only at made
    split at made
    · cases made
    · cases made
      exact each (Performance.lieAt_ofMotion long)
  · obtain ⟨short, -, made⟩ := Outcome.bind_eq_ok.mp accessed
    dsimp only at made
    split at made
    · cases made
    · cases made
      exact each (Accessibility.lieAt_ofMotion short)

theorem isPlaced_bestPractice (component : Component) : ∀ finding ∈ bestPractice component, finding.IsPlaced := by
  unfold bestPractice
  split
  · split_ifs
    · exact List.forall_mem_nil _
    · exact List.forall_mem_singleton.mpr nofun
  · exact List.forall_mem_nil _

theorem isPlaced_escalate {rules : List String} (placed : ∀ finding ∈ findings, finding.IsPlaced) :
    ∀ finding ∈ escalate rules findings, finding.IsPlaced := by
  intro finding member
  rw [escalate_eq] at member
  obtain ⟨before, inside, rfl⟩ := List.mem_map.mp member
  unfold Finding.IsPlaced
  rw [location?_raised]
  exact placed before inside

theorem placeFaults_of_isCounted {place : Location} (counted : place.IsCounted) : placeFaults place.line place.column = [] := by
  obtain ⟨line, column⟩ := counted
  have line_ : ¬ (place.line : Int) < 1 := by omega
  have column_ : ¬ (place.column : Int) < 1 := by omega
  unfold placeFaults
  dsimp only
  rw [if_neg line_, if_neg column_]
  rfl

/-- Findings whose places count from one can be told. -/
theorem exists_issuesOf (placed : ∀ finding ∈ findings, finding.IsPlaced) : ∃ issues, issuesOf findings = .ok issues := by
  induction findings with
  | nil => exact ⟨[], rfl⟩
  | cons finding rest ih =>
    obtain ⟨here, later⟩ := List.forall_mem_cons.mp placed
    obtain ⟨issues, told⟩ := ih later
    have faultless : (finding.location?.map fun place => placeFaults place.line place.column).getD [] = [] := by
      cases at_ : finding.location? with
      | none => rfl
      | some place => exact placeFaults_of_isCounted (here place at_)
    rw [issuesOf, faultless, told]
    cases issue? finding with
    | none => exact ⟨issues, rfl⟩
    | some issue => exact ⟨issue :: issues, rfl⟩

/-- Findings that cannot be told have a place that does not count from one. -/
theorem failsOnly_issuesOf (findings : List Finding) :
    FailsOnly (fun failure => ∃ faults, failure = .invalidRecord faults) (issuesOf findings) := by
  induction findings with
  | nil => exact failsOnly_ok _
  | cons finding rest ih =>
    rw [issuesOf]
    split
    · exact ih
    · split
      · exact ih.bind fun _ _ => failsOnly_ok _
      · exact failsOnly_error ⟨_, rfl⟩

end Report

end AnimationCode
