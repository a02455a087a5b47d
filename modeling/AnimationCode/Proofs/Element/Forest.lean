/-
**Forests that a change leaves alone, and forests that say the same.**

What was read mirrors what was written if both have the same trees with the same tags, and each phase has the
value that was written. Numbers are read by value: a whole number comes back as an integer.

* `Forest.map_eq_self`: a change that leaves every motion alone leaves the forest alone;
* `Forest.mem_motions_revise`: the motions of a revised forest are the revised motions;
* `Forest.revise_eq_ok`: so it is where unfit motions are refused;
* `Motion.MovesAs`, `Motion.Agrees`: one motion says what another does;
* `Element.Mirrors`, `Forest.Mirrors`: the same nesting and order, with motions that agree.
-/

import AnimationCode.Element.Basic
import AnimationCode.Proofs.Outcome
import AnimationCode.Proofs.Value.Literal

namespace AnimationCode

namespace Element

mutual

theorem map_eq_self (change : Motion → Motion) (element : Element)
    (same : ∀ motion ∈ motions element, change motion = motion) : map change element = element := by
  obtain ⟨own, children⟩ := element
  have sameOwn : change own = own := same own (by simp [motions])
  have sameChildren : ∀ motion ∈ motionsEach children, change motion = motion :=
    fun motion member => same motion (by simp [motions, member])
  rw [map, sameOwn, mapEach_eq_self change children sameChildren]

theorem mapEach_eq_self (change : Motion → Motion) (elements : List Element)
    (same : ∀ motion ∈ motionsEach elements, change motion = motion) :
    mapEach change elements = elements := by
  match elements with
  | [] => rfl
  | element :: rest =>
    have sameFirst : ∀ motion ∈ motions element, change motion = motion :=
      fun motion member => same motion (by simp [motionsEach, member])
    have sameRest : ∀ motion ∈ motionsEach rest, change motion = motion :=
      fun motion member => same motion (by simp [motionsEach, member])
    rw [mapEach, map_eq_self change element sameFirst, mapEach_eq_self change rest sameRest]

end

end Element

namespace Forest

/-- A forest is changed element by element. -/
theorem map_eq_map (change : Motion → Motion) (forest : Forest) : forest.map change = List.map (Element.map change) forest := by
  induction forest with
  | nil => rfl
  | cons element rest ih => exact congrArg (Element.map change element :: ·) ih

/-- The motions of two forests side by side. -/
theorem motions_append (forest others : Forest) : Forest.motions (forest ++ others) = forest.motions ++ others.motions := by
  induction forest with
  | nil => rfl
  | cons element rest ih =>
    show element.motions ++ Forest.motions (rest ++ others) = (element.motions ++ Forest.motions rest) ++ others.motions
    rw [ih, List.append_assoc]

theorem map_eq_self {change : Motion → Motion} {forest : Forest}
    (same : ∀ motion ∈ forest.motions, change motion = motion) : forest.map change = forest :=
  Element.mapEach_eq_self change forest same

theorem mem_motions_revise {α : Type} {change : Motion → Motion × List α} {forest : Forest}
    {motion : Motion} :
    motion ∈ (forest.revise change).1.motions ↔ ∃ before ∈ forest.motions, (change before).1 = motion := by
  rw [show (forest.revise change).1 = forest.map fun motion => (change motion).1 from rfl, motions_map,
    List.mem_map]

/-- A forest that is revised unless a motion is unfit: none is, and its motions are the revised ones. -/
theorem revise_eq_ok {α : Type} {unfit : Motion → Bool} {failure : Failure} {change : Motion → Motion × List α}
    {forest revised : Forest} {said : List α}
    (done : (if forest.motions.any unfit then .error failure else .ok (forest.revise change) :
      Outcome (Forest × List α)) = .ok (revised, said)) :
    (∀ motion ∈ forest.motions, unfit motion = false) ∧ forest.revise change = (revised, said) ∧
      ∀ motion ∈ revised.motions, ∃ before ∈ forest.motions, (change before).1 = motion := by
  obtain ⟨fit, same⟩ := Outcome.ite_eq_ok.mp done
  refine ⟨fun motion member => ?_, same, fun motion member => mem_motions_revise.mp (by rwa [same])⟩
  simpa using List.any_eq_false.mp (Bool.not_eq_true _ ▸ fit) motion member

/-- What a revision tells is what it tells of the motions. -/
theorem told_revise {α : Type} {change : Motion → Motion × List α} {forest : Forest} {said : List α} :
    (forest.revise change).2 ⊆ said ↔ ∀ motion ∈ forest.motions, (change motion).2 ⊆ said := by
  constructor
  · intro within motion member word inside
    exact within (List.mem_flatMap.mpr ⟨motion, member, inside⟩)
  · intro each word inside
    obtain ⟨motion, member, spoken⟩ := List.mem_flatMap.mp inside
    exact each motion member spoken

end Forest

/-- A motion moves as another does: it has the same phases, and gives way to a wish for reduced motion if the other
does. -/
structure Motion.MovesAs (read written : Motion) : Prop where
  phases : ∀ phase, read.phases.get? phase = (written.phases.get? phase).map Value.normal
  reducedMotion : read.reducedMotion = written.reducedMotion

/-- A motion was read as it was written: it moves an element of the same tag in the same way. -/
structure Motion.Agrees (read written : Motion) : Prop extends Motion.MovesAs read written where
  tag : read.tag = written.tag

/-- An element was read as it was written, with all inside it. -/
inductive Element.Mirrors : Element → Element → Prop
  | intro {read written : Motion} {inner writtenInner : List Element} (agrees : read.Agrees written)
      (inside : List.Forall₂ Element.Mirrors inner writtenInner) :
      Element.Mirrors ⟨read, inner⟩ ⟨written, writtenInner⟩

namespace Forest

/-- A forest was read as it was written: as many elements side by side, each as it was written. -/
def Mirrors (read written : Forest) : Prop := List.Forall₂ Element.Mirrors read written

theorem Mirrors.append {read written more writtenMore : Forest} (first : Mirrors read written)
    (second : Mirrors more writtenMore) : Mirrors (read ++ more) (written ++ writtenMore) :=
  List.rel_append first second

end Forest

end AnimationCode
