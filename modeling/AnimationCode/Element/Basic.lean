/-
**Animated elements.**

An element has a motion of its own, which says what is animated and how, and elements inside it. The
motions of a forest in document order are the view through which it is read.

* `Element.motions`: the motions of an element and of all inside it, parents first;
* `Element.map`: the same tree with its motions changed;
* `Forest.revise`: a change of every motion that also has something to tell;
* `Forest.motions_map`: the view after a change;
* `Found.append`: what two neighbouring parts of a source hold, the first before the second.
-/

import AnimationCode.Fields
import AnimationCode.Phase
import AnimationCode.Text.Position
import AnimationCode.Value

namespace AnimationCode

/-- An interval of the source in which an element is animated; for a call also the phase that it sets
and its target. -/
structure Site where
  start : Nat
  stop : Nat
  phase : String
  target : String
deriving DecidableEq, Repr, Inhabited

/-- What is animated on one element, and how. -/
structure Motion where
  tag : String
  /-- The phases with what they animate to, in the order of their writing. -/
  phases : Fields Value
  /-- The attributes that are no phases. -/
  attributes : Fields Value
  location? : Option Location
  /-- The text inside, if there is nothing else. -/
  content? : Option String
  /-- Whether the animation gives way to a wish for reduced motion. -/
  reducedMotion : Bool
  /-- The number of elements inside that are not animated. -/
  plainMarkup : Nat
  sites : List Site
deriving Repr, Inhabited

namespace Motion

/-- A motion of a tag that animates nothing. -/
def ofTag (tag : String) : Motion := ⟨tag, [], [], none, none, false, 0, []⟩

/-- What a phase animates to. -/
def phase? (motion : Motion) (phase : Phase) : Option Value := motion.phases.get? phase.name

/-- Whether a phase is set. -/
def hasPhase (motion : Motion) (phase : Phase) : Bool := motion.phases.has phase.name

/-- The properties that a phase animates, if they are written out. -/
def keyframes? (motion : Motion) (phase : Phase) : Option (Fields Value) :=
  (motion.phase? phase).bind Value.fields?

/-- The names of the phases in the order in which they are rendered: the known ones in their own order,
then the others. -/
def orderedPhases (motion : Motion) : List String :=
  Phase.names.filter (motion.phases.has ·) ++
    motion.phases.keys.filter (!Phase.names.contains ·)

end Motion

/-- An animated element with the animated elements inside it. -/
structure Element where
  own : Motion
  children : List Element
deriving Repr, Inhabited

/-- Elements side by side. -/
abbrev Forest := List Element

namespace Element

mutual

/-- The motions of an element and of all inside it, parents first. -/
def motions : Element → List Motion
  | ⟨own, children⟩ => own :: motionsEach children

/-- The motions of several elements. -/
def motionsEach : List Element → List Motion
  | [] => []
  | element :: rest => motions element ++ motionsEach rest

end

mutual

/-- The element with its motion and those inside it changed. -/
def map (change : Motion → Motion) : Element → Element
  | ⟨own, children⟩ => ⟨change own, mapEach change children⟩

/-- Several elements with their motions changed. -/
def mapEach (change : Motion → Motion) : List Element → List Element
  | [] => []
  | element :: rest => map change element :: mapEach change rest

end

mutual

theorem motions_map (change : Motion → Motion) (element : Element) :
    motions (map change element) = (motions element).map change := by
  obtain ⟨own, children⟩ := element
  simp [motions, map, motionsEach_mapEach change children]

theorem motionsEach_mapEach (change : Motion → Motion) (elements : List Element) :
    motionsEach (mapEach change elements) = (motionsEach elements).map change := by
  match elements with
  | [] => simp [motionsEach, mapEach]
  | element :: rest =>
    simp [motionsEach, mapEach, motions_map change element, motionsEach_mapEach change rest]

end

end Element

namespace Forest

/-- The motions of a forest in document order. -/
def motions (forest : Forest) : List Motion := Element.motionsEach forest

/-- The forest with its motions changed. -/
def map (change : Motion → Motion) (forest : Forest) : Forest := Element.mapEach change forest

/-- A change of every motion, and what there is to tell about it in document order. -/
def revise {α : Type} (change : Motion → Motion × List α) (forest : Forest) : Forest × List α :=
  (forest.map fun motion => (change motion).1, forest.motions.flatMap fun motion => (change motion).2)

/-- Whether a motion of the forest gives way to a wish for reduced motion. -/
def reducesMotion (forest : Forest) : Bool := forest.motions.any (·.reducedMotion)

theorem motions_map (change : Motion → Motion) (forest : Forest) :
    (forest.map change).motions = forest.motions.map change :=
  Element.motionsEach_mapEach change forest

end Forest

/-- The animated elements of a part of a source, the number of elements around them that are not
animated, and what is to be said about them. -/
structure Found where
  elements : Forest
  plainMarkup : Nat
  warnings : List String
deriving Repr, Inhabited

namespace Found

/-- Nothing. -/
def nothing : Found := ⟨[], 0, []⟩

/-- What two neighbouring parts hold. -/
def append (a b : Found) : Found :=
  ⟨a.elements ++ b.elements, a.plainMarkup + b.plainMarkup, a.warnings ++ b.warnings⟩

/-- The same with warnings before it. -/
def warned (warnings : List String) (found : Found) : Found :=
  { found with warnings := warnings ++ found.warnings }

/-- The same with elements that are not animated around it. -/
def within (plain : Nat) (found : Found) : Found :=
  { found with plainMarkup := plain + found.plainMarkup }

end Found

namespace Motion

/-- The words about a phase that no framework here knows. -/
def unknownPhase (name : String) : String :=
  "Unknown animation phase '" ++ name ++ "' kept verbatim"

end Motion

end AnimationCode
