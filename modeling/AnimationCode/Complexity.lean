/-
**How involved an animation is.**

* `Complexity.ofForest`: the complexity of a forest, by its phases, its layout, and its size.
-/

import AnimationCode.Element.Basic

namespace AnimationCode

/-- How involved an animation is. -/
inductive Complexity where
  | basic | intermediate | advanced
deriving DecidableEq, Repr, Inhabited

namespace Complexity

/-- The name of a complexity. -/
def label : Complexity → String
  | basic => "basic"
  | intermediate => "intermediate"
  | advanced => "advanced"

/-- The complexity of a name. -/
def ofLabel? (name : String) : Option Complexity :=
  [basic, intermediate, advanced].find? fun complexity => complexity.label == name

/-- The order of complexities. -/
def rank : Complexity → Nat
  | basic => 0
  | intermediate => 1
  | advanced => 2

/-- How involved the animations of a forest are: by their phases, their layout, and their number. -/
def ofForest (forest : Forest) : Complexity :=
  let motions := forest.motions
  let has (phases : List Phase) : Bool := motions.any fun motion => phases.any motion.hasPhase
  if has [.drag, .variants] || motions.any (·.attributes.has "layout") || 3 < motions.length then
    advanced
  else if has [.exit, .hover, .tap, .inView] || 1 < motions.length then intermediate
  else basic

end Complexity

end AnimationCode
