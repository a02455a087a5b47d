/-
**Guarding what never rests.**

An animation that repeats fast and without end can harm; it is marked so that it gives way to a wish for
reduced motion.

* `Guard.rapid?`: the seconds of the first such animation of an element;
* `Guard.apply`: the motion with its mark, and what there is to say.
-/

import AnimationCode.Element.States
import AnimationCode.Failure

namespace AnimationCode

namespace Guard

/-- Whether an animation repeats without end, each time within some seconds. -/
def isRapid (short : Binary64) (options : Fields Value) : Bool :=
  (Transition.duration? options).any (·.le short) && Transition.isEndless options

/-- The seconds of the first animation of a motion that is rapid. -/
def rapid? (short : Binary64) (motion : Motion) : Option Binary64 :=
  (motion.transitions.find? (isRapid short)).bind Transition.duration?

/-- The words about an animation that was guarded. -/
def guarded (seconds : Binary64) (tag : String) : String :=
  "Guarded the infinite " ++ Decimal.general seconds ++ "s animation on <" ++ tag ++
    "> with prefers-reduced-motion"

/-- A motion that gives way to a wish for reduced motion if it is rapid, and what there is to say. -/
def apply (short : Binary64) (motion : Motion) : Motion × List String :=
  if motion.reducedMotion then (motion, [])
  else match rapid? short motion with
    | some seconds => ({ motion with reducedMotion := true }, [guarded seconds motion.tag])
    | none => (motion, [])

/-- Whether the seconds of an animation cannot be compared: those of the first that is too long or
rapid. -/
def isUnfit (short : Binary64) (motion : Motion) : Bool :=
  !motion.reducedMotion &&
    (motion.transitions.find? fun options =>
      Transition.isTooLong options || isRapid short options).any Transition.isTooLong

/-- A forest whose rapid animations give way, and what there is to say. -/
def applyToForest (short : Binary64) (forest : Forest) : Outcome (Forest × List String) :=
  if forest.motions.any (isUnfit short) then .error .numberTooLarge
  else .ok (forest.revise (apply short))

end Guard

end AnimationCode
