/-
**What keeps a page busy.**

* `Performance.layoutFindings`: properties that make the page lay itself out on every frame;
* `Performance.endlessFinding?`: a long animation that repeats without end;
* `Performance.detect`: the findings of a forest.
-/

import AnimationCode.Analysis.Finding
import AnimationCode.Element.States
import AnimationCode.Threshold

namespace AnimationCode

namespace Performance

/-- A finding about an element. -/
def finding (motion : Motion) (rule message hint : String) : Finding :=
  ⟨rule, "performance", .warning, message, motion.location?, some hint⟩

/-- The properties of the states of an element that make the page lay itself out, each with the path of
the first state that has it. -/
def layoutProperties (motion : Motion) : List (String × String) :=
  let all := motion.states.flatMap fun (path, state) =>
    (Fields.keys state).filterMap fun key =>
      if Property.layout.contains key then some (key, path) else none
  all.foldl (fun kept entry =>
    if kept.any (·.1 == entry.1) then kept else kept ++ [entry]) []

/-- The findings about those properties. -/
def layoutFindings (motion : Motion) : List Finding :=
  (layoutProperties motion).map fun (key, path) =>
    finding motion "layout-property"
      ("Animating '" ++ key ++ "' in " ++ path ++ " triggers layout on every frame")
      ("Animate transform (scaleX/scaleY or x/y) instead of " ++ key)

/-- Whether an animation takes long and repeats without end. -/
def isEndless (long : Binary64) (options : Fields Value) : Bool :=
  Transition.isEndless options && (Transition.duration? options).any fun seconds => long.le seconds

/-- The finding about the first animation of an element that takes long and repeats without end. -/
def endlessFinding? (long : Binary64) (motion : Motion) : Option Finding :=
  ((motion.transitions.find? (isEndless long)).bind Transition.duration?).map fun seconds =>
    finding motion "unbounded-long-animation"
      ("Infinite repeat of a " ++ Decimal.general seconds ++ "s animation never lets the page idle")
      "Bound repeat or pause the animation when it is off screen"

/-- Whether the seconds of an animation cannot be compared: those of the first that is too long or
endless. -/
def isUnfit (long : Binary64) (motion : Motion) : Bool :=
  (motion.transitions.find? fun options =>
    Transition.isTooLong options || isEndless long options).any Transition.isTooLong

/-- The findings about one element. -/
def ofMotion (long : Binary64) (motion : Motion) : List Finding :=
  layoutFindings motion ++ (endlessFinding? long motion).toList

/-- The findings of a forest. -/
def detect (thresholds : Fields Value) (forest : Forest) : Outcome (List Finding) := do
  let long ← Threshold.long thresholds
  if forest.motions.any (isUnfit long) then throw .numberTooLarge
  return forest.motions.flatMap (ofMotion long)

end Performance

end AnimationCode
