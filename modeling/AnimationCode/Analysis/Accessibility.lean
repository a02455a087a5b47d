/-
**What shuts people out.**

* `Accessibility.oscillates`: whether colours or sizes flicker fast and without end;
* `Accessibility.lacksLabel`: whether something that can be operated says nothing;
* `Accessibility.detect`: the findings of a forest.
-/

import AnimationCode.Analysis.Finding
import AnimationCode.Element.States
import AnimationCode.Optimize.Guard
import AnimationCode.Threshold

namespace AnimationCode

namespace Accessibility

/-- Whether an element animates something whose fast oscillation disturbs. -/
def animatesOscillating (motion : Motion) : Bool :=
  motion.states.any fun (_, state) => (Fields.keys state).any Property.oscillating.contains

/-- Whether colours or sizes of an element flicker fast and without end, and nothing stops them. -/
def oscillates (short : Binary64) (motion : Motion) : Bool :=
  !motion.reducedMotion && motion.transitions.any (Guard.isRapid short) && animatesOscillating motion

/-- Whether the seconds of an animation cannot be compared: those of the first endless one that is too
long or rapid. -/
def isUnfit (short : Binary64) (motion : Motion) : Bool :=
  !motion.reducedMotion &&
    (motion.transitions.find? fun options =>
      Transition.isEndless options &&
        (Transition.isTooLong options || Guard.isRapid short options)).any Transition.isTooLong

/-- The attributes that give an element a label. -/
def labels : List String := ["aria-label", "aria-labelledby", "title"]

/-- The attributes that let an element be operated. -/
def operations : List String := ["onClick", "onTap", "onPointerDown"]

/-- Whether an element can be operated. -/
def isInteractive (motion : Motion) : Bool :=
  motion.hasPhase .hover || motion.hasPhase .tap || operations.any motion.attributes.has

/-- Whether an element that can be operated has neither text nor label. -/
def lacksLabel (motion : Motion) : Bool :=
  isInteractive motion && Text.isBlankText (motion.content?.getD "").toList &&
    !labels.any motion.attributes.has

/-- The findings about one element. -/
def ofMotion (short : Binary64) (motion : Motion) : List Finding :=
  (if oscillates short motion then
    [⟨"rapid-oscillation", "accessibility", .warning,
      "Fast infinite oscillation of color or scale can trigger vestibular discomfort",
      motion.location?, some "Respect prefers-reduced-motion or slow the oscillation down"⟩]
  else []) ++
  (if lacksLabel motion then
    [⟨"missing-accessible-label", "accessibility", .suggestion,
      "Interactive <" ++ motion.tag ++ "> has no text or aria-label", motion.location?,
      some ("Add an aria-label to the interactive <" ++ motion.tag ++ ">")⟩]
  else [])

/-- The findings of a forest. -/
def detect (thresholds : Fields Value) (forest : Forest) : Outcome (List Finding) := do
  let short ← Threshold.short thresholds
  if forest.motions.any (isUnfit short) then throw .numberTooLarge
  return forest.motions.flatMap (ofMotion short)

end Accessibility

end AnimationCode
