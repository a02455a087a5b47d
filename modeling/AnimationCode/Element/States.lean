/-
**The states of an element and the transitions between them.**

A state is what a phase or a variant animates to, if its properties are written out. The transition of
an element comes before those that stand inside its states.

* `Motion.statesIn`, `Motion.states`: the states with their paths, phases before variants;
* `Motion.mapStates`: the motion with the properties of its states changed;
* `Motion.transitions`: the options under which the states are reached;
* `Transition.duration?`, `Transition.isEndless`: what such options say.
-/

import AnimationCode.Element.Basic

namespace AnimationCode

namespace Motion

/-- The variants whose properties are written out, with their paths. -/
def variantStates (motion : Motion) : List (String × Fields Value) :=
  match motion.keyframes? .variants with
  | some variants => variants.filterMap fun (name, value) =>
    value.fields?.map fun fields => ("variants." ++ name, fields)
  | none => []

/-- The states with their paths: some phases one after another, then the variants. -/
def statesIn (order : List Phase) (motion : Motion) : List (String × Fields Value) :=
  (order.filterMap fun phase =>
    (motion.keyframes? phase).map fun fields => (phase.name, fields)) ++ motion.variantStates

/-- The states with their paths. The phases that are states are a set: that they are gone through in this order only decides
which of several is told of first. -/
def states (motion : Motion) : List (String × Fields Value) := motion.statesIn Phase.states

/-- A value with its fields changed, if it has fields. -/
def mapFields (change : Fields Value → Fields Value) : Value → Value
  | .object fields => .object (change fields)
  | value => value

/-- The motion with the properties of its states changed. -/
def mapStates (change : Fields Value → Fields Value) (motion : Motion) : Motion :=
  { motion with phases := Fields.mapNamed (fun name value =>
      if Phase.stateNames.contains name then mapFields change value
      else if name = Phase.variants.name then mapFields (Fields.mapValues (mapFields change)) value
      else value) motion.phases }

/-- The options under which some states are reached: the element's own, then those inside the states. -/
def transitionsIn (order : List Phase) (motion : Motion) : List (Fields Value) :=
  (((motion.phase? .transition).map Value.unguarded).bind Value.fields?).toList ++
    (motion.statesIn order).filterMap fun state => (state.2.get? Phase.transition.name).bind Value.fields?

/-- The options under which the states are reached. -/
def transitions (motion : Motion) : List (Fields Value) := motion.transitionsIn Phase.states

end Motion

namespace Transition

/-- Whether a value is endless: an infinite number, or the name of one. -/
def isInfinite : Value → Bool
  | .real x => x.isInfinite
  | .code source => Text.trim source.toList == "Infinity".toList
  | _ => false

/-- Whether an animation repeats without end. -/
def isEndless (options : Fields Value) : Bool := (options.get? "repeat").any isInfinite

/-- The seconds that an animation takes if nothing is said. -/
def defaultDuration : Binary64 := Binary64.ofDecimal false 3 (-1)

/-- The seconds that an animation takes, if they are a number; a number past every finite one counts as
infinite. -/
def duration? (options : Fields Value) : Option Binary64 :=
  match options.get? "duration" with
  | some (.int n) => some (Binary64.ofInt n)
  | some (.real x) => some x
  | some _ => none
  | none => some defaultDuration

/-- Whether the seconds are a whole number past every finite one. -/
def isTooLong (options : Fields Value) : Bool :=
  match options.get? "duration" with
  | some (.int n) => (Binary64.ofInt? n).isNone
  | _ => false

end Transition

end AnimationCode
