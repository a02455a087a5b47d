/-
**What is looked at, findings and what they weigh.**

* `Property.animatable`: all properties that are known;
* `Property.layout`: those that make a page lay itself out;
* `Timing.options`, `Timing.numericOptions`: the options of a transition.

A finding of an analysis has a level and a category. Its penalty is the base of its level times the
weight of its category, kept between zero and one; penalties combine like independent probabilities.

* `Finding.escalated`: the finding as an error;
* `Weights.merged`: the default weights with some of them changed;
* `Finding.score?`: what is left of a hundred points.
-/

import AnimationCode.Failure
import AnimationCode.Value

namespace AnimationCode

/-! ### Properties and options -/

namespace Property

/-- The parts of a transform. -/
def transforms : List String := [
  "x", "y", "z", "translateX", "translateY", "translateZ", "scale", "scaleX", "scaleY", "scaleZ",
  "rotate", "rotateX", "rotateY", "rotateZ", "skew", "skewX", "skewY", "originX", "originY",
  "originZ", "perspective", "transformPerspective", "transform", "transformOrigin"]

/-- The properties that make a page lay itself out. -/
def layout : List String := [
  "width", "height", "top", "left", "right", "bottom", "minWidth", "minHeight", "maxWidth",
  "maxHeight", "margin", "marginTop", "marginRight", "marginBottom", "marginLeft", "padding",
  "paddingTop", "paddingRight", "paddingBottom", "paddingLeft"]

/-- The colours. -/
def colors : List String :=
  ["color", "backgroundColor", "borderColor", "fill", "stroke", "outlineColor"]

/-- The other properties of a style. -/
def styles : List String := [
  "opacity", "borderRadius", "boxShadow", "filter", "backdropFilter", "clipPath", "background",
  "backgroundPosition", "display", "visibility", "zIndex", "pathLength", "pathOffset",
  "pathSpacing", "strokeDasharray", "strokeDashoffset", "fontSize", "letterSpacing", "lineHeight",
  "d", "cx", "cy", "r"]

/-- All properties that are known. -/
def animatable : List String := transforms ++ layout ++ colors ++ styles

/-- The properties that only take numbers. -/
def numeric : List String :=
  ["opacity", "scale", "scaleX", "scaleY", "scaleZ", "pathLength", "pathOffset"]

/-- The properties whose fast oscillation disturbs. -/
def oscillating : List String := colors ++ ["scale", "scaleX", "scaleY", "opacity"]

end Property

namespace Timing

/-- The options of a transition. -/
def options : List String := [
  "duration", "delay", "ease", "easing", "type", "stiffness", "damping", "mass", "bounce",
  "velocity", "restDelta", "restSpeed", "repeat", "repeatType", "repeatDelay", "staggerChildren",
  "delayChildren", "staggerDirection", "when", "times", "visualDuration", "layout", "default",
  "direction", "endDelay", "autoplay"]

/-- The options that are numbers. -/
def numericOptions : List String := [
  "duration", "delay", "stiffness", "damping", "mass", "bounce", "velocity", "restDelta",
  "restSpeed", "repeat", "repeatDelay", "staggerChildren", "delayChildren", "visualDuration",
  "endDelay"]

end Timing

/-! ### Findings -/

/-- How bad a finding is; a level that is none of the three is only a name. -/
inductive Level where
  | error | warning | suggestion
  | other (name : String)
deriving DecidableEq, Repr, Inhabited

/-- The name of a level. -/
def Level.label : Level → String
  | error => "error"
  | warning => "warning"
  | suggestion => "suggestion"
  | other name => name

/-- The level of a name. -/
def Level.named (name : String) : Level :=
  match name with
  | "error" => error
  | "warning" => warning
  | "suggestion" => suggestion
  | _ => other name

/-- What an analysis found. -/
structure Finding where
  rule : String
  category : String
  level : Level
  message : String
  location? : Option Location
  hint? : Option String
deriving DecidableEq, Repr, Inhabited

/-- The finding as an error. -/
def Finding.escalated (finding : Finding) : Finding := { finding with level := .error }

/-! ### Weights -/

/-- The weights of the categories. -/
abbrev Weights := Fields Binary64

namespace Weights

/-- The weights if nothing is said. -/
def default : Weights := [
  ("shape", Binary64.ofDecimal false 1 0), ("performance", Binary64.ofDecimal false 6 (-1)),
  ("accessibility", Binary64.ofDecimal false 7 (-1)),
  ("best-practice", Binary64.ofDecimal false 3 (-1))]

/-- The weights that count: those if nothing is said, where none are given. -/
def orDefault (weights : Weights) : Weights := if weights.isEmpty then default else weights

/-- The weight of a category; half for one that is not named. -/
def ofCategory (weights : Weights) (category : String) : Binary64 :=
  (Fields.get? weights.orDefault category).getD (Binary64.ofDecimal false 5 (-1))

/-- Weights with one changed, if the change is a number. -/
def change (weights : Weights) (category : String) (value : Value) : Outcome Weights :=
  match value with
  | .int n =>
    match Binary64.ofInt? n with
    | some x => .ok (Fields.set weights category x)
    | none => .error .numberTooLarge
  | .real x => .ok (Fields.set weights category x)
  | _ => .ok weights

/-- Weights with several changed in turn. -/
def changeAll (weights : Weights) : Fields Value → Outcome Weights
  | [] => .ok weights
  | (category, value) :: rest => do changeAll (← weights.change category value) rest

/-- The default weights with some of them changed. -/
def merged (changes : Fields Value) : Outcome Weights := changeAll default changes

end Weights

/-! ### Scores -/

/-- The base of a level. -/
def Level.base : Level → Binary64
  | error => Binary64.ofDecimal false 25 (-2)
  | warning => Binary64.ofDecimal false 8 (-2)
  | suggestion => Binary64.ofDecimal false 2 (-2)
  | other _ => Binary64.zero false

/-- One. -/
def Binary64.one : Binary64 := Binary64.ofInt 1

/-- A number kept between zero and one. -/
def Binary64.clamped (x : Binary64) : Binary64 :=
  if x.lt (zero false) then zero false else if one.lt x then one else x

namespace Finding

/-- The penalty of a finding. -/
def penalty (weights : Weights) (finding : Finding) : Binary64 :=
  (finding.level.base.mul (weights.ofCategory finding.category)).clamped

/-- What penalties leave of one. -/
def kept (weights : Weights) (findings : List Finding) : Binary64 :=
  findings.foldl (fun keep finding => keep.mul (Binary64.one.sub (finding.penalty weights)))
    Binary64.one

/-- What is left of a hundred points, unless a weight is not a number. -/
def score? (weights : Weights) (findings : List Finding) : Option Int :=
  ((Binary64.ofInt 100).mul (kept weights findings).clamped).nearestInt?

/-- What is left of a hundred points. -/
def score (weights : Weights) (findings : List Finding) : Outcome Int :=
  match score? weights findings with
  | some points => .ok points
  | none => .error .unfitValue

end Finding

/-- How urgent a suggestion is. -/
inductive Priority where
  | high | medium | low
deriving DecidableEq, Repr, Inhabited

/-- The name of a priority. -/
def Priority.label : Priority → String
  | high => "high"
  | medium => "medium"
  | low => "low"

/-- The priority of a category. -/
def Priority.ofCategory (weights : Weights) (category : String) : Priority :=
  let weight := weights.ofCategory category
  if (Binary64.ofDecimal false 80 (-2)).le weight then high
  else if (Binary64.ofDecimal false 50 (-2)).le weight then medium
  else low

end AnimationCode
