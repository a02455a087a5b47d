/-
**Animated elements in a template.**

An element is animated if it carries the motion directive or is a motion component, and one of its
bindings is a phase. The transition of a directive stands inside one of its states; it is lifted out of
them.

* `TemplateMotion.motion`: the motion of an element of a template;
* `TemplateMotion.lift`: a motion with the transitions of its states lifted;
* `TemplateMotion.collect`: the animated elements below some nodes.

Directives take milliseconds, components and motions take seconds.
-/

import AnimationCode.Element.Basic
import AnimationCode.Script.Literal
import AnimationCode.Template.Node
import AnimationCode.Text.Reference
import AnimationCode.Timing

namespace AnimationCode

namespace TemplateMotion

/-- How an element is animated. -/
inductive Carrier where
  | directive | component
deriving DecidableEq, Repr, Inhabited

/-- Whether a name is that of the motion directive or one of its modifiers. -/
def isDirective (name : String) : Bool :=
  name == "v-motion" || Text.startsWith "v-motion-".toList name.toList

/-- How an element of a template is animated, if it is. -/
def carrier? (node : TemplateNode) : Option Carrier :=
  if node.attributes.any fun written => isDirective written.1 then some .directive
  else if node.tag == "Motion" || Text.startsWith "motion.".toList (Text.lowerText node.tag).toList then
    some .component
  else none

/-- The tag that an element of a template is rendered as. -/
def renderedTag (tag : String) : String :=
  match Text.cut? ['.'] tag.toList with
  | some (_, part) => String.ofList part
  | none => if tag = "Motion" then "div" else tag

/-- The text that an attribute stands for, unless a number in it is too long to be read. -/
def unescaped (raw : Option String) : Outcome (List Char) :=
  let written := (raw.getD "").toList
  if Text.hasLongNumber written then .error .unfitValue else .ok (Text.unescape written)

variable (parse : Script.Parser)

/-- The value of a binding of an element at a place. -/
def boundValue (place : Location) (raw : Option String) : Outcome Value := do
  let text ← unescaped raw
  match Script.evaluateText text parse with
  | .error (.malformedExpression cause) =>
    .error (.malformedBinding (String.ofList ((Text.trim text).take 40))
      (Failure.malformedExpression cause).message place)
  | result => result

/-- What the name of an attribute makes of it. -/
inductive AttributeForm where
  | directive
  | bound (name : String)
  | listener (event : List Char)
  | plain (name : String)
deriving DecidableEq, Repr, Inhabited

/-- What the name of an attribute makes of it. -/
def AttributeForm.ofName (name : String) : AttributeForm :=
  let cs := name.toList
  if name = "v-motion" then .directive
  else match cs with
    | ':' :: rest => .bound (String.ofList rest)
    | '@' :: rest => .listener rest
    | _ =>
      match Text.stripStart? "v-bind:".toList cs with
      | some rest => .bound (String.ofList rest)
      | none =>
        match Text.stripStart? "v-on:".toList cs with
        | some rest => .listener rest
        | none => .plain name

/-- The name of a listener as an attribute: the event with a capital letter after `on`. -/
def listenerName (event : List Char) : String :=
  String.ofList ("on".toList ++ (event.take 1).flatMap Text.upperForm ++ event.drop 1)

/-- A plain attribute as a value; one without a value is true. -/
def plainValue (raw : Option String) : Outcome Value :=
  match raw with
  | some _ => do return .text (String.ofList (← unescaped raw))
  | none => .ok (.bool true)

/-- The options of a viewport under which the animation runs once or every time. -/
def viewport (once : Bool) : Value := .object [("once", .bool once)]

/-- A motion with a phase whose binding has a name. -/
def setPhase (motion : Motion) (phase name : String) (value : Value) : Motion :=
  let attributes :=
    if name = "visible-once" ∨ name = "visibleOnce" then
      motion.attributes.setNew "viewport" (viewport true)
    else if name = "visible" then motion.attributes.setNew "viewport" (viewport false)
    else motion.attributes
  { motion with attributes := attributes, phases := motion.phases.set phase value }

/-- A motion with one more attribute, and what is to be said about it. -/
def addAttribute (carrier : Carrier) (place : Location) (motion : Motion)
    (written : Template.Attribute) : Outcome (Motion × List String) :=
  let setAttribute (name : String) (value : Value) : Motion :=
    { motion with attributes := motion.attributes.set name value }
  match AttributeForm.ofName written.1 with
  | .directive => .ok (motion, [])
  | .bound name => do
    let value ← boundValue parse place written.2
    match Phase.readTemplate name with
    | .known phase => return (setPhase motion phase name value, [])
    | .unknown phase => return (setPhase motion phase name value, [Motion.unknownPhase name])
    | .none =>
      if carrier = .component ∧ (name = "in-view-options" ∨ name = "inViewOptions") then
        return (setAttribute "viewport" value, [])
      else return (setAttribute name value, [])
  | .listener event => do
    return (setAttribute (listenerName event) (.code (String.ofList (← unescaped written.2))), [])
  | .plain name => do
    return (setAttribute (if name = "class" then "className" else name) (← plainValue written.2), [])

/-- A motion with the attributes of a tag, and what is to be said about them. -/
def addAttributes (carrier : Carrier) (place : Location) (motion : Motion) (warnings : List String) :
    List Template.Attribute → Outcome (Motion × List String)
  | [] => .ok (motion, warnings)
  | written :: rest => do
    let (motion, said) ← addAttribute parse carrier place motion written
    addAttributes carrier place motion (warnings ++ said) rest

/-! ### Lifting transitions -/

/-- The states whose transitions are lifted, the first one first. -/
def liftOrder : List Phase := [.animate, .inView, .hover, .tap, .exit, .initial]

/-- Takes the transition out of one state, and takes it for the element's if there is none. -/
def liftFrom (lifted : Fields Value × Value) (phase : Phase) : Fields Value × Value :=
  let (phases, transition) := lifted
  match phases.get? phase.name with
  | some (.object state) =>
    match Fields.get? state Phase.transition.name with
    | some nested =>
      let state := Fields.erase state Phase.transition.name
      let phases :=
        if state.isEmpty then phases.erase phase.name else phases.set phase.name (.object state)
      (phases, match transition with
        | .null => nested
        | _ => transition)
    | none => lifted
  | _ => lifted

/-- Options in seconds, from milliseconds. -/
def inSeconds (options : Value) : Outcome Value :=
  match Timing.toSeconds? options with
  | some options => .ok options
  | none => .error .numberTooLarge

/-- A state with its transition in seconds. -/
def stateInSeconds (state : Value) : Outcome Value :=
  match state with
  | .object fields =>
    match Fields.get? fields Phase.transition.name with
    | some nested => do
      let nested ← inSeconds nested
      return .object (Fields.set fields Phase.transition.name nested)
    | none => .ok state
  | _ => .ok state

/-- The variants with their transitions in seconds. -/
def variantsInSeconds : Fields Value → Outcome (Fields Value)
  | [] => .ok []
  | (name, state) :: rest => do
    let state ← stateInSeconds state
    return (name, state) :: (← variantsInSeconds rest)

/-- The phases of a carrier and the transition beside them, in seconds. -/
def phasesInSeconds (carrier : Carrier) (phases : Fields Value) (transition : Value) :
    Outcome (Fields Value × Value) :=
  match carrier with
  | .component => .ok (phases, transition)
  | .directive => do
    let transition ← inSeconds transition
    match phases.get? Phase.variants.name with
    | some (.object variants) =>
      let variants ← variantsInSeconds variants
      return (phases.set Phase.variants.name (.object variants), transition)
    | _ => return (phases, transition)

/-- Whether a phase is a state that animates nothing. -/
def isIdle (phase : String × Value) : Bool :=
  Phase.stateNames.contains phase.1 && match phase.2 with
    | .object [] => true
    | _ => false

/-- A motion with the transitions of its states lifted, in seconds. -/
def lift (carrier : Carrier) (motion : Motion) : Outcome Motion := do
  let own := (motion.phases.get? Phase.transition.name).getD .null
  let (phases, transition) := liftOrder.foldl liftFrom (motion.phases, own)
  let reduced := match transition with
    | .guarded _ => true
    | _ => motion.reducedMotion
  let (phases, transition) ← phasesInSeconds carrier phases transition.unguarded
  let phases := match transition with
    | .null => phases
    | _ => phases.set Phase.transition.name transition
  return { motion with phases := phases.filter (!isIdle ·), reducedMotion := reduced }

/-! ### Elements -/

/-- The text of an element that has nothing but text in it. -/
def content? (node : TemplateNode) : Option String :=
  let joined := Text.squeeze (List.intercalate [' '] (node.texts.map String.toList))
  if joined = [] ∨ ¬ node.children.isEmpty then none else some (String.ofList joined)

/-- The motion of an element of a template, if it is animated, and what is to be said about it. -/
def motion (index : LineIndex) (node : TemplateNode) : Outcome (Option Motion × List String) :=
  match carrier? node with
  | none => .ok (none, [])
  | some carrier => do
    let place := index.location node.start
    let plain := { Motion.ofTag (renderedTag node.tag) with location? := some place }
    let (motion, warnings) ← addAttributes parse carrier place plain [] node.attributes
    let motion ← lift carrier motion
    if motion.phases.isEmpty then return (none, warnings)
    return (some { motion with
      sites := [⟨node.start, node.stop, "", ""⟩], content? := content? node }, warnings)

mutual

/-- What an element of a template holds. -/
def collectOne (index : LineIndex) : TemplateNode → Outcome Found
  | ⟨tag, attributes, start, stop, texts, children⟩ => do
    let (found, warnings) ← motion parse index ⟨tag, attributes, start, stop, texts, children⟩
    let inner ← collect index children
    match found with
    | some motion =>
      return ⟨[⟨{ motion with plainMarkup := inner.plainMarkup }, inner.elements⟩], 0,
        warnings ++ inner.warnings⟩
    | none => return (inner.within 1).warned warnings

/-- What several elements of a template hold. -/
def collect (index : LineIndex) : List TemplateNode → Outcome Found
  | [] => .ok Found.nothing
  | node :: rest => do
    let here ← collectOne index node
    return here.append (← collect index rest)

end

/-- The animated elements of a template, the number of elements around them, and what is to be said. -/
def extract (source : List Char) (root : TemplateNode) : Outcome Found :=
  collect parse (LineIndex.ofText source) root.children

end TemplateMotion

end AnimationCode
