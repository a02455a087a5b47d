/-
**Single-file components with a template.**

An element carries the motion directive, whose transition stands inside one of its states and counts in
milliseconds; or it is a motion component, whose transition is a property of its own and counts in
seconds.

* `TemplateRender.directiveItems`, `TemplateRender.componentItems`: the attributes of an element;
* `TemplateRender.host?`: the state in which the transition stands;
* `TemplateRender.render?`: a whole component.
-/

import AnimationCode.Context
import AnimationCode.Import.Record
import AnimationCode.ReducedMotion
import AnimationCode.Render.Layout
import AnimationCode.Timing
import AnimationCode.Value.Printer

namespace AnimationCode

namespace TemplateRender

/-- An attribute with the text that it stands for, if it has a value. -/
structure Item where
  name : String
  content? : Option String
deriving DecidableEq, Repr, Inhabited

/-- An attribute as it is written: its text escaped between double quotes. -/
def Item.text (item : Item) : String :=
  match item.content? with
  | some content =>
    item.name ++ "=\"" ++ String.ofList (Text.escapeAttribute content.toList) ++ "\""
  | none => item.name

/-- A binding of a name to a value. -/
def bound (name : String) (value : Value) : Item := ⟨":" ++ name, some value.print⟩

/-- Whether a state in view counts every time that an element comes into view. -/
def countsEveryTime (motion : Motion) : Bool :=
  match motion.attributes.get? "viewport" with
  | some (.object options) =>
    match Fields.get? options "once" with
    | some (.bool false) => true
    | _ => false
  | _ => false

/-- The name of a phase as a binding of the directive: whether a state in view counts every time is told
by the viewport. -/
def bindingName (motion : Motion) (phase : String) : String :=
  if phase = Phase.drag.name then "whileDrag"
  else if phase = Phase.inView.name ∧ countsEveryTime motion = true then "visible"
  else Phase.spelling phase .directive

/-- The states in which a transition may stand, the preferred first. -/
def hosts : List Phase := [.animate, .inView, .hover, .tap, .exit, .initial]

/-- The state in which the transition stands. -/
def host? (motion : Motion) : Option String :=
  (hosts.find? fun phase => (motion.keyframes? phase).isSome).map Phase.name

/-- The transition of an element in milliseconds, guarded if the motion asks for it. -/
def transition? (motion : Motion) : Option Value :=
  match motion.phase? .transition with
  | none => none
  | some .null => none
  | some options =>
    let scaled := Timing.toMilliseconds options
    some (if motion.reducedMotion then .guarded scaled else scaled)

/-- A state with its transition in milliseconds. -/
def stateInMilliseconds : Value → Value
  | .object state =>
    match Fields.get? state Phase.transition.name with
    | some options =>
      .object (Fields.set state Phase.transition.name (Timing.toMilliseconds options))
    | none => .object state
  | value => value

/-- The value of a phase as it is bound, given the transition and the state in which it stands. -/
def phaseValue (motion : Motion) (transition : Option Value) (phase : String) : Value :=
  let value := (motion.phases.get? phase).getD .null
  match value with
  | .object fields =>
    if phase = Phase.variants.name then .object (Fields.mapValues stateInMilliseconds fields)
    else match transition with
      | some options =>
        if host? motion = some phase then .object (Fields.set fields Phase.transition.name options)
        else value
      | none => value
  | _ => value

/-- An attribute that is no phase, unless it only means something elsewhere. -/
def attributeItem? (field : String × Value) : Option Item :=
  let (name, value) := field
  if name = "selector" ∨ name = "viewport" ∨ name.startsWith "\x7b" then none
  else
    let name := if name = "className" then "class" else name
    match name.toList with
    | 'o' :: 'n' :: c :: rest =>
      if Text.isUpper c then
        some ⟨String.ofList ('@' :: Text.lowerForm c ++ rest), some value.print⟩
      else plain name value
    | _ => plain name value
where
  /-- An attribute under its own name. -/
  plain (name : String) (value : Value) : Option Item :=
    match value with
    | .bool true => some ⟨name, none⟩
    | .text content => some ⟨name, some content⟩
    | _ => some (bound name value)

/-- The attributes that are no phases. -/
def plainItems (motion : Motion) : List Item := motion.attributes.filterMap attributeItem?

/-- The attributes of an element that carries the motion directive. -/
def directiveItems (motion : Motion) : List Item :=
  let transition := transition? motion
  let lone := match transition with
    | some options =>
      if (host? motion).isNone then
        [bound "enter" (.object [(Phase.transition.name, options)])]
      else []
    | none => []
  let phases := (motion.orderedPhases.filter (· != Phase.transition.name)).map fun phase =>
    bound (bindingName motion phase) (phaseValue motion transition phase)
  ⟨"v-motion", none⟩ :: lone ++ phases ++ plainItems motion

/-- The attributes of an element that is a motion component. -/
def componentItems (motion : Motion) : List Item :=
  let phases := motion.orderedPhases.map fun phase =>
    let value := (motion.phases.get? phase).getD .null
    let value :=
      if phase = Phase.transition.name ∧ motion.reducedMotion = true then .guarded value else value
    bound (Phase.spelling phase .component) value
  let viewport := match motion.attributes.get? "viewport" with
    | some (.object options) => [bound "in-view-options" (.object options)]
    | _ => []
  phases ++ viewport ++ plainItems motion

/-- The values of the attributes that are no phases. -/
def plainValues (motion : Motion) : List Value :=
  Fields.values <| motion.attributes.filter fun field =>
    !(field.1 == "selector" || field.1 == "viewport" || field.1.startsWith "\x7b")

/-- The values that stand in the attributes of an element that carries the motion directive. -/
def directiveValues (motion : Motion) : List Value :=
  let transition := transition? motion
  transition.toList ++
    (motion.orderedPhases.filter (· != Phase.transition.name)).map (phaseValue motion transition) ++
    plainValues motion

/-- The values that stand in the attributes of an element that is a motion component. -/
def componentValues (motion : Motion) : List Value :=
  motion.phases.values ++ ((motion.attributes.get? "viewport").filter Value.isObject).toList ++
    plainValues motion

/-- The way in which elements with the directive are written. -/
def directiveStyle : Layout.TagStyle :=
  ⟨fun motion => motion.tag, fun motion => (directiveItems motion).map Item.text⟩

/-- The way in which an element is written as a component of a name. -/
def componentStyle (name : String) : Layout.TagStyle :=
  ⟨fun _ => name, fun motion => (componentItems motion).map Item.text⟩

/-- The setup block of a component. -/
def setupLines (imports : ImportRecord) (context : Context) (reduced : Bool)
    (placeholders : List String) (directive : Bool) : List String :=
  let lang := if context.typescript then " lang=\"ts\"" else ""
  let declaration :=
    if context.typescript then ReducedMotion.typedDeclaration else ReducedMotion.declaration
  let head := imports.render
  ["<script setup" ++ lang ++ ">"] ++
  (if head.isEmpty then [] else head ++ [""]) ++
  ["defineOptions(\x7b name: " ++ String.ofList (Text.quote context.componentName.toList) ++
    " \x7d);"] ++
  (if directive then ["", "const vMotion = MotionDirective();"] else []) ++
  (if reduced then ["", declaration] else []) ++
  Layout.placeholderLines placeholders ++ ["</script>"]

/-- The record of a component that carries the directive. -/
def directiveImport : ImportRecord :=
  ImportRecord.empty.use "@vueuse/motion" "MotionDirective" .named

/-- The text of a component for a forest. -/
def render (forest : Forest) (context : Context) (placeholders : List String) : String :=
  let directive := !forest.isEmpty
  Layout.document <|
    ["<template>"] ++
    (if directive then Layout.rootLines directiveStyle 1 "<slot />" forest
    else [Layout.unit ++ "<slot />"]) ++
    ["</template>", ""] ++
    setupLines (if directive then directiveImport else ImportRecord.empty) context
      forest.reducesMotion placeholders directive

/-- A component for a forest, if its values can be written. -/
def render? (forest : Forest) (context : Context) (placeholders : List String) : Outcome String :=
  Value.whenWritable (forest.motions.flatMap directiveValues) (render forest context placeholders)

end TemplateRender

end AnimationCode
