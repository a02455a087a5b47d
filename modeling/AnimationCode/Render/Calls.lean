/-
**Scripts that call the animation function.**

Every phase becomes a call on its element. An initial state is a call that is finished at once; gestures
are listeners that also call for the state to return to; a state in view is an observer.

* `CallRender.siteCall?`: the call that sets, or ends, a phase of an element;
* `CallRender.statements`: the statements for an element;
* `CallRender.render?`: a whole script.
-/

import AnimationCode.Context
import AnimationCode.Element.OfCalls
import AnimationCode.Import.Record
import AnimationCode.ReducedMotion
import AnimationCode.Render.Layout
import AnimationCode.Value.Printer

namespace AnimationCode

namespace CallRender

/-- The values that properties return to when no resting value is known. -/
def neutral : List (String × Int) := [
  ("opacity", 1), ("scale", 1), ("scaleX", 1), ("scaleY", 1), ("x", 0), ("y", 0), ("rotate", 0),
  ("rotateX", 0), ("rotateY", 0), ("skewX", 0), ("skewY", 0)]

/-- The events at which a gesture begins and ends. -/
def listeners : List (Phase × String × String) :=
  [(.hover, "pointerenter", "pointerleave"), (.tap, "pointerdown", "pointerup")]

/-- The phases that calls set, in the order in which they are written. -/
def callPhases : List Phase := [.initial, .animate, .hover, .tap, .inView]

/-- The name of the function that animates a component. -/
def functionName (component : String) : String :=
  let cs := component.toList
  "animate" ++ String.ofList ((cs.take 1).flatMap Text.upperForm ++ cs.drop 1)

/-- The value that a property returns to when a gesture ends. -/
def restingValue? (motion : Motion) (property : String) : Option Value :=
  let among (phase : Phase) : Option Value :=
    (motion.keyframes? phase).bind fun fields => fields.get? property
  ((among .animate).orElse fun _ => among .initial).orElse fun _ =>
    (neutral.lookup property).map Value.int

/-- The properties that return to a value when a gesture ends. -/
def restValues (motion : Motion) (gesture : String) : Fields Value :=
  match motion.phases.get? gesture with
  | some (.object fields) => fields.filterMap fun (name, _) =>
    (restingValue? motion name).map fun value => (name, value)
  | _ => []

/-- The options of the calls on an element, guarded if the motion asks for it. -/
def options? (motion : Motion) : Option Value :=
  match motion.phase? .transition with
  | none => none
  | some .null => none
  | some (.object []) => none
  | some options => some (if motion.reducedMotion then .guarded options else options)

/-- A call of the animation function. -/
def call (target : String) (keyframes : Value) (options : Option Value) : String :=
  "animate(" ++ ", ".intercalate (target :: keyframes.print :: (options.map Value.print).toList) ++
    ")"

/-- Whether another phase than the initial one carries the options. -/
def isCarried (motion : Motion) : Bool :=
  (callPhases.filter (· != .initial)).any fun phase => (motion.keyframes? phase).isSome

/-- The call that sets a phase of an element, or returns from it; none if the phase is gone. The initial
state carries the options only if no other phase does. -/
def siteCall? (motion : Motion) (phase target : String) : Option String :=
  match Text.stripStart? "restore:".toList phase.toList with
  | some gesture =>
    let gesture := String.ofList gesture
    if motion.phases.has gesture then
      some (call target (.object (restValues motion gesture)) (options? motion))
    else none
  | none =>
    match motion.phases.get? phase with
    | some (.object fields) =>
      if phase = Phase.initial.name then
        let options := if isCarried motion then none else options? motion
        some (call target (.object fields) options ++ ".complete()")
      else some (call target (.object fields) (options? motion))
    | _ => none

/-- The values that stand in the call for a phase of an element, or in that which returns from it. -/
def siteValues (motion : Motion) (phase : String) : List Value :=
  match Text.stripStart? "restore:".toList phase.toList with
  | some gesture =>
    let gesture := String.ofList gesture
    if motion.phases.has gesture then
      .object (restValues motion gesture) :: (options? motion).toList
    else []
  | none =>
    match motion.phases.get? phase with
    | some (.object fields) =>
      .object fields ::
        if phase = Phase.initial.name ∧ isCarried motion = true then [] else (options? motion).toList
    | _ => []

/-- The same call as text; empty if there is none. -/
def siteCall (motion : Motion) (phase target : String) : String :=
  (siteCall? motion phase target).getD ""

/-- A statement inside a function that is passed on. -/
def inCallback (head statement : String) : List String :=
  [head ++ ", () => \x7b", Layout.unit ++ statement ++ ";", "\x7d);"]

/-- The statements for one phase of an element. -/
def phaseStatements (motion : Motion) (target : String) (phase : Phase) : List String :=
  if (motion.keyframes? phase).isNone then []
  else match listeners.lookup phase with
    | some (enter, leave) =>
      let listen (event kind : String) : List String :=
        inCallback
          (target ++ ".addEventListener(" ++ String.ofList (Text.quote event.toList))
          (siteCall motion kind target)
      listen enter phase.name ++ listen leave ("restore:" ++ phase.name)
    | none =>
      if phase = .inView then
        inCallback ("inView(" ++ target) (siteCall motion phase.name target)
      else [siteCall motion phase.name target ++ ";"]

/-- The remark in place of a phase that no call sets. -/
def leftOver (field : String × Value) : Option String :=
  let (phase, value) := field
  let called := (callPhases.map Phase.name).contains phase && value.isObject
  if called || phase == Phase.transition.name then none
  else some ("// PLACEHOLDER: " ++ phase ++ " " ++
    String.ofList (Text.squeeze value.print.toList) ++ " has no imperative equivalent")

/-- The statements for an element. -/
def statements (motion : Motion) (target : String) : List String :=
  callPhases.flatMap (phaseStatements motion target) ++ motion.phases.filterMap leftOver

/-- The statements for an element after so many others, which has to be looked up first. -/
def lookedUp (position : Nat) (selector : String) (motion : Motion) : List String :=
  let target := "el" ++ toString position
  ["const " ++ target ++ " = " ++ Calls.rootTarget ++ ".querySelector(" ++
    String.ofList (Text.quote selector.toList) ++ ");",
    "if (" ++ target ++ ") \x7b"] ++
  (statements motion target).map (Layout.unit ++ ·) ++ ["\x7d"]

/-- The values that stand in the statements for an element. Those to which properties return stand in
states that are written as well, and the options in the call for any phase. -/
def values (motion : Motion) : List Value :=
  Fields.values (motion.phases.filter (·.1 != Phase.transition.name)) ++
    if callPhases.any fun phase => (motion.keyframes? phase).isSome then (options? motion).toList else []

/-- The statements for an element after so many others, if its values can be written. A selector that is no
text cannot be. -/
def elementStatements (position : Nat) (motion : Motion) : Outcome (List String) :=
  let selector := (motion.attributes.get? "selector").getD .null
  if !selector.isTruthy then
    Value.whenWritable (values motion) <|
      if position = 0 then statements motion Calls.rootTarget else lookedUp position motion.tag motion
  else match selector with
    | .text selector => Value.whenWritable (values motion) (lookedUp position selector motion)
    | _ => .error .missingMember

/-- The statements for several elements, from a position on. -/
def bodyFrom (position : Nat) : List Motion → Outcome (List String)
  | [] => .ok []
  | motion :: rest => do
    let here ← elementStatements position motion
    return here ++ (← bodyFrom (position + 1) rest)

/-- The parameter of the function that animates a component, and what it yields. -/
def signature (context : Context) : String :=
  if context.typescript then "(" ++ Calls.rootTarget ++ ": HTMLElement): void"
  else "(" ++ Calls.rootTarget ++ ")"

/-- The head of the function that animates a component. -/
def functionHead (context : Context) : String :=
  "export function " ++ functionName context.componentName ++ signature context ++ " \x7b"

/-- The names that a script imports. -/
def imports (motions : List Motion) : ImportRecord :=
  let record := ImportRecord.empty
  let record := if motions.isEmpty then record else record.use "motion" "animate" .named
  if motions.any fun motion => (motion.keyframes? .inView).isSome then
    record.use "motion" "inView" .named
  else record

/-- A script for a forest. -/
def render? (forest : Forest) (context : Context) (placeholders : List String) : Outcome String := do
  let motions := forest.motions
  let body := Layout.placeholderLines placeholders ++ (← bodyFrom 0 motions)
  let head := (imports motions).render
  return Layout.document <|
    (if head.isEmpty then [] else head ++ [""]) ++
    (if forest.reducesMotion then [ReducedMotion.declaration, ""] else []) ++
    [functionHead context] ++ body.map (Layout.unit ++ ·) ++ ["\x7d"]

end CallRender

end AnimationCode
