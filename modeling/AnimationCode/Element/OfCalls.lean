/-
**Animated elements in the calls of a script.**

Each call of the animation function sets a phase of its target; the listener or the observer around it
says which. The calls on one target make one element.

* `Calls.recognize`: the phase of a call, its keyframes and its options;
* `Calls.extract`: the elements of a script in the order of their first call.

The options of the plain calls win over those of listeners, and those over the initial ones.
-/

import AnimationCode.Element.Basic
import AnimationCode.Script.Literal

namespace AnimationCode

namespace Calls

open Script (Node Kind)

/-- The parameter that stands for the outermost element. -/
def rootTarget : String := "element"

/-- The phases that listeners set, or restore from. -/
def listenerPhases : List (String × String) := [
  ("pointerenter", "hover"), ("mouseenter", "hover"),
  ("pointerdown", "tap"), ("mousedown", "tap"),
  ("pointerleave", "restore:hover"), ("mouseleave", "restore:hover"),
  ("pointerup", "restore:tap"), ("mouseup", "restore:tap")]

/-- Whether a phase is the end of another. -/
def restores (phase : String) : Bool := Text.startsWith "restore:".toList phase.toList

/-- The text of what a call calls. -/
def callee (source : List Char) (call : Node) : List Char :=
  ((call.child? .callee).map (Node.text source)).getD []

/-- The arguments of a call. -/
def arguments (call : Node) : List Node :=
  match call.child? .arguments with
  | some arguments => arguments.named.filter (·.kind != .comment)
  | none => []

/-- Whether a call has no arguments; a template after the name counts as one unless it is empty. -/
def takesNothing (call : Node) : Bool :=
  match call.child? .arguments with
  | some arguments_ =>
    if arguments_.kind == .template then arguments_.span.stop ≤ arguments_.span.start + 2
    else (arguments call).isEmpty
  | none => true

/-- The text of the first argument, if it is a string. -/
def firstString? (source : List Char) (call : Node) : Option (Outcome String) :=
  match arguments call with
  | first :: _ => if first.kind == .string then some (Script.unquoted (first.text source)) else none
  | [] => none

/-- The phase that the calls around a call set: the nearest listener or observer decides. -/
def enclosingPhase (source : List Char) : List Node → Outcome (Option String)
  | [] => .ok none
  | node :: outer =>
    if node.kind == .call then
      let called := callee source node
      let listened :=
        if Text.endsWith ".addEventListener".toList called then firstString? source node else none
      match listened with
      | some event => do return some ((listenerPhases.lookup (← event)).getD "other")
      | none =>
        if called = "inView".toList then .ok (some "inView") else enclosingPhase source outer
    else enclosingPhase source outer

/-- The call that finishes a call at once. -/
def completion? (source : List Char) (call : Node) (ancestors : List Node) : Option Node :=
  match ancestors with
  | member :: outer :: _ =>
    let isObject := (member.child? .object).any fun object => object.span == call.span
    let completes := (member.child? .property).any fun property =>
      property.text source == "complete".toList
    if member.kind == .member && isObject && completes && outer.kind == .call &&
        takesNothing outer then some outer
    else none
  | _ => none

/-- The selector that a call looks an element up with. -/
def selector? (source : List Char) (node : Node) : Option (Outcome String) :=
  if node.kind == .call && Text.endsWith ".querySelector".toList (callee source node) then
    firstString? source node
  else none

/-- The variables that hold an element which was looked up, each with its selector; a later one wins. -/
def selectors (source : List Char) : List Node → Outcome (Fields String)
  | [] => .ok []
  | node :: rest => do
    let others ← selectors source rest
    if node.kind == .declarator then
      match node.child? .name, (node.child? .value).bind (selector? source) with
      | some name, some selector =>
        let name := String.ofList (name.text source)
        let selector ← selector
        return if others.has name then others else (name, selector) :: others
      | _, _ => return others
    else return others

/-- A call that animates. -/
structure Recognized where
  target : String
  phase : String
  keyframes : Fields Value
  options : Value
  site : Site
  location : Location
  /-- The selector that the target is looked up with. -/
  selector? : Option String
deriving Repr, Inhabited

/-- What a node does: nothing that counts, a call that is left alone, or a call that animates. -/
inductive Recognition where
  | none
  | unsupported (target : String)
  | call (call : Recognized)
deriving Repr, Inhabited

/-- What a node does, given the nodes around it. -/
def recognize (source : List Char) (known : Fields String) (node : Node) (ancestors : List Node) :
    Outcome Recognition :=
  if node.kind == .call && callee source node == "animate".toList then
    match arguments node with
    | target :: frames :: others => do
      match ← Script.evaluate source frames with
      | .object keyframes =>
        let options ← match others with
          | options :: _ => Script.evaluate source options
          | [] => pure .null
        let name := String.ofList (target.text source)
        match ← enclosingPhase source ancestors with
        | some "other" => return .unsupported name
        | found =>
          let selector ← match known.get? name with
            | some selector => if selector = "" then looked target else pure (some selector)
            | none => looked target
          let outer := completion? source node ancestors
          let phase := found.getD (if outer.isSome then "initial" else "animate")
          let span := if found.isNone then (outer.getD node).span else node.span
          return .call {
            target := name, phase := phase, keyframes := keyframes, options := options,
            site := ⟨span.start, span.stop, phase, name⟩,
            location := Location.inBytes source node.span.start, selector? := selector }
      | _ => return .none
    | _ => .ok .none
  else .ok .none
where
  /-- The selector in the target itself. -/
  looked (target : Node) : Outcome (Option String) :=
    match selector? source target with
    | some selector => some <$> selector
    | none => .ok none

/-- What several nodes do. -/
def recognizeAll (source : List Char) (known : Fields String) :
    List (Node × List Node) → Outcome (List Recognition)
  | [] => .ok []
  | (node, ancestors) :: rest => do
    let here ← recognize source known node ancestors
    return here :: (← recognizeAll source known rest)

/-! ### Elements of calls -/

/-- A selector that is the name of a tag. -/
def isTagSelector (cs : List Char) : Bool :=
  match cs with
  | c :: rest => c.isLower && rest.all fun d => d.isLower || d.isDigit
  | [] => false

/-- The motion of a target before its first call. -/
def startMotion (call : Recognized) : Motion :=
  let plain := { Motion.ofTag "div" with location? := some call.location }
  match call.selector? with
  | some selector =>
    if Text.isLineOf isTagSelector selector.toList then { plain with tag := selector }
    else { plain with attributes := [("selector", .text selector)] }
  | none => plain

/-- The kinds of calls by whose options the transition is chosen, the strongest first. -/
def optionKinds : List String := ["animate", "listener", "initial"]

/-- The kind of a call by whose options the transition is chosen. -/
def optionKind (phase : String) : String :=
  if phase = "initial" ∨ phase = "animate" then phase else "listener"

/-- The calls on one target so far: the motion, and the first options of each kind of call. -/
structure Group where
  motion : Motion
  options : Fields Value
deriving Repr, Inhabited

/-- A group with one more call. -/
def Group.addCall (group : Group) (call : Recognized) : Group :=
  let options := call.options.unguarded
  let reduced := match call.options with
    | .guarded _ => true
    | _ => false
  let written := match options with
    | .object [] => false
    | .object _ => !restores call.phase
    | _ => false
  let motion := { group.motion with
    reducedMotion := group.motion.reducedMotion || reduced
    sites := group.motion.sites ++ [call.site] }
  let phases :=
    if restores call.phase then motion.phases
    else match motion.phases.get? call.phase with
      | some (.object before) => motion.phases.set call.phase (.object (Fields.update before call.keyframes))
      | _ => motion.phases.set call.phase (.object call.keyframes)
  { motion := { motion with phases := phases }
    options := if written then group.options.setNew (optionKind call.phase) options else group.options }

/-- The groups after one more call. -/
def addCall (groups : Fields Group) (call : Recognized) : Fields Group :=
  let group := (groups.get? call.target).getD ⟨startMotion call, []⟩
  groups.set call.target (group.addCall call)

/-- The motion of a group with the transition that its calls agree on. -/
def Group.close (group : Group) : Motion :=
  match optionKinds.findSome? group.options.get? with
  | some options =>
    { group.motion with phases := group.motion.phases.set Phase.transition.name options }
  | none => group.motion

/-- The words about a call in a listener that sets no phase. -/
def unsupportedListener (target : String) : String :=
  "animate() inside an unsupported event listener on '" ++ target ++ "' left as passthrough"

/-- The elements of a script in the order of their first call. -/
def extract (source : List Char) (root : Node) : Outcome Found := do
  let known ← selectors source root.walk
  let recognitions ← recognizeAll source known (root.walkUnder [])
  let calls := recognitions.filterMap fun recognition =>
    match recognition with
    | .call call => some call
    | _ => none
  let warnings := recognitions.filterMap fun recognition =>
    match recognition with
    | .unsupported target => some (unsupportedListener target)
    | _ => none
  let motions := ((calls.foldl addCall []).values.map Group.close).filter (!·.phases.isEmpty)
  return ⟨motions.map fun motion => ⟨motion, []⟩, 0, warnings⟩

end Calls

end AnimationCode
