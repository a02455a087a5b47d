/-
**Animated elements in the markup of a script.**

An element is animated if its tag is a member of the motion namespace and one of its attributes is a
phase. What is not animated only counts.

* `Markup.motion`: the motion of an element, from its opening tag;
* `Markup.collect`: the animated elements below some nodes.

An opening tag holds no element of its own; a tag that closes itself may hold some in its attributes.
-/

import AnimationCode.Element.Basic
import AnimationCode.Script.Literal

namespace AnimationCode

namespace Markup

open Script (Node Kind)

/-- A source that was read after some characters were put before it. -/
structure Fragment where
  text : List Char
  wrapped : Nat
deriving Repr, Inhabited

namespace Fragment

/-- The text of a node. -/
def textOf (fragment : Fragment) (node : Node) : String := String.ofList (node.text fragment.text)

/-- The place of a node in the source, its column in bytes. -/
def location (fragment : Fragment) (node : Node) : Location :=
  let place := Location.inBytes fragment.text node.span.start
  if place.line = 1 then ⟨1, place.column - fragment.wrapped⟩ else place

/-- The interval of a node in the source. -/
def site (fragment : Fragment) (node : Node) : Site :=
  ⟨node.span.start - fragment.wrapped, node.span.stop - fragment.wrapped, "", ""⟩

end Fragment

/-- The beginnings of the tags that may be animated. -/
def namespaces : List String := ["motion.", "m."]

/-- The tag of an element of the motion namespace. -/
def motionTag? (name : List Char) : Option String :=
  (namespaces.findSome? fun space => Text.stripStart? space.toList name).map String.ofList

/-- The opening tag of an element. -/
def openingTag? (node : Node) : Option Node :=
  match node.kind with
  | .selfClosingTag => some node
  | .element => node.child? .openTag
  | _ => none

/-- Whether an element is a fragment, whose tags have no name. -/
def isFragment (node : Node) : Bool :=
  match node.kind with
  | .element => (node.child? .openTag).any fun opening => (opening.child? .name).isNone
  | _ => false

/-- The value of an attribute, or of what stands between its braces. -/
def attributeValue (fragment : Fragment) (value : Option Node) : Outcome Value :=
  match value with
  | none => .ok (.bool true)
  | some node =>
    match node.kind with
    | .string => .text <$> Script.unquoted (node.text fragment.text)
    | .container =>
      match node.named.filter (·.kind != .comment) with
      | [inner] => Script.evaluate fragment.text inner
      | _ =>
        let inside := ((node.text fragment.text).drop 1).dropLast
        .ok (.code (String.ofList (Text.trim inside)))
    | _ => .ok (.code (fragment.textOf node))

/-- A motion with one more attribute, and what is to be said about it. -/
def addAttribute (motion : Motion) (name : String) (value : Value) : Motion × List String :=
  let setPhase (phase : String) : Motion :=
    match phase, value with
    | "transition", .guarded inner =>
      { motion with phases := motion.phases.set phase inner, reducedMotion := true }
    | _, _ => { motion with phases := motion.phases.set phase value }
  match Phase.readMarkup name with
  | .known phase => (setPhase phase, [])
  | .unknown phase => (setPhase phase, [Motion.unknownPhase name])
  | .none => ({ motion with attributes := motion.attributes.set name value }, [])

/-- A motion with the attributes of a tag, and what is to be said about them. -/
def addAttributes (fragment : Fragment) (motion : Motion) (warnings : List String) :
    List Node → Outcome (Motion × List String)
  | [] => .ok (motion, warnings)
  | node :: rest =>
    match node.kind, node.named with
    | .attribute, title :: others => do
      let value ← attributeValue fragment others.head?
      let (motion, said) := addAttribute motion (fragment.textOf title) value
      addAttributes fragment motion (warnings ++ said) rest
    | .container, _ =>
      let raw := fragment.textOf node
      addAttributes fragment { motion with attributes := motion.attributes.set raw (.code raw) }
        warnings rest
    | _, _ => addAttributes fragment motion warnings rest

/-- The text of an element that has nothing but text in it. -/
def content? (fragment : Fragment) (children : List Node) : Option String :=
  let inside := children.filter fun child =>
    child.kind.isNamed && child.kind != .openingTag && child.kind != .closingTag
  if !inside.isEmpty && inside.all (·.kind == .markupText) then
    let pieces := inside.map fun child => Text.squeeze (child.text fragment.text)
    let joined := Text.trim (List.intercalate [' '] pieces)
    if joined = [] then none else some (String.ofList joined)
  else none

/-- The motion of an element, if it is animated, and what is to be said about it. -/
def motion (fragment : Fragment) (node : Node) : Outcome (Option Motion × List String) :=
  match openingTag? node with
  | none => .ok (none, [])
  | some opening =>
    match (opening.child? .name).bind fun name => motionTag? (name.text fragment.text) with
    | none => .ok (none, [])
    | some tag => do
      let plain := { Motion.ofTag tag with location? := some (fragment.location opening) }
      let (motion, warnings) ← addAttributes fragment plain [] opening.named
      if motion.phases.isEmpty then return (none, warnings)
      let motion := { motion with sites := [fragment.site opening] }
      if node.kind == .element then
        return (some { motion with content? := content? fragment node.children }, warnings)
      else return (some motion, warnings)

mutual

/-- What a node holds. -/
def collectOne (fragment : Fragment) : Node → Outcome Found
  | .mk kind role span children =>
    let node : Node := .mk kind role span children
    let inner := collect fragment children
    match kind with
    | .openingTag | .closingTag => .ok Found.nothing
    | .element | .selfClosingTag => do
      let (found, warnings) ← motion fragment node
      match found with
      | some motion =>
        if kind == .selfClosingTag then return ⟨[⟨motion, []⟩], 0, warnings⟩
        let inner ← inner
        return ⟨[⟨{ motion with plainMarkup := inner.plainMarkup }, inner.elements⟩], 0,
          warnings ++ inner.warnings⟩
      | none => return ((← inner).within (if isFragment node then 0 else 1)).warned warnings
    | _ => inner

/-- What several nodes hold. -/
def collect (fragment : Fragment) : List Node → Outcome Found
  | [] => .ok Found.nothing
  | node :: rest => do
    let here ← collectOne fragment node
    return here.append (← collect fragment rest)

end

/-- The animated elements of a script, the number of elements around them, and what is to be said. -/
def extract (fragment : Fragment) (root : Node) : Outcome Found := collect fragment root.children

end Markup

end AnimationCode
