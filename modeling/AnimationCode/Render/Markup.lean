/-
**Components with markup in their script.**

* `MarkupRender.items`: the attributes of an element, phases first;
* `MarkupRender.values`: the values that stand in them;
* `MarkupRender.render?`: a whole script.
-/

import AnimationCode.Context
import AnimationCode.Import.Record
import AnimationCode.ReducedMotion
import AnimationCode.Render.Layout
import AnimationCode.Value.Printer

namespace AnimationCode

namespace MarkupRender

/-- A value as it stands in markup: between double quotes, or between braces. -/
def valueText (value : Value) : String :=
  match value with
  | .text s =>
    if s.contains '"' || s.contains '\n' then "\x7b" ++ value.print ++ "\x7d" else "\"" ++ s ++ "\""
  | _ => "\x7b" ++ value.print ++ "\x7d"

/-- The value of a phase as it is written: a transition is guarded if the motion asks for it. -/
def phaseValue (motion : Motion) (phase : String) : Value :=
  let value := (motion.phases.get? phase).getD .null
  if phase = Phase.transition.name ∧ motion.reducedMotion = true then .guarded value else value

/-- A phase as an attribute. -/
def phaseItem (motion : Motion) (phase : String) : String :=
  Phase.spelling phase .markup ++ "=" ++ valueText (phaseValue motion phase)

/-- An attribute, unless it only means something elsewhere. -/
def attributeItem? (field : String × Value) : Option String :=
  let (name, value) := field
  if name.startsWith "\x7b" then some name
  else if name = "selector" ∨ name.startsWith "v-" then none
  else match value with
    | .bool true => some name
    | _ => some (name ++ "=" ++ valueText value)

/-- The attributes of an element, phases first. -/
def items (motion : Motion) : List String :=
  motion.orderedPhases.map (phaseItem motion) ++ motion.attributes.filterMap attributeItem?

/-- The value of an attribute, unless it only means something elsewhere. -/
def attributeValue? (field : String × Value) : Option Value :=
  if field.1.startsWith "\x7b" ∨ field.1 = "selector" ∨ field.1.startsWith "v-" then none else some field.2

/-- The values that stand in the attributes of an element. -/
def values (motion : Motion) : List Value :=
  motion.phases.values ++ motion.attributes.filterMap attributeValue?

/-- The way in which elements are written under a namespace. -/
def style (space : String) : Layout.TagStyle := ⟨fun motion => space ++ motion.tag, items⟩

/-- The namespace of animated elements. -/
def motionSpace : String := "motion."

/-- The elements between the braces of what is returned, with what has to stand around them. -/
def tree (forest : Forest) (presence : Bool) : List String :=
  let several := decide (1 < forest.length)
  let depth := 2 + presence.toNat + several.toNat
  let lines := Layout.rootLines (style motionSpace) depth "\x7bchildren\x7d" forest
  let lines :=
    if several then
      let pad := Layout.indent (depth - 1)
      (pad ++ "<>") :: lines ++ [pad ++ "</>"]
    else lines
  if presence then
    let pad := Layout.indent 2
    (pad ++ "<AnimatePresence>") :: lines ++ [pad ++ "</AnimatePresence>"]
  else lines

/-- The names that a script imports. -/
def imports (forest : Forest) (presence typed : Bool) : ImportRecord :=
  let record := ImportRecord.empty
  let record := if forest.isEmpty then record else record.use "framer-motion" "motion" .named
  let record := if presence then record.use "framer-motion" "AnimatePresence" .named else record
  if typed then record.use "react" "ReactNode" .typed else record

/-- The text of a script for a forest. -/
def render (forest : Forest) (context : Context) (placeholders : List String) : String :=
  let name := context.componentName
  let room := Layout.hasRoom forest
  let presence := forest.motions.any (·.hasPhase .exit)
  let typed := room && context.typescript
  let head := (imports forest presence typed).render
  let lines := tree forest presence
  let parameters :=
    if !room then ""
    else if typed then "\x7b children \x7d: " ++ name ++ "Props"
    else "\x7b children \x7d"
  Layout.document <|
    (if head.isEmpty then [] else head ++ [""]) ++
    (if forest.reducesMotion then [ReducedMotion.declaration, ""] else []) ++
    (if typed then
      ["interface " ++ name ++ "Props \x7b", Layout.unit ++ "children?: ReactNode;", "\x7d", ""]
    else []) ++
    ["export default function " ++ name ++ "(" ++ parameters ++ ") \x7b"] ++
    (Layout.placeholderLines placeholders).map (Layout.unit ++ ·) ++
    (if lines.isEmpty then [Layout.unit ++ "return null;"]
    else (Layout.unit ++ "return (") :: lines ++ [Layout.unit ++ ");"]) ++
    ["\x7d"]

/-- A script for a forest, if its values can be written. -/
def render? (forest : Forest) (context : Context) (placeholders : List String) : Outcome String :=
  Value.whenWritable (forest.motions.flatMap values) (render forest context placeholders)

end MarkupRender

end AnimationCode
