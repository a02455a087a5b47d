/-
**Writing the animated parts of a source anew.**

Only the opening tags or the calls at which elements are animated are written anew; the rest of the
source stays. Each edit replaces an interval of the text as it was, and edits are made from the last
one to the first, so that none moves the place of another. What the new parts need is added: the
component around a fragment, the imports, and the declaration of the wish for reduced motion.

* `Splice.apply`: the text after all edits;
* `Splice.lineIndent`: the blanks that a line begins with;
* `InPlace.splice`: the source with its animated parts written anew;
* `InPlace.addShell`: a fragment inside a component;
* `InPlace.fixImports`: the imports that the animated parts need;
* `InPlace.render?`: all of this.
-/

import AnimationCode.Account
import AnimationCode.Component.Basic
import AnimationCode.Import.Edit
import AnimationCode.Import.Record
import AnimationCode.Render.Calls
import AnimationCode.Render.Markup
import AnimationCode.Render.Template
import AnimationCode.Text.Position

namespace AnimationCode

/-- An interval of a text and what is written in its place. -/
structure Edit where
  start : Nat
  stop : Nat
  written : List Char
deriving DecidableEq, Repr, Inhabited

namespace Splice

/-- The text after one edit. -/
def applyOne (text : List Char) (edit : Edit) : List Char :=
  text.take edit.start ++ edit.written ++ text.drop edit.stop

/-- The edits with the last one first. -/
def lastFirst (edits : List Edit) : List Edit :=
  edits.mergeSort fun a b => decide (b.start ≤ a.start)

/-- The text after all edits. -/
def apply (text : List Char) (edits : List Edit) : List Char :=
  (lastFirst edits).foldl applyOne text

/-- The blanks that the line of an offset begins with. -/
def lineIndent (text : List Char) (offset : Nat) : List Char :=
  let start := offset - (Text.lastLine (text.take offset)).length
  (text.drop start).takeWhile fun c => c == ' ' || c == '\t'

end Splice

namespace InPlace

open Text (isBlank isWord stripStart?)

/-! ### Opening tags -/

/-- The source in an interval. -/
def sliceOf (source : List Char) (site : Site) : List Char :=
  (source.take site.stop).drop site.start

/-- Whether an opening tag closes itself. -/
def closesItself (tag : List Char) : Bool :=
  Text.endsWith ['/', '>'] (Text.trimRight tag)

/-- The namespace of a tag, with its point. -/
def tagSpace? (tag : List Char) : Option String :=
  match tag with
  | '<' :: rest =>
    let rest := rest.dropWhile isBlank
    let name := rest.takeWhile Text.isNamePart
    if name ≠ [] ∧ (rest.drop name.length).head? = some '.' then
      some (String.ofList (name ++ ['.']))
    else none
  | _ => none

/-- An opening tag in the markup of a script, written anew. -/
def markupTag (source : List Char) (site : Site) (motion : Motion) : String :=
  let tag := sliceOf source site
  let space := (tagSpace? tag).getD MarkupRender.motionSpace
  (MarkupRender.style space).opening motion (String.ofList (Splice.lineIndent source site.start))
    (closesItself tag)

/-- Whether the motion directive begins here, after a blank. -/
def directiveHere (cs : List Char) : Bool :=
  match cs with
  | c :: rest =>
    isBlank c && match stripStart? "v-motion".toList rest with
      | some (next :: _) => isBlank next || next == '>' || next == '/' || next == '='
      | _ => false
  | [] => false

/-- Whether a tag carries the motion directive. -/
def hasDirective (tag : List Char) : Bool :=
  Text.anySuffix (fun _ suffix => directiveHere suffix) none tag

/-- Whether the name of a tag ends here. -/
def endsName (cs : List Char) : Bool :=
  cs.head?.any fun c => isBlank c || c == '>' || c == '/'

/-- The name of a tag that is a motion component. -/
def componentName? (tag : List Char) : Option String :=
  match tag with
  | '<' :: rest =>
    let rest := rest.dropWhile isBlank
    let whole := match stripStart? "Motion".toList rest with
      | some after => endsName after
      | none => false
    if whole then some "Motion"
    else
      ["motion.", "Motion."].findSome? fun space =>
        (stripStart? space.toList rest).bind fun after =>
          let part := after.takeWhile fun c => isWord c || c == '-'
          if part ≠ [] ∧ endsName (after.drop part.length) = true then
            some (space ++ String.ofList part)
          else none
  | _ => none

/-- An opening tag of a template, written anew, if it is one that can be. -/
def templateTag? (source : List Char) (site : Site) (motion : Motion) : Option String :=
  let tag := sliceOf source site
  let style? :=
    if hasDirective tag then some TemplateRender.directiveStyle
    else (componentName? tag).map TemplateRender.componentStyle
  style?.map fun style =>
    style.opening motion (String.ofList (Splice.lineIndent source site.start))
      (closesItself tag)

/-! ### Edits -/

/-- What is written at a site of an element, if it is written anew. -/
def written? (framework : Framework) (source : List Char) (motion : Motion) (site : Site) :
    Option String :=
  match framework with
  | .react => some (markupTag source site motion)
  | .js => CallRender.siteCall? motion site.phase site.target
  | _ => templateTag? source site motion

/-- The sites of an element that are written anew: a tag has one, calls have many. -/
def sites (framework : Framework) (motion : Motion) : List Site :=
  if framework = .js then motion.sites else motion.sites.take 1

/-- The edits at the sites of an element. -/
def editsOf (framework : Framework) (source : List Char) (motion : Motion) : List Edit :=
  (sites framework motion).filterMap fun site =>
    (written? framework source motion site).map fun text => ⟨site.start, site.stop, text.toList⟩

/-- The values that stand in what is written at a site of an element. -/
def valuesAt (framework : Framework) (source : List Char) (motion : Motion) (site : Site) :
    List Value :=
  let tag := sliceOf source site
  match framework with
  | .react => MarkupRender.values motion
  | .js => CallRender.siteValues motion site.phase
  | _ =>
    if hasDirective tag then TemplateRender.directiveValues motion
    else if (componentName? tag).isSome then TemplateRender.componentValues motion
    else []

/-- The values that stand in the animated parts of a component written anew. -/
def values (component : Component) : List Value :=
  component.elements.motions.flatMap fun motion =>
    (sites component.framework motion).flatMap (valuesAt component.framework component.source motion)

/-- The source of a component with its animated parts written anew. -/
def splice (component : Component) : List Char :=
  Splice.apply component.source
    (component.elements.motions.flatMap (editsOf component.framework component.source))

/-! ### What surrounds the animated parts -/

/-- A text without line feeds at its ends. -/
def withoutLineFeeds (text : List Char) : List Char :=
  Text.dropLeading '\n' (Text.dropTrailing '\n' text)

/-- A template inside a component of its own. -/
def templateShell (code : List Char) (context : Context) (reduced : Bool) : List Char :=
  (Layout.document <|
    ["<template>"] ++ Layout.indentBlock Layout.unit (withoutLineFeeds code) ++ ["</template>", ""] ++
      TemplateRender.setupLines TemplateRender.directiveImport context reduced [] true).toList

/-- Markup inside a function that returns it. -/
def markupShell (body : List Char) (wrapped : Bool) (context : Context) : List String :=
  let expression := Text.dropTrailing ';' (Text.trimRight body)
  let inner :=
    if wrapped then
      (Layout.indent 2 ++ "<>") :: Layout.indentBlock (Layout.indent 3) expression ++
        [Layout.indent 2 ++ "</>"]
    else Layout.indentBlock (Layout.indent 2) expression
  ["export default function " ++ context.componentName ++ "() \x7b", Layout.unit ++ "return ("] ++
    inner ++ [Layout.unit ++ ");", "\x7d"]

/-- Statements inside a function. -/
def callShell (body : List Char) (context : Context) : List String :=
  CallRender.functionHead context :: Layout.indentBlock Layout.unit body ++ ["\x7d"]

/-- A shell after the imports that the code begins with. -/
def afterHead (head : List Char) (shell : List String) : List Char :=
  if head.isEmpty then (Layout.document shell).toList
  else head ++ '\n' :: '\n' :: (Layout.document shell).toList

/-- The code inside a component; a script that begins with something else than markup is one already. -/
def addShell (code : List Char) (component : Component) (context : Context) : List Char :=
  match component.framework with
  | .vue => templateShell code context component.elements.reducesMotion
  | .react =>
    let (head, rest) := Imports.split code
    let body := withoutLineFeeds rest
    if (Text.trimLeft body).head? = some '<' then
      let wrapped := component.tree?.any fun tree => tree.wrapped != 0
      afterHead head (markupShell body wrapped context)
    else code
  | _ =>
    let (head, rest) := Imports.split code
    afterHead head (callShell (withoutLineFeeds rest) context)

/-- The names that the animated parts of a component need, with their modules. -/
def requiredImports (component : Component) : List (String × String) :=
  if component.elements.isEmpty then []
  else match component.framework with
    | .vue => []
    | .react => [("framer-motion", "motion")]
    | _ =>
      ("motion", "animate") ::
        (if component.elements.motions.any (·.hasPhase .inView) then [("motion", "inView")] else [])

/-- The names that a component imports from the animation libraries; the short name of the motion
namespace counts as the long one. -/
def presentNames (component : Component) : List String :=
  let names := (component.imports.filter fun declaration =>
    motionSources.contains declaration.source).flatMap (·.localNames)
  if component.framework = .react ∧ names.contains "m" = true then "motion" :: names else names

/-- The code without the imports to remove, and with those that its animated parts need. -/
def fixImports (code : List Char) (component : Component) (removed : List String) : List Char :=
  let code := if removed.isEmpty then code else Imports.trim code removed none
  ((requiredImports component).filter fun (_, name) => !(presentNames component).contains name).foldl
    (fun code (source, name) => Imports.add code source name) code

/-- The text of a component's source with its animated parts written anew, and all that they need. -/
def render (component : Component) (removed : List String) (context : Context) : List Char :=
  let code := fixImports (splice component) component removed
  let code := if component.hasShell then code else addShell code component context
  if component.elements.reducesMotion then
    ReducedMotion.ensure code component.framework context.typescript
  else code

/-- The source of a component with its animated parts written anew, if their values can be written. -/
def render? (component : Component) (removed : List String) (context : Context) :
    Outcome (List Char) :=
  Value.whenWritable (values component) (render component removed context)

end InPlace

end AnimationCode
