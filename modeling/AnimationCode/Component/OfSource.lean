/-
**Reading a source.**

The framework is given or inferred. A script with markup is read as it stands and, if that fails, as a
fragment; the plain form of the language is tried before the typed one, unless a form is asked for. The
first failure is reported. Scripts are read by the parser that is given, which is that of the grammar if nothing is said.

* `SourceTree.extract`: the animated elements of what was read;
* `Source.read`: the component that a source holds.
-/

import AnimationCode.Component.Declarations
import AnimationCode.Element.OfCalls
import AnimationCode.Element.OfMarkup
import AnimationCode.Element.OfTemplate
import AnimationCode.Template.Block

namespace AnimationCode

/-- The animated elements of what was read. -/
def SourceTree.extract (tree : SourceTree) (parse : Script.Parser := Script.parse?) : Outcome Found :=
  match tree with
  | markup text root wrapped => Markup.extract ⟨text, wrapped⟩ root
  | calls text root => Calls.extract text root
  | template _ none => .ok Found.nothing
  | template source (some root) => TemplateMotion.extract parse source root

/-- A source with what is known about it beforehand. -/
structure Source where
  code : List Char
  /-- The name of the framework; without one it is inferred. -/
  framework? : Option String
  /-- Whether the typed form of the language is used; if nothing is said it is found out. -/
  typescript? : Option Bool
  /-- The name of the component if the source has none. -/
  name? : Option String
deriving Repr, Inhabited

namespace Source

open Script (Node Dialect)

variable (parse : Script.Parser)

/-- The name of a component without a name. -/
def placeholderName : String := "AnimatedComponent"

/-- The name that stands for what has no name. -/
def fallbackName (source : Source) : String :=
  match source.name? with
  | some name => if name = "" then placeholderName else name
  | none => placeholderName

/-- A way to read a script. -/
structure Attempt where
  typescript : Bool
  wrapped : Bool
deriving DecidableEq, Repr, Inhabited

/-- The ways to read a script, in the order in which they are tried. -/
def attempts (framework : Framework) (typescript? : Option Bool) : List Attempt :=
  let forms := match typescript? with
    | some typescript => [typescript]
    | none => [false, true]
  forms.flatMap fun typescript =>
    if framework = .react then [⟨typescript, false⟩, ⟨typescript, true⟩] else [⟨typescript, false⟩]

/-- The form of the language: markup in typed scripts is for components only. -/
def dialect (framework : Framework) (typescript : Bool) : Dialect :=
  ⟨typescript, framework = .react || !typescript⟩

/-- The name of the language that a script is not. -/
def languageName (typescript : Bool) : String := if typescript then "TypeScript" else "JavaScript"

/-- The number of characters before a fragment. -/
def fragmentOffset : Nat := 2

/-- The text that is read, and the tree. -/
def Attempt.tree? (attempt : Attempt) (framework : Framework) (code : List Char) :
    Option (List Char × Node) :=
  let text := if attempt.wrapped then "<>".toList ++ code ++ "\n</>".toList else code
  (parse (dialect framework attempt.typescript) text).map fun root => (text, root)

/-- A script that was read. -/
structure ScriptReading where
  typescript : Bool
  wrapped : Nat
  text : List Char
  root : Node
deriving Repr, Inhabited

/-- The first reading of a script that succeeds. -/
def readScript (framework : Framework) (code : List Char) : List Attempt → Option ScriptReading
  | [] => none
  | attempt :: rest =>
    match attempt.tree? parse framework code with
    | some (text, root) =>
      some ⟨attempt.typescript, if attempt.wrapped then fragmentOffset else 0, text, root⟩
    | none => readScript framework code rest

/-- The component that a script holds. -/
def readScriptComponent (source : Source) (framework : Framework) : Outcome Component := do
  let attempts := attempts framework source.typescript?
  match readScript parse framework source.code attempts with
  | none => throw (.malformedScript (languageName (attempts.head?.any (·.typescript))))
  | some reading =>
    let text := reading.text
    let root := reading.root
    let imports ← Declarations.imports text root
    let name := (Declarations.componentName? text root framework).getD source.fallbackName
    let tree : SourceTree :=
      if framework = .react then .markup text root reading.wrapped else .calls text root
    let found ← tree.extract parse
    return {
      framework := framework, typescript := reading.typescript, name := name, source := source.code,
      imports := imports, exports := Declarations.exports text root, elements := found.elements,
      hooks := Declarations.hooks text root imports framework 0,
      hasShell := Declarations.hasShell text root, warnings := found.warnings,
      plainMarkup := found.plainMarkup,
      bindings :=
        (Declarations.importedNames imports ++ Declarations.bound text root).eraseDups,
      logic := Logic.statements text root framework (some name), tree? := some tree }

/-- What the script blocks of a component say. -/
structure ScriptFacts where
  imports : List ImportDeclaration
  exports : List String
  hooks : List Hook
  bindings : List String
  logic : List String
deriving Repr, Inhabited

/-- What two script blocks say, the first before the second. -/
def ScriptFacts.append (a b : ScriptFacts) : ScriptFacts :=
  ⟨a.imports ++ b.imports, a.exports ++ b.exports, a.hooks ++ b.hooks, a.bindings ++ b.bindings,
    a.logic ++ b.logic⟩

/-- What one script block says. -/
def readBlock (source : Source) (block : ScriptBlock) : Outcome ScriptFacts := do
  let typescript := block.typescript || source.typescript?.getD false
  match parse (dialect .vue typescript) block.code with
  | none => throw (.malformedScript "Vue script")
  | some root =>
    let lineOffset := Text.lineFeeds (source.code.take block.offset)
    let imports ← Declarations.imports block.code root
    return {
      imports := imports, exports := Declarations.exports block.code root,
      hooks := Declarations.hooks block.code root imports .vue lineOffset,
      bindings := Declarations.importedNames imports ++ Declarations.bound block.code root,
      logic := Logic.statements block.code root .vue none }

/-- What the script blocks say. -/
def readBlocks (source : Source) : List ScriptBlock → Outcome ScriptFacts
  | [] => .ok ⟨[], [], [], [], []⟩
  | block :: rest => do
    let here ← readBlock parse source block
    return here.append (← readBlocks source rest)

/-- The tree of the template among the blocks, if there is one. -/
def readTemplate (source : Source) (blocks : Blocks) : Outcome (Option TemplateNode) :=
  match blocks.template? with
  | some (markup, offset) => some <$> Template.scan markup offset source.code
  | none => .ok none

/-- The component that a single-file component or a template holds. -/
def readTemplateComponent (source : Source) : Outcome Component := do
  let blocks ← Blocks.ofSource (Blocks.withoutStyles source.code)
  let template ← source.readTemplate blocks
  let facts ← readBlocks parse source blocks.scripts
  let tree : SourceTree := .template source.code template
  let found ← tree.extract parse
  return {
    framework := .vue,
    typescript := source.typescript?.getD (blocks.scripts.any (·.typescript)),
    name := (blocks.scripts.findSome? (·.componentName?)).getD source.fallbackName,
    source := source.code, imports := facts.imports, exports := facts.exports,
    elements := found.elements, hooks := facts.hooks, hasShell := blocks.hasTemplate,
    warnings := found.warnings, plainMarkup := found.plainMarkup,
    bindings := facts.bindings.eraseDups, logic := facts.logic, tree? := some tree }

/-- The framework of a source. -/
def framework (source : Source) : Outcome Framework :=
  match source.framework? with
  | some name =>
    if name = "" then .ok (Framework.infer (String.ofList source.code))
    else match Framework.ofName? name with
      | some framework => .ok framework
      | none => .error (.unsupportedFramework name)
  | none => .ok (Framework.infer (String.ofList source.code))

/-- The component that a source holds. -/
def read (source : Source) (parse : Script.Parser := Script.parse?) : Outcome Component := do
  if Text.isBlankText source.code then throw .emptySource
  match ← source.framework with
  | .vue => readTemplateComponent parse source
  | framework => readScriptComponent parse source framework

end Source

end AnimationCode
