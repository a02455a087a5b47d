/-
**What a script declares, and what of it is not written anew.**

* `Declarations.imports`, `Declarations.exports`: what a script takes from and hands to other modules;
* `Declarations.componentName?`: the name of the component that a script defines;
* `Declarations.bound`: the names that a script declares anywhere;
* `Declarations.hooks`: the hooks that a script calls.

The generators write the component, its imports, the guard of reduced motion and the animated parts.
State, handlers, helpers and side effects of a script are none of these.

* `Logic.statements`: a short form of each statement that no generator writes;
* `Logic.isKept`: whether a statement is written anew.
-/

import AnimationCode.Component.Basic
import AnimationCode.Import.Record
import AnimationCode.Script.Literal

namespace AnimationCode

namespace Declarations

open Script (Node Kind)

/-- The text of a node. -/
def textOf (source : List Char) (node : Node) : String := String.ofList (node.text source)

/-! ### Imports -/

/-- What an import binds, given what was found in it before. -/
def addClause (source : List Char) (found : ImportDeclaration) (part : Node) : ImportDeclaration :=
  match part.kind with
  | .identifier => { found with default? := some (textOf source part) }
  | .namespaceImport =>
    match (part.named.filter (·.kind == .identifier)).getLast? with
    | some name => { found with whole? := some (textOf source name) }
    | none => found
  | .namedImports =>
    let names := (part.named.filter (·.kind == .importSpecifier)).map fun specifier =>
      String.ofList (Text.squeeze (specifier.text source))
    { found with names := found.names ++ names }
  | _ => found

/-- What one import statement binds; nothing if it names no module. -/
def importOf (source : List Char) (statement : Node) : Outcome (Option ImportDeclaration) :=
  match statement.child? .source with
  | none => .ok none
  | some module => do
    let name ← Script.unquoted (module.text source)
    let typeOnly := statement.children.any (·.kind == .typeMark)
    let clauses := statement.named.filter (·.kind == .importClause)
    return some ((clauses.flatMap Node.named).foldl (addClause source) ⟨name, [], none, none, typeOnly⟩)

/-- The imports among some statements. -/
def importsAmong (source : List Char) : List Node → Outcome (List ImportDeclaration)
  | [] => .ok []
  | statement :: rest =>
    if statement.kind == .importStatement then do
      let here ← importOf source statement
      return here.toList ++ (← importsAmong source rest)
    else importsAmong source rest

/-- The imports of a script. -/
def imports (source : List Char) (root : Node) : Outcome (List ImportDeclaration) :=
  importsAmong source root.named

/-- The names that are imported from other modules than the animation libraries. -/
def importedNames (imports : List ImportDeclaration) : List String :=
  (imports.filter fun declaration => !motionSources.contains declaration.source).flatMap
    (·.localNames)

/-! ### Exports and the component's name -/

/-- A declaration of variables. -/
def isVariables (node : Node) : Bool :=
  node.kind == .lexicalDeclaration || node.kind == .variableDeclaration

/-- The variables of a declaration. -/
def declarators (node : Node) : List Node := node.named.filter (·.kind == .declarator)

/-- A function as an expression. -/
def isFunction (node : Node) : Bool :=
  node.kind == .arrowFunction || node.kind == .functionExpression

/-- The name that a declaration binds first. -/
def declaredName? (source : List Char) (node : Node) : Option String :=
  match node.kind with
  | .functionDeclaration | .classDeclaration | .generatorDeclaration =>
    (node.child? .name).map (textOf source)
  | .lexicalDeclaration | .variableDeclaration =>
    ((declarators node).head?.bind (·.child? .name)).map (textOf source)
  | _ => none

/-- The names under which one statement hands something out. -/
def exportsOf (source : List Char) (statement : Node) : List String :=
  let byDefault := if statement.children.any (·.kind == .defaultMark) then ["default"] else []
  match statement.child? .declaration with
  | some declaration => byDefault ++ (declaredName? source declaration).toList
  | none =>
    match statement.child? .value with
    | some value =>
      if value.kind == .identifier then byDefault ++ [textOf source value] else listed ++ byDefault
    | none => listed ++ byDefault
where
  /-- The names in the export's list. -/
  listed : List String :=
    ((statement.named.filter (·.kind == .exportClause)).flatMap Node.named).filterMap fun specifier =>
      ((specifier.child? .alias_).orElse fun _ => specifier.child? .name).map (textOf source)

/-- The names that a script hands out. -/
def exports (source : List Char) (root : Node) : List String :=
  (root.named.filter (·.kind == .exportStatement)).flatMap (exportsOf source)

/-- The functions and classes that one statement declares. -/
def definitionsOf (source : List Char) (target : Node) : List String :=
  match target.kind with
  | .functionDeclaration | .classDeclaration => (declaredName? source target).toList
  | .lexicalDeclaration | .variableDeclaration =>
    (declarators target).filterMap fun declarator =>
      if (declarator.child? .value).any isFunction then
        (declarator.child? .name).map (textOf source)
      else none
  | _ => []

/-- The functions and classes that a script declares at its outermost level. -/
def definitions (source : List Char) (root : Node) : List String :=
  (root.named.flatMap fun node =>
    if node.kind == .exportStatement then
      ((node.child? .declaration).map (definitionsOf source)).getD []
    else definitionsOf source node).filter (· != "")

/-- Whether a script hands something out or defines a function or a class. -/
def hasShell (source : List Char) (root : Node) : Bool :=
  root.named.any (·.kind == .exportStatement) || !(definitions source root).isEmpty

/-- A name that begins with a capital letter and has letters, digits and underscores of ASCII. -/
def isPascal (name : String) : Bool :=
  match name.toList with
  | c :: cs => c.isUpper && cs.all fun d => d.isAlphanum || d == '_'
  | [] => false

/-- What follows `animate` in a name, if it begins with a capital letter. -/
def animated? (name : String) : Option String :=
  match Text.stripStart? "animate".toList name.toList with
  | some (c :: cs) => if Text.isUpper c then some (String.ofList (c :: cs)) else none
  | _ => none

/-- The name of the component that a script defines. -/
def componentName? (source : List Char) (root : Node) (framework : Framework) : Option String :=
  let names := (exports source root).filter (· != "default") ++ definitions source root
  if framework = .js then
    match names.findSome? animated? with
    | some name => some name
    | none => names.head?
  else names.find? isPascal

/-! ### Bound names -/

/-- Names that are written anew with the animated parts. -/
def regenerated : List String := ["prefersReducedMotion", "vMotion"]

mutual

/-- The names that a pattern binds. -/
def patternNames (source : List Char) : Node → List String
  | .mk kind role span children =>
    match kind with
    | .identifier | .shorthandPattern => [textOf source (.mk kind role span children)]
    | .assignmentPattern | .objectAssignmentPattern => patternNamesAs source .left children
    | .pairPattern => patternNamesAs source .value children
    | _ => patternNamesEach source children

/-- The names that the constructs among some nodes bind. -/
def patternNamesEach (source : List Char) : List Node → List String
  | [] => []
  | node :: rest =>
    (if node.kind.isNamed then patternNames source node else []) ++ patternNamesEach source rest

/-- The names that the first node in a role binds. -/
def patternNamesAs (source : List Char) (role : Script.Role) : List Node → List String
  | [] => []
  | node :: rest =>
    if node.role == role then patternNames source node else patternNamesAs source role rest

end

/-- The names that one node binds. -/
def boundBy (source : List Char) (node : Node) : List String :=
  match node.kind with
  | .declarator => ((node.child? .name).map (patternNames source)).getD []
  | .functionDeclaration | .classDeclaration | .generatorDeclaration =>
    ((node.child? .name).map (textOf source)).toList
  | _ => []

/-- The variables, functions and classes that a script declares anywhere. -/
def bound (source : List Char) (root : Node) : List String :=
  ((root.walk.flatMap (boundBy source)).eraseDups).filter (!regenerated.contains ·)

/-! ### Hooks -/

/-- The helpers of the animation library. -/
def helpers : List String :=
  ["scroll", "timeline", "stagger", "spring", "inView", "glide", "mix", "transform"]

/-- The name of a hook: `use` and a name with a capital letter. -/
def isHookName (name : String) : Bool :=
  match Text.stripStart? "use".toList name.toList with
  | some (c :: cs) => c.isUpper && cs.all Text.isWord
  | _ => false

/-- The module that a name is imported from; a later import wins. -/
def originOf (imports : List ImportDeclaration) (name : String) : Option String :=
  (imports.reverse.find? fun declaration => declaration.localNames.contains name).map (·.source)

/-- The name that a call calls, if it is no more than a name. -/
def calledName? (source : List Char) (node : Node) : Option String :=
  if node.kind == .call then
    match node.child? .callee with
    | some callee => if callee.kind == .identifier then some (textOf source callee) else none
    | none => none
  else none

/-- Whether a call of a name is kept in mind. -/
def isHook (imports : List ImportDeclaration) (framework : Framework) (name : String) : Bool :=
  if framework = .js then
    helpers.contains name && (originOf imports name).any motionSources.contains
  else isHookName name

/-- The hooks that a script calls, each where it is called first; lines count from an offset. -/
def hooks (source : List Char) (root : Node) (imports : List ImportDeclaration)
    (framework : Framework) (lineOffset : Nat) : List Hook :=
  let step (found : List Hook) (node : Node) : List Hook :=
    match calledName? source node with
    | some name =>
      if isHook imports framework name && !found.any (·.name == name) then
        let place := Location.inBytes source node.span.start
        found ++ [⟨name, originOf imports name, some ⟨place.line + lineOffset, place.column⟩⟩]
      else found
    | none => found
  root.walk.foldl step []

end Declarations

namespace Logic

open Script (Node Kind)
open Declarations (textOf)

/-- The calls that are written anew. -/
def regeneratedCalls : List String :=
  ["defineOptions", "defineProps", "defineEmits", "defineExpose", "withDefaults", "MotionDirective"]

mutual

/-- The first construct inside some kinds of nodes, however deep. -/
def core (kinds : List Kind) : Node → Node
  | .mk kind role span children =>
    if kinds.contains kind then (coreAmong kinds children).getD (.mk kind role span children)
    else .mk kind role span children

/-- The core of the first construct among some nodes. -/
def coreAmong (kinds : List Kind) : List Node → Option Node
  | [] => none
  | node :: rest => if node.kind.isNamed then some (core kinds node) else coreAmong kinds rest

end

/-- The text of what a call calls. -/
def callee (source : List Char) (node : Node) : String :=
  ((node.child? .callee).map (textOf source)).getD ""

/-- Whether an expression is a call that is written anew. -/
def isKeptCall (source : List Char) (framework : Framework) (node : Node) : Bool :=
  let call := core [.awaiting, .parenthesized] node
  let name := callee source call
  call.kind == .call &&
    (Declarations.isHookName name || regeneratedCalls.contains name ||
      (framework == .js && Text.endsWith ".querySelector".toList name.toList))

/-- A call of the animation functions. -/
def isAnimation (source : List Char) (node : Node) : Bool :=
  node.kind == .call && ["animate", "inView"].contains (callee source node)

/-- The statements that have no effect of their own. -/
def inert : List Kind :=
  [.comment, .importStatement, .emptyStatement, .returnStatement, .interfaceDeclaration, .typeAlias]

/-- An element in markup. -/
def isElement (node : Node) : Bool := node.kind == .element || node.kind == .selfClosingTag

/-- Whether a variable is written anew. -/
def isKeptVariable (source : List Char) (framework : Framework) (declarator : Node) : Bool :=
  (declarator.child? .name).any (fun name => Declarations.regenerated.contains (textOf source name)) ||
    (declarator.child? .value).any (isKeptCall source framework)

/-- Whether a statement is written anew. -/
def isKept (source : List Char) (framework : Framework) (statement : Node) : Bool :=
  inert.contains statement.kind ||
  (framework == .js && statement.walk.any (isAnimation source)) ||
  match statement.kind with
  | .expressionStatement =>
    match statement.named.head? with
    | none => true
    | some value =>
      let value := core [.parenthesized] value
      isElement value || isKeptCall source framework value
  | .lexicalDeclaration | .variableDeclaration =>
    (Declarations.declarators statement).all (isKeptVariable source framework)
  | _ => false

/-- The function or the class that a node defines under one of some names; a function without a name
counts under every name. -/
def definition? (source : List Char) (names : List String) (node : Node) : Option Node :=
  let isNamed (named : Node) : Bool :=
    (named.child? .name).any fun name => names.contains (textOf source name)
  if Declarations.isFunction node then some node
  else if node.kind == .functionDeclaration || node.kind == .classDeclaration then
    if isNamed node then some node else none
  else if Declarations.isVariables node then
    ((Declarations.declarators node).reverse.filter isNamed).findSome? fun declarator =>
      (declarator.child? .value).filter Declarations.isFunction
  else none

/-- The first line of a statement, cut to sixty characters. -/
def snippet (source : List Char) (node : Node) : String :=
  let line := Text.trim ((Text.lines (Text.trim (node.text source))).headD [])
  String.ofList <|
    if line.length ≤ 60 then line else Text.trimRight (line.take 57) ++ "...".toList

/-- The statements of a node that are not written anew: those in the body of the component, or the node
itself. -/
def statementsOf (source : List Char) (framework : Framework) (names : List String) (target : Node) :
    List String :=
  match definition? source names target with
  | some definition =>
    match definition.child? .body with
    | some body =>
      if body.kind == .block then
        (body.named.filter (!isKept source framework ·)).map (snippet source)
      else []
    | none => []
  | none => if isKept source framework target then [] else [snippet source target]

/-- The statements of a script that are not written anew, given the name of its component. -/
def statements (source : List Char) (root : Node) (framework : Framework) (component : Option String) :
    List String :=
  let names := match component with
    | some name => if name = "" then [] else [name, "animate" ++ name]
    | none => []
  root.named.flatMap fun node =>
    if node.kind == .exportStatement then
      match (node.child? .declaration).orElse fun _ => node.child? .value with
      | some target => statementsOf source framework names target
      | none => []
    else statementsOf source framework names node

end Logic

end AnimationCode
