/-
**A piece of animated source code, read.**

A component is what a source says: its imports and exports, its animated elements, the hooks it calls,
and what else its script holds.

* `Component.hasShell`: whether the source declares the component around its animated parts;
* `SourceTree.wrapped`: the characters that were put before a fragment to read it.
-/

import AnimationCode.Element.Basic
import AnimationCode.Script.Node
import AnimationCode.Template.Node

namespace AnimationCode

/-- What an import binds. -/
structure ImportDeclaration where
  source : String
  names : List String
  default? : Option String
  whole? : Option String
  typeOnly : Bool
deriving DecidableEq, Repr, Inhabited

/-- A call of a hook, or of a helper of the animation library. -/
structure Hook where
  name : String
  /-- The module that the name is imported from. -/
  source? : Option String
  location? : Option Location
deriving DecidableEq, Repr, Inhabited

/-- What a source was read as. -/
inductive SourceTree where
  /-- A script with markup; characters put before the source are counted. -/
  | markup (text : List Char) (root : Script.Node) (wrapped : Nat)
  /-- A script with calls. -/
  | calls (text : List Char) (root : Script.Node)
  /-- The template of a source, if it has one. -/
  | template (source : List Char) (root? : Option TemplateNode)
deriving Repr, Inhabited

/-- The characters that were put before a fragment to read it. -/
def SourceTree.wrapped : SourceTree → Nat
  | markup _ _ wrapped => wrapped
  | calls _ _ => 0
  | template _ _ => 0

/-- What a source says. -/
structure Component where
  framework : Framework
  typescript : Bool
  name : String
  source : List Char
  imports : List ImportDeclaration
  exports : List String
  elements : Forest
  hooks : List Hook
  /-- Whether the source declares the component around its animated parts. -/
  hasShell : Bool
  warnings : List String
  /-- The number of elements around the animated ones. -/
  plainMarkup : Nat
  /-- The names that the script declares or imports. -/
  bindings : List String
  /-- The statements that are not written anew. -/
  logic : List String
  tree? : Option SourceTree
deriving Repr, Inhabited

namespace Component

/-- A component without a source. -/
def ofForest (framework : Framework) (typescript : Bool) (name : String) (elements : Forest) :
    Component :=
  { framework := framework, typescript := typescript, name := name, source := [], imports := [],
    exports := [], elements := elements, hooks := [], hasShell := false, warnings := [],
    plainMarkup := 0, bindings := [], logic := [], tree? := none }

end Component

/-- The names that an import binds: those after `as`, the default and the namespace. -/
def ImportDeclaration.localNames (declaration : ImportDeclaration) : List String :=
  declaration.names.map (fun name =>
    let parts := Text.splitOnText " as ".toList name.toList
    String.ofList (Text.trim (parts.getLastD []))) ++
  (declaration.default?.toList ++ declaration.whole?.toList).filter (· != "")

end AnimationCode
