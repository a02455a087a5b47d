/-
**A catalog of patterns.**

Patterns are looked up by their ids and by what they are. Several of them together make one element,
whose phases are merged.

* `Catalog.read`: a catalog from data, or every fault of the data;
* `Catalog.require`: a pattern that must be there, for a framework;
* `Catalog.elementFor`: the element of some patterns;
* `Catalog.similar`, `Catalog.search`: patterns by what they are.
-/

import AnimationCode.Artifact
import AnimationCode.Pattern.Basic
import AnimationCode.Yaml.Read

namespace AnimationCode

/-- Patterns, each with an id of its own. -/
structure Catalog where
  patterns : List Pattern
  version : Int
deriving Repr, Inhabited

namespace Catalog

/-! ### Reading -/

/-- The first text that a list repeats. -/
def firstRepeated? (seen : List String) : List String → Option String
  | [] => none
  | text :: rest => if seen.contains text then some text else firstRepeated? (text :: seen) rest

/-- A catalog whose ids differ. -/
def ofPatterns (version : Int) (patterns : List Pattern) : Checked Catalog :=
  match firstRepeated? [] (patterns.map (·.id)) with
  | some id => .broken ("duplicate pattern id " ++ Text.shown id)
  | none => .ok ⟨patterns, version⟩

/-- A catalog from data. -/
def read (value : Value) : Checked Catalog := do
  let fields ← Record.record value
  let (version, patterns) ←
    (Record.optional fields "version" 1 Record.whole).map Prod.mk
      |>.apply (Record.required fields "patterns" (Record.listOf Pattern.read))
  ofPatterns version patterns

/-- A catalog from data that must be one. -/
def ofValue (value : Value) : Outcome Catalog :=
  match read value with
  | .ok catalog => .ok catalog
  | .error faults => .error (.invalidSeed faults)

/-- A catalog from the text of a file; there may be no file. -/
def ofText (text? : Option String) : Outcome Catalog :=
  match text?.bind Yaml.read? with
  | some value => ofValue value
  | none => .error .unreadableSeed

/-! ### Looking up -/

/-- The ids of the patterns. -/
def ids (catalog : Catalog) : List String := catalog.patterns.map (·.id)

/-- The pattern of an id. -/
def find? (catalog : Catalog) (id : String) : Option Pattern := catalog.patterns.find? (·.id == id)

/-- The pattern of an id, which must be there and be for the framework, if one is given. -/
def require (catalog : Catalog) (id : String) (framework? : Option Framework) : Outcome Pattern :=
  match catalog.find? id with
  | none => .error (.unknownPattern id)
  | some pattern =>
    match framework? with
    | none => .ok pattern
    | some framework =>
      if pattern.frameworks.contains framework then .ok pattern
      else .error (.patternUnsupported id framework.label)

/-- The patterns of several ids, which must all be there. -/
def requireAll (catalog : Catalog) (ids : List String) (framework? : Option Framework) :
    Outcome (List Pattern) :=
  ids.mapM fun id => catalog.require id framework?

/-- The patterns of a category. -/
def ofCategory (catalog : Catalog) (name : String) : List Pattern :=
  catalog.patterns.filter (·.category.label == name)

/-- The patterns of a complexity. -/
def ofComplexity (catalog : Catalog) (name : String) : List Pattern :=
  catalog.patterns.filter (·.complexity.label == name)

/-- The patterns that can be written for a framework, which may be given by a by-name. -/
def forFramework (catalog : Catalog) (name : String) : List Pattern :=
  match Framework.ofName? name with
  | some framework => catalog.patterns.filter (·.frameworks.contains framework)
  | none => []

/-- The patterns whose name, description or tags hold a text, case aside. -/
def search (catalog : Catalog) (text : String) : List Pattern :=
  let holds (place : String) : Bool :=
    Text.holds (Text.lowerText text).toList (Text.lowerText place).toList
  catalog.patterns.filter fun pattern =>
    holds pattern.name || holds pattern.description || pattern.tags.any holds

/-- How many similar patterns are shown if nothing is said. -/
def usualLimit : Int := 3

/-- Other patterns of the same category or with a tag in common, up to a number of them. -/
def similar (catalog : Catalog) (id : String) (limit : Int) : List Pattern :=
  match catalog.find? id with
  | none => []
  | some pattern =>
    (catalog.patterns.filter fun other =>
      other.id != id &&
        (other.category == pattern.category || other.tags.any pattern.tags.contains)).take limit.toNat

/-! ### Writing -/

/-- The attributes of several patterns; the last one counts. -/
def attributesOf (patterns : List Pattern) : Fields Value :=
  patterns.foldl (fun attributes pattern => attributes.update pattern.attributes) []

/-- The element of several patterns on one tag. -/
def elementFor (catalog : Catalog) (ids : List String) (framework? : Option Framework) (tag : String) :
    Outcome Element := do
  let patterns ← catalog.requireAll ids framework?
  let own := { Motion.ofTag tag with
    phases := Config.merge (patterns.map (·.config)), attributes := attributesOf patterns }
  return ⟨own, []⟩

/-- The code of a component that animates one element by a pattern. -/
def codeFor (catalog : Catalog) (id frameworkName componentName : String) (typescript : Bool) :
    Outcome String := do
  match Framework.ofName? frameworkName with
  | none => throw (.frameworkWithoutPatterns frameworkName)
  | some framework =>
    let element ← catalog.elementFor [id] (some framework) "div"
    let component := Component.ofForest framework typescript componentName [element]
    let artifact ← Artifact.generate component (.start framework)
      ⟨framework, typescript, componentName, Focus.none⟩ []
    return String.ofList artifact.code

end Catalog

end AnimationCode
