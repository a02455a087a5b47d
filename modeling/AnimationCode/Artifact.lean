/-
**Generated code and what is known of it.**

Code is written in place if the source of the component is at hand, and afresh otherwise. The artifact
tells what the code imports, which packages it needs, and how good it is.

* `Artifact.codeOf`: the code of a component;
* `Artifact.generate`: the code with what is known of it.
-/

import AnimationCode.Analysis.Accessibility
import AnimationCode.Analysis.Performance
import AnimationCode.Complexity
import AnimationCode.InPlace
import AnimationCode.Optimize.Text

namespace AnimationCode

/-- What is known of generated code. -/
structure ArtifactMetadata where
  complexity : String
  patternsUsed : List String
  performanceScore : Int
  suggestions : List String
deriving DecidableEq, Repr, Inhabited

/-- Generated code with its imports and packages. -/
structure Artifact where
  code : List Char
  imports : List String
  dependencies : List String
  typescript : Bool
  metadata : ArtifactMetadata
deriving DecidableEq, Repr, Inhabited

namespace Artifact

/-- The code of a component in a context. Only the three frameworks can be written afresh. -/
def codeOf (component : Component) (account : Account) (context : Context) : Outcome (List Char) :=
  if !component.source.isEmpty && component.tree?.isSome &&
      component.framework == context.framework then
    InPlace.render? component account.removedImports context
  else match context.framework with
    | .react =>
      String.toList <$> MarkupRender.render? component.elements context account.placeholders
    | .vue =>
      String.toList <$> TemplateRender.render? component.elements context account.placeholders
    | .js => String.toList <$> CallRender.render? component.elements context account.placeholders
    | .other _ => .error .missingKey

/-- Texts once each, the empty ones left out. -/
def distinct (texts : List String) : List String := (texts.filter (· != "")).eraseDups

/-! ### Options -/

/-- The texts that a list option has; a text counts as its characters. -/
def listOption (options : Fields Value) (name : String) : Outcome (List Value) :=
  let value := (options.get? name).getD .null
  if !value.isTruthy then .ok []
  else match value with
    | .list items => .ok items
    | .text s => .ok (s.toList.map fun c => .text (String.ofList [c]))
    | .object fields => .ok ((Fields.keys fields).map Value.text)
    | _ => .error .unfitType

/-- The complexity that the options ask for, or that of the forest, and the faults of it. -/
def complexityOption (options : Fields Value) (forest : Forest) : String × List Fault :=
  let value := (options.get? "complexity").getD .null
  if !value.isTruthy then ((Complexity.ofForest forest).label, [])
  else match (value.text?.bind Complexity.ofLabel?) with
    | some complexity => (complexity.label, [])
    | none => ("", [⟨[.name "complexity"], "literal_error", none⟩])

/-- The texts of a list, from a place on, and the faults of what is no text. -/
def textsFrom (place : Nat) : List Value → List String × List Fault
  | [] => ([], [])
  | value :: rest =>
    let (texts, faults) := textsFrom (place + 1) rest
    match value.text? with
    | some text => (text :: texts, faults)
    | none => (texts, ⟨[.name "patterns_used", .index place], "string_type", none⟩ :: faults)

/-! ### Generation -/

/-- The code of a component with what is known of it. -/
def generate (component : Component) (account : Account) (context : Context)
    (options : Fields Value) : Outcome Artifact := do
  let code ← codeOf component account context
  let areas ← listOption options "focus_areas"
  let (code, said) := optimizeText code context.framework context.typescript
    (Focus.ofAreas (areas.filterMap Value.text?))
  let performance ← Performance.detect [] component.elements
  let accessibility ← Accessibility.detect [] component.elements
  let findings := performance ++ accessibility
  let (complexity, complexityFaults) := complexityOption options component.elements
  let (patterns, patternFaults) := textsFrom 0 (← listOption options "patterns_used")
  let score ← Finding.score Weights.default findings
  if !(complexityFaults ++ patternFaults).isEmpty then
    throw (.invalidRecord (complexityFaults ++ patternFaults))
  let lines := ImportLine.readAll code
  return {
    code := code
    imports := lines.map fun line =>
      String.ofList (Text.trim (Imports.slice code line.start line.stop))
    dependencies := distinct (lines.filterMap fun line => packageOf? line.source)
    typescript := context.typescript
    metadata := {
      complexity := complexity
      patternsUsed := patterns
      performanceScore := score
      suggestions := distinct (account.suggestions ++ said ++ findings.filterMap (·.hint?)) } }

end Artifact

end AnimationCode
