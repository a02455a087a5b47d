/-
**The imports that an artifact tells of.**

An artifact tells of the import lines of its code. In code that is written afresh these are the imports that are read
from it as a script.

* `Artifact.TellsImports`: an artifact that tells of the import lines of its code;
* `Artifact.IsAfresh`: a component that is written afresh in a way that is read back;
* `Artifact.imports_of_generate`: what is told of its imports is what is read of them.
-/

import AnimationCode.Artifact
import AnimationCode.Proofs.Render.Quiet

namespace AnimationCode

namespace Artifact

open Imports (BeginsWith)

variable {parse : Script.Parser} {component : Component} {account : Account} {context : Context} {options : Fields Value} {artifact : Artifact}

/-! ### The lines of the code -/

/-- An artifact that tells of the import lines of its code. -/
structure TellsImports (artifact : Artifact) : Prop where
  imports : artifact.imports = (ImportLine.readAll artifact.code).map fun line =>
    String.ofList (Text.trim (Imports.slice artifact.code line.start line.stop))
  dependencies : artifact.dependencies =
    distinct ((ImportLine.readAll artifact.code).filterMap fun line => packageOf? line.source)

/-- The code of an artifact is the one of its component behind the passes over the text, and the artifact tells of it. -/
theorem tellsImports_of_generate (generated : generate component account context options = .ok artifact) :
    ∃ code areas, codeOf component account context = .ok code ∧ listOption options "focus_areas" = .ok areas ∧
      artifact.code = (optimizeText code context.framework context.typescript
        (Focus.ofAreas (areas.filterMap Value.text?))).1 ∧ artifact.TellsImports := by
  unfold generate at generated
  obtain ⟨code, coded, generated⟩ := Outcome.bind_eq_ok.mp generated
  obtain ⟨areas, listed, generated⟩ := Outcome.bind_eq_ok.mp generated
  dsimp only at generated
  obtain ⟨performance, -, generated⟩ := Outcome.bind_eq_ok.mp generated
  obtain ⟨accessibility, -, generated⟩ := Outcome.bind_eq_ok.mp generated
  obtain ⟨patterns, -, generated⟩ := Outcome.bind_eq_ok.mp generated
  obtain ⟨score, -, generated⟩ := Outcome.bind_eq_ok.mp generated
  split at generated
  · cases generated
  · obtain rfl := Except.ok.inj generated
    exact ⟨code, areas, coded, listed, rfl, rfl, rfl⟩

/-- Without a pass over the text it stays as it is. -/
theorem optimizeText_none (code : List Char) (framework : Framework) (typescript : Bool) :
    optimizeText code framework typescript .none = (code, []) := rfl

/-- In code that begins with import lines these are told of. -/
theorem TellsImports.of_beginsWith {declarations : List ImportDeclaration} (tells : artifact.TellsImports)
    (begins : BeginsWith declarations artifact.code) :
    artifact.imports = declarations.map ImportDeclaration.statement ∧
      artifact.dependencies = distinct (declarations.filterMap fun declaration => packageOf? declaration.source) := by
  refine ⟨tells.imports.trans begins.texts, tells.dependencies.trans (congrArg distinct ?_)⟩
  have packages := congrArg (List.filterMap packageOf?) begins.sources
  rwa [List.filterMap_map, List.filterMap_map] at packages

/-! ### Code that is written afresh -/

/-- A component that is written afresh in a way that is read back. -/
structure IsAfresh (component : Component) (account : Account) (context : Context) : Prop where
  away : component.source = [] ∨ component.tree? = none ∨ component.framework ≠ context.framework
  whole : account.placeholders = []
  some_ : component.elements ≠ []
  named : Declarations.isPascal context.componentName = true
  sayable : context.framework = .react ∧ (∀ motion ∈ component.elements.motions, MarkupRender.IsWritable motion) ∨
    context.framework = .js ∧ ∀ motion ∈ component.elements.motions, CallRender.IsCallable motion

theorem IsAfresh.not_inPlace (isAfresh : IsAfresh component account context) :
    ¬ (!component.source.isEmpty && component.tree?.isSome && component.framework == context.framework) = true := by
  rw [Bool.not_eq_true]
  rcases isAfresh.away with nothing | nothing | different
  · rw [nothing]
    rfl
  · rw [nothing, Option.isSome_none, Bool.and_false, Bool.false_and]
  · rw [beq_eq_false_iff_ne.mpr different, Bool.and_false]

/-- What is read from code that is written afresh begins the code. -/
theorem exists_read_of_codeOf (conforms : parse.Conforms) (isAfresh : IsAfresh component account context) {code : List Char}
    (written : codeOf component account context = .ok code) {source : Source} (same : source.code = code)
    (framework : source.framework = .ok context.framework)
    (form : context.typescript = true → source.typescript? ≠ some false) :
    ∃ read, source.read parse = .ok read ∧ BeginsWith read.imports code := by
  rw [codeOf, if_neg isAfresh.not_inPlace, isAfresh.whole] at written
  rcases isAfresh.sayable with ⟨kind, writable⟩ | ⟨kind, callable⟩
  · rw [kind] at written framework
    obtain ⟨text, rendered, rfl⟩ := Outcome.map_eq_ok.mp written
    obtain ⟨-, rfl⟩ := Value.whenWritable_eq_ok.mp rendered
    obtain ⟨read, known, -, imports⟩ :=
      MarkupRender.exists_read conforms context isAfresh.some_ writable isAfresh.named same framework form
    exact ⟨read, known, imports ▸ MarkupRender.beginsWith_render isAfresh.some_ writable isAfresh.named⟩
  · rw [kind] at written framework
    obtain ⟨text, rendered, rfl⟩ := Outcome.map_eq_ok.mp written
    obtain ⟨read, known, -, imports⟩ :=
      CallRender.exists_read conforms isAfresh.some_ callable isAfresh.named rendered same framework form
    exact ⟨read, known, imports ▸ CallRender.beginsWith_render? (CallRender.motions_ne_nil isAfresh.some_) callable
      isAfresh.named rendered⟩

/-- The card as a component without a source. -/
def card : Component := .ofForest .react true "Card" MarkupRender.fadingCard

end Artifact

end AnimationCode
