/-
**The five operations.**

* `Operation.generateComponent`: a component from patterns;
* `Operation.createSequence`: a component whose parts are animated one after another;
* `Operation.optimizeCode`: a source, optimized;
* `Operation.convertFramework`: a source for another framework;
* `Operation.validateSyntax`: the report on a source.

An operation takes parameters as data and fails with a cause.
-/

import AnimationCode.Analysis.Report
import AnimationCode.Operation.Parameter
import AnimationCode.Operation.Sequence
import AnimationCode.Pattern.Catalog
import AnimationCode.Revision

namespace AnimationCode

/-- When a step of a sequence begins, and how long it takes. -/
structure TimelineEntry where
  element : String
  delay : Binary64
  duration? : Option Binary64
deriving DecidableEq, Repr, Inhabited

/-- Code and what there is to say about it. -/
structure CodeAnswer where
  framework : Framework
  artifact : Artifact
  warnings : List String
  limitations : List Limitation
  notes : List String
  timeline : List TimelineEntry
deriving DecidableEq, Repr, Inhabited

/-- A report and what it is about. -/
structure ReportAnswer where
  framework : Framework
  report : Report
deriving DecidableEq, Repr, Inhabited

namespace Operation

/-- The code of a component in a context, revised first. -/
def emit (settings : Settings) (component : Component) (context : Context) (options : Fields Value) :
    Outcome CodeAnswer := do
  let thresholds ← Rules.thresholds settings.rules
  let (revised, account) ← component.revise (.start component.framework) context thresholds
  let revised ← Value.whenWritable (component.told context.framework) revised
  let artifact ← Artifact.generate revised account context options
  return {
    framework := context.framework, artifact := artifact, warnings := component.warnings
    limitations := account.limitations, notes := account.notes, timeline := [] }

/-- Texts as data. -/
def textList (texts : List String) : Value := .list (texts.map Value.text)

/-! ### Patterns -/

/-- The most involved of some patterns, the first of them if there are several. -/
def mostInvolved (patterns : List Pattern) : Complexity :=
  patterns.foldl (fun most pattern =>
    if most.rank < pattern.complexity.rank then pattern.complexity else most) .basic

/-- A component that is animated by patterns. -/
def generateComponent (catalog : Catalog) (settings : Settings)
    (patternIds framework name options : Value) : Outcome CodeAnswer := do
  let target ← Parameter.framework "framework" framework
  let ids ← Parameter.someTexts "pattern_ids" patternIds
  let component ← Parameter.componentName name
  let options ← if options.isTruthy then options.entries else pure []
  let typescript ← Parameter.typescript ((options.get? "typescript").getD settings.typescript)
  let areas := (options.get? "focus_areas").getD .null
  let focus ← if areas.isTruthy then Parameter.focusAreas areas else pure []
  let patterns ← catalog.requireAll ids (some target)
  let element ← catalog.elementFor ids (some target) "div"
  let answer ← emit settings (.ofForest target typescript component [element])
    ⟨target, typescript, component, Focus.ofAreas focus⟩
    [("complexity", .text (mostInvolved patterns).label), ("patterns_used", textList ids),
      ("focus_areas", textList focus)]
  return { answer with notes := tellAll answer.notes (patterns.flatMap (·.usage.notes)) }

/-! ### Sequences -/

/-- What a sequence is asked for. -/
structure SequenceRequest where
  steps : Value
  framework : Value
  stagger : Value := .bool false
  staggerInterval : Value := .real (Binary64.ofDecimal false 1 (-1))
  timeline : Value := .bool false
  name : Value := .null
  typescript : Value := .null
deriving Repr, Inhabited

/-- The steps that are asked for, as data. -/
def stepValues : Value → Outcome (List Value)
  | .null => .error (.missingParameter "steps")
  | .list [] => .error .stepsNotList
  | .list values => .ok values
  | _ => .error .stepsNotList

/-- The interval between staggered steps. -/
def interval (value : Value) : Outcome Quantity :=
  match value.quantity? with
  | some interval =>
    if interval.lt (.whole 0) then .error .invalidInterval else .ok interval
  | none => .error .invalidInterval

/-- A component whose parts are animated one after another. -/
def createSequence (settings : Settings) (request : SequenceRequest) : Outcome CodeAnswer := do
  let target ← Parameter.framework "framework" request.framework
  let name ← Parameter.componentName
    (if request.name.isTruthy then request.name else .text "AnimationSequence")
  let values ← stepValues request.steps
  let interval ← interval request.staggerInterval
  let steps ← SequenceStep.readAll values
  let typescript := (← Parameter.optionalTypescript request.typescript)
  let typescript ← match typescript with
    | some typescript => pure typescript
    | none => Parameter.typescript settings.typescript
  let timeline := request.timeline.isTruthy
  let pace : Sequence.Pace := ⟨if request.stagger.isTruthy then some interval else none, timeline⟩
  let delays ← Sequence.delays pace steps
  let timed := steps.zip delays
  let container : Element := ⟨Motion.ofTag "div", timed.map fun (step, delay) => step.toElement delay⟩
  let used := if timeline then ["sequence", "timeline"] else ["sequence"]
  let answer ← emit settings (.ofForest target typescript name [container])
    ⟨target, typescript, name, Focus.none⟩ [("patterns_used", textList used)]
  return { answer with
    timeline := timed.map fun (step, delay) => ⟨step.element, delay, step.duration?⟩ }

/-! ### Sources -/

/-- The component that a source says, read for a framework. -/
def component (code : String) (framework : Framework) (parse : Script.Parser) : Outcome Component :=
  Source.read ⟨code.toList, some framework.label, none, none⟩ parse

/-- A source, optimized for focus areas. -/
def optimizeCode (settings : Settings) (code framework focusAreas : Value)
    (parse : Script.Parser := Script.parse?) : Outcome CodeAnswer := do
  let target ← Parameter.framework "framework" framework
  let source ← Parameter.code settings code
  let focus ← Parameter.focusAreas focusAreas
  let read ← component source target parse
  emit settings read ⟨target, read.typescript, read.name, Focus.ofAreas focus⟩
    [("focus_areas", textList focus)]

/-- A source for another framework. -/
def convertFramework (settings : Settings) (code fromFramework toFramework typescript : Value)
    (parse : Script.Parser := Script.parse?) : Outcome CodeAnswer := do
  let origin ← Parameter.framework "from_framework" fromFramework
  let target ← Parameter.framework "to_framework" toFramework
  let source ← Parameter.code settings code
  let typescript ← Parameter.optionalTypescript typescript
  let read ← component source origin parse
  emit settings read ⟨target, typescript.getD read.typescript, read.name, Focus.none⟩ []

/-- The report on a source. -/
def validateSyntax (settings : Settings) (code framework strict rules : Value)
    (parse : Script.Parser := Script.parse?) : Outcome ReportAnswer := do
  let target ← Parameter.framework "framework" framework
  let source ← Parameter.code settings code
  let names ← Parameter.optionalTexts "rules" rules
  let read ← component source target parse
  let thresholds ← Rules.thresholds settings.rules
  let weights ← Rules.weights settings.rules
  let report ← Report.ofComponent read names strict.isTruthy thresholds weights
  return ⟨target, report⟩

/-- The report on a source that a validation could not read. -/
def reportOnFailure? (failure : Failure) : Option Report :=
  if failure.category = .parseFailed then (Report.ofFailure failure).toOption else none

end Operation

end AnimationCode
