/-
**The report on a component.**

* `Report.ofFindings`: errors and warnings in order, suggestions without repetition, and a score;
* `Report.ofComponent`: the report on what a component says;
* `Report.ofFailure`: the report on a source that cannot be read.

A strict report takes warnings for errors: all of them, or those of some rules.
-/

import AnimationCode.Analysis.Accessibility
import AnimationCode.Analysis.Performance
import AnimationCode.Analysis.Shape
import AnimationCode.Component.Basic
import AnimationCode.Import.Record

namespace AnimationCode

/-- An error or a warning. -/
structure Issue where
  severity : Level
  message : String
  rule : String
  location? : Option Location
deriving DecidableEq, Repr, Inhabited

/-- A suggestion of a category. -/
structure Suggestion where
  category : String
  message : String
  priority : Priority
deriving DecidableEq, Repr, Inhabited

/-- What is to be said of a component. -/
structure Report where
  valid : Bool
  issues : List Issue
  suggestions : List Suggestion
  score : Int
deriving DecidableEq, Repr, Inhabited

namespace Report

/-- The issue that a finding is, if it is an error or a warning. -/
def issue? (finding : Finding) : Option Issue :=
  match finding.level with
  | .error | .warning => some ⟨finding.level, finding.message, finding.rule, finding.location?⟩
  | _ => none

/-- What a finding suggests: its hint, or itself if it is a suggestion; an error suggests nothing. -/
def suggestion? (finding : Finding) : Option String :=
  let hint := finding.hint?.filter (· != "")
  match finding.level with
  | .error => none
  | .suggestion => some (hint.getD finding.message) |>.filter (· != "")
  | _ => hint

/-- The suggestions of findings, each message once. -/
def suggestionsOf (weights : Weights) (findings : List Finding) : List Suggestion :=
  findings.foldl (fun told finding =>
    match suggestion? finding with
    | some message =>
      if told.any (·.message == message) then told
      else told ++ [⟨finding.category, message, Priority.ofCategory weights finding.category⟩]
    | none => told) []

/-- The faults of a place: lines and columns count from one. -/
def placeFaults (line column : Int) : List Fault :=
  let fault (name : String) (n : Int) : List Fault :=
    if n < 1 then [⟨[.name name], "greater_than_equal", none⟩] else []
  fault "line" line ++ fault "column" column

/-- The issues of findings, if their places count from one. -/
def issuesOf : List Finding → Outcome (List Issue)
  | [] => .ok []
  | finding :: rest =>
    match issue? finding with
    | none => issuesOf rest
    | some issue =>
      match (finding.location?.map fun place => placeFaults place.line place.column).getD [] with
      | [] => do return issue :: (← issuesOf rest)
      | faults => .error (.invalidRecord faults)

/-- The report on findings under weights. -/
def ofFindings (weights : Weights) (findings : List Finding) : Outcome Report := do
  let issues ← issuesOf findings
  let score ← Finding.score weights findings
  return ⟨issues.all (·.severity != .error), issues, suggestionsOf weights findings, score⟩

/-! ### Components -/

/-- What the animation library of a framework is imported as. -/
def recommendedImport? : Framework → Option String
  | .react => some "motion from 'framer-motion'"
  | .js => some "animate from 'motion'"
  | _ => none

/-- The finding about animated code that does not import the animation library. -/
def bestPractice (component : Component) : List Finding :=
  match recommendedImport? component.framework with
  | some advice =>
    if component.elements.isEmpty ||
        component.imports.any fun declaration => motionSources.contains declaration.source then []
    else [⟨"missing-motion-import", "best-practice", .suggestion,
      "Animated code does not import the animation library", none, some ("Import " ++ advice)⟩]
  | none => []

/-- The findings about a forest. -/
def check (thresholds : Fields Value) (forest : Forest) : Outcome (List Finding) := do
  let shape ← Value.whenWritable (← Shape.told thresholds forest) (← Shape.detect thresholds forest)
  let performance ← Performance.detect thresholds forest
  let accessibility ← Accessibility.detect thresholds forest
  return shape ++ performance ++ accessibility

/-- Findings with warnings taken for errors: all of them if no rules are named, else those of the
rules. -/
def escalate (rules : List String) (findings : List Finding) : List Finding :=
  findings.map fun finding =>
    if finding.level = .warning ∧ (rules = [] ∨ finding.rule ∈ rules) then finding.escalated
    else finding

/-- The report on a component. -/
def ofComponent (component : Component) (rules : List String) (strict : Bool)
    (thresholds weights : Fields Value) : Outcome Report := do
  let findings := (← check thresholds component.elements) ++ bestPractice component
  let findings := if strict then escalate rules findings else findings
  ofFindings (← Weights.merged weights) findings

/-! ### Sources that cannot be read -/

/-- The report on a source that cannot be read, with the line and the column of the fault. -/
def ofUnreadable (message : String) (place : Option (Int × Option Int)) : Outcome Report :=
  let issue (location? : Option Location) : Report :=
    ⟨false, [⟨.error, message, "parse-error", location?⟩], [], 0⟩
  match place with
  | none => .ok (issue none)
  | some (line, column) =>
    let column := match column with
      | some 0 => 1
      | some column => column
      | none => 1
    match placeFaults line column with
    | [] => .ok (issue (some ⟨line.toNat, column.toNat⟩))
    | faults => .error (.invalidRecord faults)

/-- The report on a failure to read a source. The place of a fault in a script is not told. -/
def ofFailure (failure : Failure) : Outcome Report :=
  ofUnreadable failure.message (failure.place?.map fun (line, column) => (line, column.map Int.ofNat))

end Report

end AnimationCode
