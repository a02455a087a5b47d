/-
**What has the wrong form.**

Phases, properties and options have to be known and of the right kind, timings within bounds, and labels
declared by the element itself or by one around it.

* `Shape.ofOptions`: the findings about the options of a transition, with those inside them;
* `Shape.ofState`: the findings about the properties of a state;
* `Shape.detect`: the findings of a forest;
* `Shape.told`: the times that they tell of.
-/

import AnimationCode.Analysis.Finding
import AnimationCode.Element.Basic
import AnimationCode.Threshold

namespace AnimationCode

namespace Shape

/-- A finding at a place. -/
def finding (place : Option Location) (rule : String) (level : Level) (message : String) : Finding :=
  ⟨rule, "shape", level, message, place, none⟩

/-- What a value is, for a message. -/
def describe : Value → String
  | .text s => "string " ++ Text.shown s
  | .bool b => if b then "boolean true" else "boolean false"
  | .null => "null"
  | .int _ => "int"
  | .real _ => "float"
  | .list _ => "list"
  | .object _ => "dict"
  | .code _ => "Expr"
  | .guarded _ => "Guarded"

/-- A number as it stands in a message. -/
def numberText : Value → String
  | .int n => toString n
  | .real x => Decimal.shortest x
  | _ => ""

/-- Whether a timing lies between zero and the most seconds. -/
def isWithin (longest : Binary64) (value : Value) : Bool :=
  match value.quantity? with
  | some seconds => (Quantity.whole 0).le seconds && seconds.le (.real longest)
  | none => true

/-- The findings about one option of a transition that holds no options itself. -/
def ofOption (longest : Binary64) (place : Option Location) (path name : String) (value : Value) :
    List Finding :=
  if !Timing.options.contains name then
    [finding place "unknown-property" .warning
      ("Unknown transition option '" ++ path ++ "." ++ name ++ "'")]
  else if Timing.numericOptions.contains name && !value.isNumber && !value.isCode then
    [{ finding place "invalid-value-type" .error
        (path ++ "." ++ name ++ " must be a number, got " ++ describe value) with
      hint? := some ("Use a number of seconds for " ++ name ++ ", e.g. " ++ name ++ ": 0.3") }]
  else if (name == "duration" || name == "delay") && value.isNumber && !isWithin longest value then
    [finding place "duration-range" .warning
      (path ++ "." ++ name ++ " of " ++ numberText value ++ "s is outside 0.." ++
        Decimal.general longest ++ "s")]
  else []

/-- The findings about a list of options, those inside them included. -/
def ofEntries (longest : Binary64) (place : Option Location) (path : String) :
    List (String × Value) → List Finding
  | [] => []
  | (name, .object inner) :: rest =>
    (if Property.animatable.contains name then
      ofEntries longest place (path ++ "." ++ name) inner
    else ofOption longest place path name (.object inner)) ++ ofEntries longest place path rest
  | (name, value) :: rest =>
    ofOption longest place path name value ++ ofEntries longest place path rest

/-- The findings about the options of a transition, an outer guard aside. -/
def ofOptions (longest : Binary64) (place : Option Location) (path : String) (options : Value) :
    List Finding :=
  match options.unguarded with
  | .code _ => []
  | .object entries => ofEntries longest place path entries
  | value =>
    [finding place "invalid-value-type" .error (path ++ " must be an object, got " ++ describe value)]

/-- Whether a frame of a numeric property is a number, absent or an expression. -/
def isNumericFrame (frame : Value) : Bool :=
  frame.isNumber || frame.isCode || match frame with
    | .null => true
    | _ => false

/-- The frames of a value. -/
def frames : Value → List Value
  | .list items => items
  | value => [value]

/-- The findings about one property of a state. -/
def ofProperty (longest : Binary64) (place : Option Location) (path name : String) (value : Value) :
    List Finding :=
  if name = Phase.transition.name then ofOptions longest place (path ++ ".transition") value
  else if !Property.animatable.contains name && !name.startsWith "--" then
    [finding place "unknown-property" .warning
      ("Unknown animatable property '" ++ name ++ "' in " ++ path)]
  else if Property.numeric.contains name && !(frames value).all isNumericFrame then
    [finding place "invalid-value-type" .error
      (path ++ "." ++ name ++ " must be numeric, got " ++ describe value)]
  else []

/-- The findings about the properties of a state, if they are written out. -/
def ofState (longest : Binary64) (place : Option Location) (path : String) (state : Value) :
    List Finding :=
  match state with
  | .object fields => List.flatMap (fun field => ofProperty longest place path field.1 field.2) fields
  | _ => []

/-- The findings about the labels of a phase, given the declared variants; without any nothing is
said. -/
def ofLabels (declared : Option (List String)) (place : Option Location) (phase : String)
    (value : Value) : List Finding :=
  match declared with
  | none => []
  | some declared =>
    let labels := match value with
      | .text label => [label]
      | .list items => items.filterMap Value.text?
      | _ => []
    (labels.filter (!declared.contains ·)).map fun label =>
      finding place "unknown-variant" .warning
        (phase ++ " references variant '" ++ label ++ "' that is not declared")

/-- The variants that are declared at an element, given those around it; variants that are not written
out may be any. -/
def declaredAt (inherited : Option (List String)) (motion : Motion) : Option (List String) :=
  match motion.phase? .variants with
  | some (.object variants) => some (inherited.getD [] ++ Fields.keys variants)
  | none => inherited
  | some .null => inherited
  | some _ => none

/-- The findings about one phase. -/
def ofPhase (longest : Binary64) (declared : Option (List String)) (place : Option Location)
    (phase : String) (value : Value) : List Finding :=
  if !Phase.names.contains phase then
    [finding place "unknown-phase" .warning ("Unknown animation phase '" ++ phase ++ "'")]
  else if phase = Phase.transition.name then ofOptions longest place "transition" value
  else match value with
    | .object fields =>
      if phase = Phase.variants.name then
        List.flatMap (fun field =>
          ofState longest place ("variants." ++ field.1) field.2) fields
      else ofState longest place phase value
    | _ => if phase = Phase.variants.name then [] else ofLabels declared place phase value

/-- The findings about one element, given the variants declared at it. -/
def ofMotion (longest : Binary64) (declared : Option (List String)) (motion : Motion) :
    List Finding :=
  List.flatMap (fun field => ofPhase longest declared motion.location? field.1 field.2) motion.phases

mutual

/-- The findings about an element and all inside it. -/
def ofElement (longest : Binary64) (inherited : Option (List String)) : Element → List Finding
  | ⟨own, children⟩ =>
    let declared := declaredAt inherited own
    ofMotion longest declared own ++ ofForest longest declared children

/-- The findings about elements side by side. -/
def ofForest (longest : Binary64) (inherited : Option (List String)) : List Element → List Finding
  | [] => []
  | element :: rest => ofElement longest inherited element ++ ofForest longest inherited rest

end

/-- The findings of a forest. -/
def detect (thresholds : Fields Value) (forest : Forest) : Outcome (List Finding) := do
  let longest ← Threshold.longest thresholds
  return ofForest longest none forest

/-! ### Times that are told -/

mutual

/-- The times that an option has, or those in the options that it holds. -/
def timesOfEntry (name : String) : Value → List Value
  | .object inner => if Property.animatable.contains name then timesOfEntries inner else []
  | value => if name == "duration" || name == "delay" then [value] else []

/-- The times among options, those inside them included. -/
def timesOfEntries : List (String × Value) → List Value
  | [] => []
  | (name, value) :: rest => timesOfEntry name value ++ timesOfEntries rest

end

/-- The times in the options of a transition, an outer guard aside. -/
def timesOfOptions (options : Value) : List Value :=
  match options.unguarded with
  | .object entries => timesOfEntries entries
  | _ => []

/-- The times in the transition of a state. -/
def timesOfState (state : Value) : List Value :=
  match state with
  | .object fields =>
    (fields.filter (·.1 = Phase.transition.name)).flatMap fun field => timesOfOptions field.2
  | _ => []

/-- The times in a phase. -/
def timesOfPhase (phase : String) (value : Value) : List Value :=
  if !Phase.names.contains phase then []
  else if phase = Phase.transition.name then timesOfOptions value
  else match value with
    | .object fields =>
      if phase = Phase.variants.name then fields.flatMap fun field => timesOfState field.2
      else timesOfState value
    | _ => []

/-- The times that the findings of a forest tell of. -/
def told (thresholds : Fields Value) (forest : Forest) : Outcome (List Value) := do
  let longest ← Threshold.longest thresholds
  let times := forest.motions.flatMap fun motion =>
    motion.phases.flatMap fun field => timesOfPhase field.1 field.2
  return times.filter fun time => time.isNumber && !isWithin longest time

end Shape

end AnimationCode
