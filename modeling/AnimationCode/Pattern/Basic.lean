/-
**Animation patterns.**

A pattern is a ready-made animation: what it animates, which attributes go with it, and what a reader
should know of its use.

* `Pattern.read`: a pattern from data, or every fault of the data;
* `PatternCategory.ofLabel?`: the category of a name.
-/

import AnimationCode.Complexity
import AnimationCode.Pattern.Config
import AnimationCode.Record.Reading

namespace AnimationCode

/-- What a pattern is for. -/
inductive PatternCategory where
  | entrance | exit | gesture | layout | scroll | stagger | complex
deriving DecidableEq, Repr, Inhabited

namespace PatternCategory

/-- The name of a category. -/
def label : PatternCategory → String
  | entrance => "entrance"
  | exit => "exit"
  | gesture => "gesture"
  | layout => "layout"
  | scroll => "scroll"
  | stagger => "stagger"
  | complex => "complex"

/-- The categories. -/
def all : List PatternCategory := [entrance, exit, gesture, layout, scroll, stagger, complex]

/-- The category of a name. -/
def ofLabel? (name : String) : Option PatternCategory := all.find? fun category => category.label == name

end PatternCategory

/-- How a pattern is used. -/
structure PatternUsage where
  props : List String
  dependencies : List String
  notes : List String
deriving DecidableEq, Repr, Inhabited

/-- A ready-made animation. -/
structure Pattern where
  id : String
  name : String
  description : String
  category : PatternCategory
  complexity : Complexity
  /-- The frameworks that it can be written for. -/
  frameworks : List Framework
  tags : List String
  config : Config
  /-- The attributes that go with its phases. -/
  attributes : Fields Value
  usage : PatternUsage
deriving Repr, Inhabited

namespace PatternUsage

/-- Nothing to know. -/
def none : PatternUsage := ⟨[], [], []⟩

/-- The use of a pattern from data. -/
def read (value : Value) : Checked PatternUsage := do
  let fields ← Record.record value
  let texts (name : String) : Checked (List String) :=
    Record.optional fields name [] (Record.listOf Record.text)
  (texts "props").map PatternUsage.mk |>.apply (texts "dependencies") |>.apply (texts "notes")

end PatternUsage

namespace Pattern

open Record (required optional listOf text)

/-- The frameworks of names, if each means one. -/
def frameworksOf : List String → Checked (List Framework)
  | [] => .ok []
  | name :: rest =>
    match Framework.ofName? name with
    | some framework => do return framework :: (← frameworksOf rest)
    | none => .broken ("unsupported framework " ++ Text.shown name ++
        ", expected one of react, vue, js")

/-- The frameworks of a pattern from data. -/
def readFrameworks (value : Value) : Checked (List Framework) := do
  frameworksOf (← listOf text value)

/-- The configuration of a pattern from data. -/
def readConfig (value : Value) : Checked Config := do
  let config ← Record.object value
  match Config.defect? config with
  | none => return config
  | some defect => .broken defect.message

/-- A pattern from data. -/
def read (value : Value) : Checked Pattern := do
  let fields ← Record.record value
  (required fields "id" text).map Pattern.mk
    |>.apply (required fields "name" text)
    |>.apply (required fields "description" text)
    |>.apply (required fields "category" (Record.choice PatternCategory.ofLabel?))
    |>.apply (required fields "complexity" (Record.choice Complexity.ofLabel?))
    |>.apply (required fields "frameworks" readFrameworks)
    |>.apply (optional fields "tags" [] (listOf text))
    |>.apply (required fields "config" readConfig)
    |>.apply (optional fields "attributes" [] Record.object)
    |>.apply (optional fields "usage" .none PatternUsage.read)

end Pattern

end AnimationCode
