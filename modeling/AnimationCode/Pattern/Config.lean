/-
**What a pattern animates, and putting patterns together.**

A configuration names phases and what they animate to. Configurations are put together from left to
right: the last state counts, while transitions and variants are laid over one another.

* `Config.merge`: several configurations as one;
* `Config.defect?`: why a configuration cannot be used;
* `Config.merge_append`: putting together in two steps.
-/

import AnimationCode.Failure
import AnimationCode.Phase
import AnimationCode.Text.Word
import AnimationCode.Value

namespace AnimationCode

/-! ### Laying values over one another -/

namespace Value

mutual

/-- A value with another laid over it: an object adds its fields to an object, and anything else takes
the place of what is below. -/
def under (below : Value) : Value → Value
  | .object fields =>
    match below with
    | .object base => .object (underFields base fields)
    | _ => .object fields
  | above => above

/-- Fields with others laid over them, each over what has its name. -/
def underFields (base : Fields Value) : List (String × Value) → Fields Value
  | [] => base
  | (name, above) :: rest =>
    underFields (base.set name
      (match base.get? name with
      | some below => under below above
      | none => above)) rest

end

end Value

/-! ### Configurations -/

/-- The phases that a pattern sets, with what they animate to. -/
abbrev Config := Fields Value

namespace Config

/-- Whether later configurations add to a phase instead of replacing it. -/
def isLayered (phase : String) : Bool := [Phase.transition.name, Phase.variants.name].contains phase

/-- A configuration with one more phase of a later one. -/
def write (merged : Config) (phase : String) (value : Value) : Config :=
  Fields.set merged phase
    (match Fields.get? merged phase with
    | some below => if isLayered phase then below.under value else value
    | none => value)

/-- A configuration with a later one over it. -/
def add (merged later : Config) : Config :=
  List.foldl (fun merged field => write merged field.1 field.2) merged later

/-- Several configurations as one. -/
def merge (configs : List Config) : Config := configs.foldl add []

/-- Several configurations from data as one. -/
def mergeValues (values : List Value) : Outcome Config := do
  return merge (← values.mapM fun value =>
    match value with
    | .object fields => pure fields
    | _ => throw .missingMember)

theorem merge_append (configs more : List Config) :
    merge (configs ++ more) = more.foldl add (merge configs) := by
  simp [merge, List.foldl_append]

/-! ### Defects -/

/-- Why a configuration cannot be used. -/
inductive Defect where
  | unknownPhase (name : String)
  | notMapping (phase : String)
  | noState (phase : String)
  | unknownVariants (phase : String) (labels : List String)
deriving DecidableEq, Repr, Inhabited

/-- The words for a defect. -/
def Defect.message : Defect → String
  | unknownPhase name => "unknown phase " ++ Text.shown name
  | notMapping phase => phase ++ " must be a mapping"
  | noState phase => phase ++ " must be a keyframe mapping or variant label(s)"
  | unknownVariants phase labels =>
    phase ++ " names unknown variant(s) " ++ ", ".intercalate (labels.map Text.shown)

/-- The defect of a phase by itself. -/
def phaseDefect? (phase : String) (value : Value) : Option Defect :=
  if !Phase.names.contains phase then some (.unknownPhase phase)
  else if isLayered phase && !value.isObject then some (.notMapping phase)
  else none

/-- The labels that a state names, if it names any and nothing else. -/
def labels? : Value → Option (List String)
  | .text label => some [label]
  | .list [] => none
  | .list items => items.mapM Value.text?
  | _ => none

/-- The names of the variants of a configuration. -/
def variantNames (config : Config) : List String :=
  match config.get? Phase.variants.name with
  | some (.object variants) => Fields.keys variants
  | _ => []

/-- The defect of a state in its configuration. -/
def stateDefect? (config : Config) (state : String) : Option Defect :=
  match config.get? state with
  | none => none
  | some (.object _) => none
  | some value =>
    match labels? value with
    | none => some (.noState state)
    | some labels =>
      match labels.filter (!config.variantNames.contains ·) with
      | [] => none
      | unknown => some (.unknownVariants state unknown)

/-- The first defect of a configuration: of its phases in the order of their writing, then of its states in
the order of the phases. -/
def defect? (config : Config) : Option Defect :=
  (List.findSome? (fun field => phaseDefect? field.1 field.2) config).or
    (Phase.stateNames.findSome? config.stateDefect?)

end Config

end AnimationCode
