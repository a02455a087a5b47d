/-
**The rules of an analysis: thresholds and weights.**

Rules come in sections. Those of a file lie over the rules that hold if nothing is said; a file that
cannot be read counts for nothing.

* `Rules.ofText`: the rules of a file's text;
* `Rules.entriesOf`: the entries of one section.
-/

import AnimationCode.Failure
import AnimationCode.Value
import AnimationCode.Yaml.Read

namespace AnimationCode

/-! ### Entries from data -/

/-- The entry that a pair of values is; a name that is no text is the name of nothing here. -/
def Value.entry? : Value → Outcome (Option (String × Value))
  | .list [.text name, value] => .ok (some (name, value))
  | .list [.list _, _] | .list [.object _, _] => .error .unfitType
  | .list [_, _] => .ok none
  | .list _ => .error .unfitValue
  | .text s =>
    match s.toList with
    | [name, value] => .ok (some (String.ofList [name], .text (String.ofList [value])))
    | _ => .error .unfitValue
  | .object [(name, _), (value, _)] => .ok (some (name, .text value))
  | .object _ => .error .unfitValue
  | _ => .error .unfitType

/-- The entries that a value holds: the fields of an object, or a list of pairs. -/
def Value.entries : Value → Outcome (Fields Value)
  | .object fields => .ok fields
  | .list items => do return Fields.ofPairs ((← items.mapM Value.entry?).filterMap id)
  | .text "" => .ok []
  | .text _ => .error .unfitValue
  | _ => .error .unfitType

mutual

/-- Whether a value is data alone, without any code. -/
def Value.isData : Value → Bool
  | .code _ => false
  | .guarded _ => false
  | .list items => Value.areData items
  | .object fields => Value.entriesAreData fields
  | _ => true

/-- Whether all items of a list are data. -/
def Value.areData : List Value → Bool
  | [] => true
  | item :: rest => item.isData && Value.areData rest

/-- Whether the values of all fields are data. -/
def Value.entriesAreData : List (String × Value) → Bool
  | [] => true
  | (_, value) :: rest => value.isData && Value.entriesAreData rest

end

/-! ### Rules -/

/-- The sections of an analysis's rules. -/
abbrev Rules := Fields Value

namespace Rules

/-- The rules if nothing is said; thresholds are in seconds. -/
def standard : Rules :=
  let real (digits : Nat) (power : Int) : Value := .real (Binary64.ofDecimal false digits power)
  [("thresholds", .object [("short_duration", real 5 (-1)), ("long_duration", real 2 0),
      ("max_duration", real 10 0)]),
    ("weights", .object [("shape", real 1 0), ("performance", real 6 (-1)),
      ("accessibility", real 7 (-1)), ("best-practice", real 3 (-1))])]

/-- Rules with one section of others: entry by entry if both are objects. -/
def write (rules : Rules) (name : String) (value : Value) : Rules :=
  Fields.set rules name
    (match Fields.get? rules name, value with
    | some (.object base), .object entries => .object (Fields.update base entries)
    | _, _ => value)

/-- The standard rules with others over them. -/
def merged (others : Rules) : Rules :=
  List.foldl (fun rules field => write rules field.1 field.2) standard others

/-- The rules that data says; nothing said leaves the standard ones. -/
def ofValue (value : Value) : Outcome Rules :=
  if !value.isTruthy then .ok standard
  else match value with
    | .object fields => .ok (merged fields)
    | _ => .error .missingMember

/-- The rules that the text of a file says; there may be no file. -/
def ofText (text? : Option String) : Outcome Rules :=
  match text?.bind Yaml.read? with
  | some value => ofValue value
  | none => .ok standard

/-- The rules that are read back from a file after data was written to it. Only data can be written. -/
def ofWritten (value : Value) : Outcome Rules :=
  if value.isData then ofValue value else .error .unwritable

/-- The entries of one section; a section that is empty in any way has none. -/
def entriesOf (rules : Value) (name : String) : Outcome (Fields Value) :=
  match rules with
  | .object sections =>
    let value := (Fields.get? sections name).getD .null
    if value.isTruthy then value.entries else .ok []
  | _ => .error .missingMember

/-- The thresholds of rules. -/
def thresholds (rules : Value) : Outcome (Fields Value) := entriesOf rules "thresholds"

/-- The weights of rules. -/
def weights (rules : Value) : Outcome (Fields Value) := entriesOf rules "weights"

end Rules

end AnimationCode
