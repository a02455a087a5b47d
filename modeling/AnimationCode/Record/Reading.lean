/-
**Reading records from data.**

A reader makes something of a value, or tells every fault that keeps it from that. Numbers are taken
generously: a text that writes one is one, and so is a truth value. Fields that a record does not know
are passed over.

* `Checked.apply`: two readings together, with the faults of both in order;
* `Record.required`, `Record.optional`: the fields of a record.
-/

import AnimationCode.Failure
import AnimationCode.Number.Decimal
import AnimationCode.Value

namespace AnimationCode

/-- What was read, or all faults in the order of the fields. -/
abbrev Checked (α : Type) := Except (List Fault) α

namespace Checked

variable {α β : Type}

/-- One fault of a kind, here. -/
def fault (kind : String) : Checked α := .error [⟨[], kind, none⟩]

/-- A rule of the record's own that is broken, here. -/
def broken (rule : String) : Checked α := .error [⟨[], "value_error", some ("Value error, " ++ rule)⟩]

/-- A reading at a step into the data, where its faults lie. -/
def within (step : Step) : Checked α → Checked α
  | .ok value => .ok value
  | .error faults => .error (faults.map fun fault => { fault with path := step :: fault.path })

/-- A function of what was read. -/
def map (f : α → β) (found : Checked α) : Checked β := Except.map f found

/-- A function and its argument, read one after the other. -/
def apply (function : Checked (α → β)) (argument : Checked α) : Checked β :=
  match function, argument with
  | .ok f, .ok a => .ok (f a)
  | .ok _, .error faults => .error faults
  | .error faults, .ok _ => .error faults
  | .error faults, .error more => .error (faults ++ more)

end Checked

namespace Record

variable {α : Type}

/-! ### Leaves -/

/-- A text. -/
def text : Value → Checked String
  | .text s => .ok s
  | _ => .fault "string_type"

/-- A number. -/
def real : Value → Checked Binary64
  | .int n =>
    match Binary64.ofInt? n with
    | some x => .ok x
    | none => .fault "float_type"
  | .real x => .ok x
  | .bool b => .ok (Binary64.ofInt b.toNat)
  | .text s =>
    match Decimal.readField? s with
    | some x => .ok x
    | none => .fault "float_parsing"
  | _ => .fault "float_type"

/-- A number that is not negative. -/
def nonNegative (value : Value) : Checked Binary64 := do
  let x ← real value
  if (Binary64.zero false).le x then return x else .fault "greater_than_equal"

/-- A whole number. -/
def whole : Value → Checked Int
  | .int n => .ok n
  | .real x =>
    if x.isNaN || x.isInfinite then .fault "finite_number"
    else match x.toInt? with
      | some n => .ok n
      | none => .fault "int_from_float"
  | .bool b => .ok b.toNat
  | .text s =>
    match Decimal.readWhole? s with
    | some n => .ok n
    | none => .fault "int_parsing"
  | _ => .fault "int_type"

/-- One of the names of a table. -/
def choice (ofName? : String → Option α) (value : Value) : Checked α :=
  match value.text?.bind ofName? with
  | some found => .ok found
  | none => .fault "literal_error"

/-! ### Collections -/

/-- The fields of an object. -/
def object : Value → Checked (Fields Value)
  | .object fields => .ok fields
  | _ => .fault "dict_type"

/-- The fields of a record. -/
def record : Value → Checked (Fields Value)
  | .object fields => .ok fields
  | _ => .fault "model_type"

/-- The items of a list from a place on. -/
def itemsFrom (read : Value → Checked α) (place : Nat) : List Value → Checked (List α)
  | [] => .ok []
  | item :: rest =>
    ((read item).within (.index place)).map List.cons |>.apply (itemsFrom read (place + 1) rest)

/-- A list of items. -/
def listOf (read : Value → Checked α) : Value → Checked (List α)
  | .list items => itemsFrom read 0 items
  | _ => .fault "list_type"

/-- A value that may be absent. -/
def nullable (read : Value → Checked α) : Value → Checked (Option α)
  | .null => .ok none
  | value => (read value).map some

/-! ### Fields -/

/-- A field that a record must have. -/
def required (fields : Fields Value) (name : String) (read : Value → Checked α) : Checked α :=
  Checked.within (.name name)
    (match fields.get? name with
    | some value => read value
    | none => .fault "missing")

/-- A field that a record may have, and what counts if it does not. -/
def optional (fields : Fields Value) (name : String) (default : α) (read : Value → Checked α) :
    Checked α :=
  match fields.get? name with
  | some value => Checked.within (.name name) (read value)
  | none => .ok default

end Record

end AnimationCode
