/-
**Times in another unit, at every depth.**

Options are converted entry by entry, and objects in them with them. So a time is converted wherever it stands, and what is
no time stays as it is.

* `Timing.convertEntries_eq`: the conversion of options is that of each entry;
* `Timing.at?_convert`: what stands under a path after a conversion;
* `Timing.at?_convert_of_time`, `Timing.at?_convert_of_other`: a time is converted, and nothing else is.
-/

import AnimationCode.Timing

namespace AnimationCode

namespace Value

/-- What stands in nested objects under some names, one inside the other. -/
def at? : List String → Value → Option Value
  | [], value => some value
  | name :: path, .object fields => (Fields.get? fields name).bind (at? path)
  | _ :: _, _ => none

theorem at?_object (name : String) (path : List String) (fields : Fields Value) :
    at? (name :: path) (.object fields) = (fields.get? name).bind (at? path) := rfl

theorem at?_of_not_object {value : Value} (plain : value.isObject = false) (path : List String) (name : String) :
    at? (path ++ [name]) value = none := by
  cases path <;> cases value <;> first | rfl | cases plain

theorem isObject_ofBinary64 (x : Binary64) : (ofBinary64 x).isObject = false := by
  unfold ofBinary64
  split <;> rfl

end Value

namespace Timing

variable {time : Value → Value}

/-- An entry of options, converted. -/
def convertEntry (time : Value → Value) (name : String) : Value → Value
  | .object fields => .object (convertEntries time fields)
  | value => if keys.contains name then time value else value

/-- The conversion of options is that of each entry. -/
theorem convertEntries_eq (time : Value → Value) (fields : Fields Value) :
    convertEntries time fields = fields.mapNamed (convertEntry time) := by
  induction fields with
  | nil => rw [convertEntries, Fields.mapNamed, List.map_nil]
  | cons field rest ih =>
    obtain ⟨name, value⟩ := field
    rw [Fields.mapNamed, List.map_cons]
    cases value <;> rw [convertEntries, ih] <;> first | rfl | simp

/-- A conversion that makes no object of what is none. -/
def KeepsPlain (time : Value → Value) : Prop := ∀ value, value.isObject = false → (time value).isObject = false

theorem keepsPlain_milliseconds : KeepsPlain milliseconds := by
  intro value plain
  cases value with
  | int n => rfl
  | real x => exact Value.isObject_ofBinary64 _
  | object fields => cases plain
  | _ => rfl

theorem keepsPlain_seconds : KeepsPlain seconds := by
  intro value plain
  cases value with
  | int n => exact Value.isObject_ofBinary64 _
  | real x => exact Value.isObject_ofBinary64 _
  | object fields => cases plain
  | _ => rfl

theorem convertEntry_of_plain {value : Value} (plain : value.isObject = false) (name : String) :
    convertEntry time name value = if keys.contains name then time value else value := by
  cases value with
  | object fields => cases plain
  | _ => rfl

theorem at?_convertEntries (keeps : KeepsPlain time) (path : List String) (name : String) (fields : Fields Value) :
    (Value.object (convertEntries time fields)).at? (path ++ [name]) =
      ((Value.object fields).at? (path ++ [name])).map (convertEntry time name) := by
  induction path generalizing fields with
  | nil =>
    rw [List.nil_append, Value.at?_object, Value.at?_object, convertEntries_eq, Fields.get?_mapNamed]
    cases fields.get? name <;> rfl
  | cons outer path ih =>
    rw [List.cons_append, Value.at?_object, Value.at?_object, convertEntries_eq, Fields.get?_mapNamed]
    cases fields.get? outer with
    | none => rfl
    | some value =>
      rw [Option.map_some, Option.bind_some, Option.bind_some]
      by_cases nested : value.isObject = true
      · cases value with
        | object inner => exact ih inner
        | _ => cases nested
      · have plain : value.isObject = false := Bool.eq_false_iff.mpr nested
        have still : (convertEntry time outer value).isObject = false := by
          rw [convertEntry_of_plain plain]
          split
          · exact keeps value plain
          · exact plain
        rw [Value.at?_of_not_object still, Value.at?_of_not_object plain]
        rfl

theorem isObject_convert (time : Value → Value) (options : Value) : (convert time options).isObject = options.isObject := by
  cases options <;> simp [convert, Value.isObject]

theorem unguarded_convert (time : Value → Value) (options : Value) :
    (convert time options).unguarded = convert time options.unguarded := by
  cases options with
  | guarded inner => rw [convert]; rfl
  | object fields => simp [convert, Value.unguarded]
  | _ => simp [convert, Value.unguarded]

/-- What stands under a path in converted options is what stood there, converted as an entry of the last name. -/
theorem at?_convert (keeps : KeepsPlain time) (path : List String) (name : String) (options : Value) :
    (convert time options).unguarded.at? (path ++ [name]) =
      (options.unguarded.at? (path ++ [name])).map (convertEntry time name) := by
  rw [unguarded_convert]
  by_cases written : options.unguarded.isObject = true
  · cases inner : options.unguarded with
    | object fields =>
      rw [convert]
      exact at?_convertEntries keeps path name fields
    | _ =>
      rw [inner] at written
      cases written
  · have plain : options.unguarded.isObject = false := Bool.eq_false_iff.mpr written
    rw [Value.at?_of_not_object plain, Value.at?_of_not_object ((isObject_convert time _).trans plain)]
    rfl

/-- A time is converted at whatever depth it stands. -/
theorem at?_convert_of_time (keeps : KeepsPlain time) {path : List String} {name : String} {options value : Value}
    (isTime : name ∈ keys) (found : options.unguarded.at? (path ++ [name]) = some value) (plain : value.isObject = false) :
    (convert time options).unguarded.at? (path ++ [name]) = some (time value) := by
  rw [at?_convert keeps, found, Option.map_some, convertEntry_of_plain plain, if_pos (List.contains_iff_mem.mpr isTime)]

/-- What is no time stays as it is at whatever depth it stands. -/
theorem at?_convert_of_other (keeps : KeepsPlain time) {path : List String} {name : String} {options value : Value}
    (other : name ∉ keys) (found : options.unguarded.at? (path ++ [name]) = some value) (plain : value.isObject = false) :
    (convert time options).unguarded.at? (path ++ [name]) = some value := by
  rw [at?_convert keeps, found, Option.map_some, convertEntry_of_plain plain,
    if_neg fun here => other (List.contains_iff_mem.mp here)]

end Timing

end AnimationCode
