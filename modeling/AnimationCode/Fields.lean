/-
**Fields in the order of their first writing.**

Named fields are a list of pairs. Writing a name that is present keeps its place; writing a new one
puts it last. The main facts:

* `get?_set`: reading after a write;
* `keys_set`: a write keeps the order of the names and adds a new one at the end;
* `get?_mapNamed`: reading after a change of the values.
-/

namespace AnimationCode

/-- Named fields in order; a well-formed list names each field once. -/
abbrev Fields (α : Type) := List (String × α)

namespace Fields

variable {α β : Type}

/-- The value of a field. -/
def get? (fields : Fields α) (name : String) : Option α := List.lookup name fields

/-- Whether a field is present. -/
def has (fields : Fields α) (name : String) : Bool := (get? fields name).isSome

/-- The names of the fields. -/
def keys (fields : Fields α) : List String := List.map Prod.fst fields

/-- The values of the fields. -/
def values (fields : Fields α) : List α := List.map Prod.snd fields

/-- Writes a field in its place, or at the end if it is new. -/
def set (fields : Fields α) (name : String) (value : α) : Fields α :=
  match fields with
  | [] => [(name, value)]
  | (key, old) :: rest =>
    if key = name then (key, value) :: rest else (key, old) :: set rest name value

/-- Writes a field unless it is present. -/
def setNew (fields : Fields α) (name : String) (value : α) : Fields α :=
  if has fields name then fields else List.append fields [(name, value)]

/-- The fields without one. -/
def erase (fields : Fields α) (name : String) : Fields α :=
  List.filter (fun field => field.1 != name) fields

/-- Writes all fields of a list, from left to right. -/
def update (fields extra : Fields α) : Fields α :=
  List.foldl (fun acc field => set acc field.1 field.2) fields extra

/-- The fields that a list of pairs leaves when written from left to right. -/
def ofPairs (pairs : List (String × α)) : Fields α := update [] pairs

/-- The fields with their values replaced, names and order kept. -/
def mapValues (f : α → β) (fields : Fields α) : Fields β :=
  List.map (fun field => (field.1, f field.2)) fields

/-- The fields with their values replaced, each with regard to its name. -/
def mapNamed (f : String → α → β) (fields : Fields α) : Fields β :=
  List.map (fun field => (field.1, f field.1 field.2)) fields

theorem get?_set (fields : Fields α) (name other : String) (value : α) :
    get? (set fields name value) other = if other = name then some value else get? fields other := by
  induction fields with
  | nil =>
    by_cases same : other = name
    · simp [get?, set, same]
    · have missed : (other == name) = false := by simpa using same
      simp [get?, set, List.lookup_cons, same, missed]
  | cons field rest ih =>
    obtain ⟨key, old⟩ := field
    simp only [get?] at ih
    by_cases here : key = name
    · subst here
      by_cases same : other = key
      · simp [get?, set, same]
      · have missed : (other == key) = false := by simpa using same
        simp [get?, set, List.lookup_cons, same, missed]
    · by_cases same : other = key
      · subst same
        simp [get?, set, here]
      · have missed : (other == key) = false := by simpa using same
        simp [get?, set, List.lookup_cons, here, missed, ih]

theorem keys_set (fields : Fields α) (name : String) (value : α) :
    keys (set fields name value) =
      if name ∈ keys fields then keys fields else keys fields ++ [name] := by
  induction fields with
  | nil => simp [keys, set]
  | cons field rest ih =>
    obtain ⟨key, old⟩ := field
    simp only [keys] at ih
    by_cases here : key = name
    · simp [keys, set, here]
    · have away : ¬ name = key := fun same => here same.symm
      by_cases present : name ∈ List.map Prod.fst rest <;>
        simp_all [keys, set]

theorem get?_cons (key : String) (value : α) (rest : Fields α) (name : String) :
    get? ((key, value) :: rest) name = if name = key then some value else get? rest name := by
  by_cases same : name = key
  · simp [get?, same]
  · have missed : (name == key) = false := by simpa using same
    simp [get?, List.lookup_cons, missed, same]

theorem mem_of_get? {fields : Fields α} {name : String} {value : α} (found : get? fields name = some value) :
    (name, value) ∈ fields := by
  obtain ⟨before, after, same, -⟩ := List.lookup_eq_some_iff.mp found
  rw [same]
  simp

theorem get?_mapNamed (f : String → α → β) (fields : Fields α) (name : String) :
    get? (mapNamed f fields) name = (get? fields name).map (f name) := by
  induction fields with
  | nil => rfl
  | cons field rest ih =>
    obtain ⟨key, value⟩ := field
    rw [show mapNamed f ((key, value) :: rest) = (key, f key value) :: mapNamed f rest from rfl,
      get?_cons, get?_cons, ih]
    by_cases same : name = key
    · simp [same]
    · simp [same]

end Fields

end AnimationCode
