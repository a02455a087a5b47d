/-
**What is read without a fault.**

A reading of several parts has a result just if each part has one, and then the parts stood in the data.

* `Checked.bind_eq_ok`, `Checked.map_eq_ok`, `Checked.apply_eq_ok`, `Checked.within_eq_ok`: the results of the parts;
* `Record.required_eq_ok`: a field that was read is there;
* `Record.exists_of_listOf`: an item that was read is in the list;
* `Value.IsNamedOnce`: data in which no object names a field twice.
-/

import AnimationCode.Record.Reading

namespace AnimationCode

namespace Checked

variable {α β : Type}

theorem bind_eq_ok {first : Checked α} {next : α → Checked β} {result : β} :
    (first >>= next) = .ok result ↔ ∃ middle, first = .ok middle ∧ next middle = .ok result := by
  cases first with
  | error faults => exact ⟨nofun, fun ⟨_, made, _⟩ => nomatch made⟩
  | ok middle => exact ⟨fun made => ⟨middle, rfl, made⟩, fun ⟨_, same, made⟩ => Except.ok.inj same ▸ made⟩

theorem map_eq_ok {found : Checked α} {change : α → β} {result : β} :
    found.map change = .ok result ↔ ∃ value, found = .ok value ∧ change value = result := by
  cases found with
  | error faults => exact ⟨nofun, fun ⟨_, made, _⟩ => nomatch made⟩
  | ok value =>
    constructor
    · intro made
      exact ⟨value, rfl, Except.ok.inj made⟩
    · rintro ⟨other, same, rfl⟩
      cases same
      rfl

theorem apply_eq_ok {function : Checked (α → β)} {argument : Checked α} {result : β} :
    function.apply argument = .ok result ↔ ∃ f value, function = .ok f ∧ argument = .ok value ∧ f value = result := by
  cases function with
  | error faults => cases argument <;> simp [apply]
  | ok f => cases argument <;> simp [apply]

theorem within_eq_ok {step : Step} {found : Checked α} {result : α} : found.within step = .ok result ↔ found = .ok result := by
  cases found <;> simp [within]

end Checked

namespace Record

variable {α : Type}

theorem object_eq_ok {value : Value} {fields : Fields Value} : object value = .ok fields ↔ value = .object fields := by
  cases value <;> simp [object, Checked.fault]

theorem record_eq_ok {value : Value} {fields : Fields Value} : record value = .ok fields ↔ value = .object fields := by
  cases value <;> simp [record, Checked.fault]

/-- A field that was read is there. -/
theorem required_eq_ok {fields : Fields Value} {name : String} {read : Value → Checked α} {result : α} :
    required fields name read = .ok result ↔ ∃ value, fields.get? name = some value ∧ read value = .ok result := by
  rw [required, Checked.within_eq_ok]
  cases fields.get? name <;> simp [Checked.fault]

theorem exists_of_itemsFrom {read : Value → Checked α} {place : Nat} {items : List Value} {results : List α}
    (done : itemsFrom read place items = .ok results) : ∀ result ∈ results, ∃ item ∈ items, read item = .ok result := by
  induction items generalizing place results with
  | nil =>
    cases done
    exact List.forall_mem_nil _
  | cons item rest ih =>
    obtain ⟨f, others, here, later, rfl⟩ := Checked.apply_eq_ok.mp done
    obtain ⟨first, one, rfl⟩ := Checked.map_eq_ok.mp here
    refine List.forall_mem_cons.mpr ⟨⟨item, List.mem_cons_self, Checked.within_eq_ok.mp one⟩, fun result member => ?_⟩
    obtain ⟨other, among, made⟩ := ih later result member
    exact ⟨other, List.mem_cons_of_mem _ among, made⟩

/-- An item that was read is in the list. -/
theorem exists_of_listOf {read : Value → Checked α} {value : Value} {results : List α}
    (done : listOf read value = .ok results) :
    ∃ items, value = .list items ∧ ∀ result ∈ results, ∃ item ∈ items, read item = .ok result := by
  cases value with
  | list items => exact ⟨items, rfl, exists_of_itemsFrom done⟩
  | _ => cases done

end Record

/-! ### Data that names each field once -/

namespace Value

mutual

/-- No object in a value names a field twice. -/
def IsNamedOnce : Value → Prop
  | .list items => AreNamedOnce items
  | .object fields => (Fields.keys fields).Nodup ∧ EntriesNamedOnce fields
  | .guarded inner => IsNamedOnce inner
  | _ => True

/-- No object in some values names a field twice. -/
def AreNamedOnce : List Value → Prop
  | [] => True
  | item :: rest => IsNamedOnce item ∧ AreNamedOnce rest

/-- No object in the values of some fields names a field twice. -/
def EntriesNamedOnce : List (String × Value) → Prop
  | [] => True
  | (_, value) :: rest => IsNamedOnce value ∧ EntriesNamedOnce rest

end

theorem AreNamedOnce.of_mem {items : List Value} (named : AreNamedOnce items) : ∀ item ∈ items, item.IsNamedOnce := by
  induction items with
  | nil => exact List.forall_mem_nil _
  | cons item rest ih =>
    rw [AreNamedOnce] at named
    exact List.forall_mem_cons.mpr ⟨named.1, ih named.2⟩

theorem EntriesNamedOnce.of_mem {fields : List (String × Value)} (named : EntriesNamedOnce fields) :
    ∀ field ∈ fields, field.2.IsNamedOnce := by
  induction fields with
  | nil => exact List.forall_mem_nil _
  | cons field rest ih =>
    rw [EntriesNamedOnce] at named
    exact List.forall_mem_cons.mpr ⟨named.1, ih named.2⟩

theorem entriesNamedOnce_iff {fields : List (String × Value)} :
    EntriesNamedOnce fields ↔ ∀ field ∈ fields, field.2.IsNamedOnce := by
  refine ⟨EntriesNamedOnce.of_mem, fun each => ?_⟩
  induction fields with
  | nil => trivial
  | cons field rest ih =>
    rw [EntriesNamedOnce]
    exact ⟨each field List.mem_cons_self, ih fun other member => each other (List.mem_cons_of_mem _ member)⟩

theorem IsNamedOnce.nodup {fields : Fields Value} (named : IsNamedOnce (.object fields)) : (Fields.keys fields).Nodup := by
  rw [IsNamedOnce] at named
  exact named.1

theorem IsNamedOnce.of_get? {fields : Fields Value} (named : IsNamedOnce (.object fields)) {name : String} {value : Value}
    (said : fields.get? name = some value) : value.IsNamedOnce := by
  rw [IsNamedOnce] at named
  exact named.2.of_mem _ (Fields.mem_of_get? said)

theorem IsNamedOnce.items {items : List Value} (named : IsNamedOnce (.list items)) :
    ∀ item ∈ items, item.IsNamedOnce := by
  rw [IsNamedOnce] at named
  exact named.of_mem

end Value

end AnimationCode
