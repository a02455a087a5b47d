/-
**Fields after a change.**

Named fields are read by name, and their names have an order. A change of some fields shows in both.

* `Fields.get?_filter`, `Fields.get?_erase`: what is left when fields are taken out;
* `Fields.get?_ofPairs`, `Fields.keys_ofPairs`: the fields that a list of pairs leaves;
* `Fields.keys_filter`, `Fields.nodup_erase`: the order of the names that are left.
-/

import AnimationCode.Fields
import AnimationCode.Proofs.Account
import Mathlib.Data.List.Induction

namespace AnimationCode

namespace Fields

variable {α : Type}

theorem get?_append (fields more : Fields α) (name : String) :
    get? (fields ++ more) name = (fields.get? name).or (more.get? name) := List.lookup_append

theorem get?_eq_none_iff {fields : Fields α} {name : String} : fields.get? name = none ↔ name ∉ fields.keys := by
  induction fields with
  | nil => simp [get?, keys]
  | cons field rest ih =>
    obtain ⟨key, value⟩ := field
    by_cases same : name = key
    · simp [get?_cons, keys, same]
    · rw [get?_cons, if_neg same, ih]
      simp [keys, same]

theorem has_iff {fields : Fields α} {name : String} : fields.has name = true ↔ name ∈ fields.keys := by
  rw [has, Option.isSome_iff_ne_none, ne_eq, get?_eq_none_iff, not_not]

/-- A field whose name occurs once is found. -/
theorem get?_of_count_le_one {fields : Fields α} {name : String} {value : α} (once : fields.keys.count name ≤ 1)
    (member : (name, value) ∈ fields) : fields.get? name = some value := by
  induction fields with
  | nil => cases member
  | cons field rest ih =>
    obtain ⟨key, first⟩ := field
    rw [keys, List.map_cons, List.count_cons] at once
    rw [get?_cons]
    rcases List.mem_cons.mp member with here | there
    · obtain ⟨rfl, rfl⟩ := Prod.mk.inj here
      exact if_pos rfl
    · have later : 0 < (keys rest).count name := List.count_pos_iff.mpr (List.mem_map.mpr ⟨_, there, rfl⟩)
      have other : name ≠ key := by
        rintro rfl
        rw [if_pos (beq_self_eq_true name)] at once
        change (keys rest).count name + 1 ≤ 1 at once
        omega
      rw [if_neg other]
      exact ih (Nat.le_of_add_right_le once) there

/-- A field that was named once is found. -/
theorem get?_of_mem {fields : Fields α} (named : fields.keys.Nodup) {name : String} {value : α}
    (member : (name, value) ∈ fields) : fields.get? name = some value :=
  get?_of_count_le_one (List.nodup_iff_count_le_one.mp named name) member

theorem set_of_fresh {fields : Fields α} {name : String} (fresh : fields.get? name = none) (value : α) :
    fields.set name value = fields ++ [(name, value)] := by
  induction fields with
  | nil => rfl
  | cons field rest ih =>
    obtain ⟨key, old⟩ := field
    rw [get?_cons] at fresh
    split at fresh
    · cases fresh
    · rename_i other
      rw [set, if_neg fun same : key = name => other same.symm, ih fresh]
      rfl

theorem set_set (fields : Fields α) (name : String) (first second : α) :
    (fields.set name first).set name second = fields.set name second := by
  induction fields with
  | nil => simp [set]
  | cons field rest ih =>
    obtain ⟨key, old⟩ := field
    by_cases here : key = name
    · simp [set, here]
    · simp [set, here, ih]

theorem nodup_set {fields : Fields α} (named : fields.keys.Nodup) (name : String) (value : α) :
    (fields.set name value).keys.Nodup := by
  rw [keys_set]
  exact nodup_tell named name

/-- A field that is there after a write was there before it, or has the value that was written. -/
theorem mem_set {fields : Fields α} {name : String} {value : α} {field : String × α} (member : field ∈ fields.set name value) :
    field ∈ fields ∨ field.2 = value := by
  induction fields with
  | nil => exact .inr (congrArg Prod.snd (List.mem_singleton.mp member))
  | cons first rest ih =>
    obtain ⟨key, old⟩ := first
    rw [set] at member
    split at member
    · rcases List.mem_cons.mp member with rfl | there
      · exact .inr rfl
      · exact .inl (List.mem_cons_of_mem _ there)
    · rcases List.mem_cons.mp member with rfl | there
      · exact .inl List.mem_cons_self
      · exact (ih there).imp_left (List.mem_cons_of_mem _)

/-- The field that was written last is written again. -/
theorem set_last {fields : Fields α} {name : String} (fresh : fields.get? name = none) (old value : α) :
    (fields ++ [(name, old)]).set name value = fields ++ [(name, value)] := by
  induction fields with
  | nil => exact if_pos rfl
  | cons field rest ih =>
    obtain ⟨key, first⟩ := field
    rw [get?_cons] at fresh
    split at fresh
    · cases fresh
    · rename_i other
      rw [List.cons_append, set, if_neg fun same : key = name => other same.symm, ih fresh]
      rfl

theorem get?_setNew (fields : Fields α) (name other : String) (value : α) :
    (fields.setNew name value).get? other = (fields.get? other).or (if other = name then some value else none) := by
  have last : get? [(name, value)] other = if other = name then some value else none := get?_cons ..
  unfold setNew has
  cases known : fields.get? name with
  | none => exact (get?_append ..).trans (by rw [last])
  | some old =>
    rw [Option.isSome_some, if_pos rfl]
    split
    · rename_i same
      rw [same, known]
      rfl
    · rw [Option.or_none]

/-! ### Fields taken out -/

theorem get?_filter (fields : Fields α) (keeps : String → Bool) (name : String) :
    get? (fields.filter fun field => keeps field.1) name = if keeps name then fields.get? name else none := by
  induction fields with
  | nil => simp [get?]
  | cons field rest ih =>
    obtain ⟨key, value⟩ := field
    by_cases kept : keeps key = true
    · rw [List.filter_cons_of_pos (by exact kept), get?_cons, get?_cons, ih]
      by_cases same : name = key
      · simp [same, kept]
      · simp [same]
    · rw [List.filter_cons_of_neg (by exact kept), ih, get?_cons]
      by_cases same : name = key
      · simp [same, kept]
      · simp [same]

/-- Fields that are named once, some of which are taken out for their values. -/
theorem get?_filter_of_nodup {fields : Fields α} (named : fields.keys.Nodup) (keeps : String × α → Bool) (name : String) :
    get? (List.filter keeps fields) name = (fields.get? name).filter fun value => keeps (name, value) := by
  have still : (keys (List.filter keeps fields)).Nodup := named.sublist (List.filter_sublist.map Prod.fst)
  refine Option.ext fun value => ?_
  rw [Option.filter_eq_some_iff]
  constructor
  · intro found
    obtain ⟨member, kept⟩ := List.mem_filter.mp (mem_of_get? found)
    exact ⟨get?_of_mem named member, kept⟩
  · rintro ⟨found, kept⟩
    exact get?_of_mem still (List.mem_filter.mpr ⟨mem_of_get? found, kept⟩)

/-- A field that is found stays so as long as it is kept. -/
theorem get?_filter_of_get? {fields : Fields α} {keeps : String × α → Bool} {name : String} {value : α}
    (found : fields.get? name = some value) (kept : keeps (name, value) = true) :
    get? (List.filter keeps fields) name = some value := by
  induction fields with
  | nil => cases found
  | cons field rest ih =>
    obtain ⟨key, first⟩ := field
    rw [get?_cons] at found
    by_cases here : name = key
    · rw [if_pos here] at found
      cases found
      cases here
      rw [List.filter_cons_of_pos kept, get?_cons, if_pos rfl]
    · rw [if_neg here] at found
      rw [List.filter_cons]
      split
      · rw [get?_cons, if_neg here, ih found]
      · exact ih found

theorem get?_erase (fields : Fields α) (name other : String) :
    (fields.erase name).get? other = if other = name then none else fields.get? other := by
  rw [erase, get?_filter fields (· != name)]
  by_cases same : other = name <;> simp [same]

theorem keys_filter (fields : Fields α) (keeps : String → Bool) :
    keys (fields.filter fun field => keeps field.1) = fields.keys.filter keeps := by
  rw [keys, keys, List.filter_map]
  rfl

theorem keys_erase (fields : Fields α) (name : String) : (fields.erase name).keys = fields.keys.filter (· != name) :=
  keys_filter fields (· != name)

theorem nodup_erase {fields : Fields α} (named : fields.keys.Nodup) (name : String) : (fields.erase name).keys.Nodup := by
  rw [keys_erase]
  exact named.filter _

/-- Fields of which some are left out and none is renamed. -/
theorem keys_filterMap {β : Type} {change : String × α → Option (String × β)} (fields : Fields α)
    (same : ∀ field changed, change field = some changed → changed.1 = field.1) :
    (keys (fields.filterMap change)).Sublist fields.keys := by
  induction fields with
  | nil => exact .slnil
  | cons field rest ih =>
    rw [List.filterMap_cons]
    cases made : change field with
    | none => exact ih.cons _
    | some changed =>
      rw [keys, keys, List.map_cons, List.map_cons, same field changed made]
      exact ih.cons_cons _

/-! ### Fields written one after another -/

theorem update_append (fields extra more : Fields α) :
    fields.update (extra ++ more) = (fields.update extra).update more := List.foldl_append

/-- Lists written one after another are written as one. -/
theorem foldl_update (fields : Fields α) (extras : List (Fields α)) :
    extras.foldl update fields = fields.update extras.flatten := by
  induction extras generalizing fields with
  | nil => rfl
  | cons extra rest ih => rw [List.foldl_cons, ih, List.flatten_cons, update_append]

/-- The last value that is written is the one that stays. -/
theorem get?_update (fields extra : Fields α) (name : String) :
    (fields.update extra).get? name = (get? extra.reverse name).or (fields.get? name) := by
  induction extra using List.reverseRecOn with
  | nil => rfl
  | append_singleton before field ih =>
    obtain ⟨key, value⟩ := field
    rw [update_append, List.reverse_append, get?_append]
    change get? (set (fields.update before) key value) name = ((get? [(key, value)] name).or _).or _
    rw [get?_set, get?_cons, ih]
    split
    · rfl
    · rfl

theorem keys_update (fields extra : Fields α) : (fields.update extra).keys = tellAll fields.keys extra.keys := by
  induction extra generalizing fields with
  | nil => rfl
  | cons field rest ih =>
    change keys ((fields.set field.1 field.2).update rest) = tellAll (tell fields.keys field.1) (keys rest)
    rw [ih, keys_set]
    rfl

theorem get?_ofPairs (pairs : Fields α) (name : String) : (ofPairs pairs).get? name = get? pairs.reverse name := by
  rw [ofPairs, get?_update]
  exact Option.or_none

theorem keys_ofPairs (pairs : Fields α) : (ofPairs pairs).keys = tellAll [] pairs.keys := keys_update [] pairs

theorem ofPairs_append (pairs more : Fields α) : ofPairs (pairs ++ more) = (ofPairs pairs).update more :=
  update_append [] pairs more

/-- Fields that are named once are written as they are. -/
theorem ofPairs_of_nodup {fields : Fields α} (named : fields.keys.Nodup) : ofPairs fields = fields := by
  induction fields using List.reverseRecOn with
  | nil => rfl
  | append_singleton before field ih =>
    obtain ⟨name, value⟩ := field
    rw [keys, List.map_append, List.nodup_append] at named
    have fresh : get? before name = none :=
      get?_eq_none_iff.mpr fun known => named.2.2 name known name (List.mem_singleton_self _) rfl
    rw [ofPairs_append, ih named.1]
    exact set_of_fresh fresh value

end Fields

end AnimationCode
