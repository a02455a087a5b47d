/-
**What an account tells.**

Each thing is told once. An account after some remarks tells what it told before, and then what they say.

* `items_subset_tellAll`, `tellAll_subset`: all that is told is there, and nothing else;
* `tellAll_of_subset`: what was told before adds nothing;
* `filter_tellAll`, `tellAll_of_nodup`: the order in which things are told;
* `eraseDups_eq_tellAll`, `pairwise_tellAll`: without repetitions, each thing stands where it first came up;
* `Account.addRemarks_eq`: an account after some remarks.
-/

import AnimationCode.Account
import Mathlib.Data.List.Induction
import Mathlib.Data.List.Nodup

namespace AnimationCode

section Told

variable {α β : Type} [DecidableEq α] [DecidableEq β]

theorem tell_of_mem {told : List α} {item : α} (member : item ∈ told) :
    tell told item = told := if_pos member

theorem subset_tell (told : List α) (item : α) :
    told ⊆ tell told item := by
  unfold tell
  split
  · exact List.Subset.refl told
  · exact List.subset_append_left told [item]

theorem mem_tell (told : List α) (item : α) : item ∈ tell told item := by
  unfold tell
  split
  · assumption
  · simp

theorem subset_tellAll (told items : List α) :
    told ⊆ tellAll told items := by
  induction items generalizing told with
  | nil => exact List.Subset.refl told
  | cons item rest ih => exact List.Subset.trans (subset_tell told item) (ih (tell told item))

/-- All that was told is there. -/
theorem items_subset_tellAll (told items : List α) :
    items ⊆ tellAll told items := by
  induction items generalizing told with
  | nil => exact List.nil_subset _
  | cons item rest ih =>
    refine List.cons_subset.mpr ⟨?_, ih (tell told item)⟩
    exact subset_tellAll (tell told item) rest (mem_tell told item)

theorem tell_subset (told : List α) (item : α) : tell told item ⊆ told ++ [item] := by
  unfold tell
  split
  · exact List.subset_append_left told [item]
  · exact List.Subset.refl _

/-- Nothing else is told. -/
theorem tellAll_subset (told items : List α) : tellAll told items ⊆ told ++ items := by
  induction items generalizing told with
  | nil => exact List.subset_append_left told []
  | cons item rest ih =>
    intro word member
    rcases List.mem_append.mp (ih (tell told item) member) with before | later
    · rcases List.mem_append.mp (tell_subset told item before) with known | new
      · exact List.mem_append_left _ known
      · exact List.mem_append_right _ (List.mem_cons.mpr (.inl (List.mem_singleton.mp new)))
    · exact List.mem_append_right _ (List.mem_cons_of_mem _ later)

theorem mem_tellAll {told items : List α} {item : α} : item ∈ tellAll told items ↔ item ∈ told ∨ item ∈ items :=
  ⟨fun member => List.mem_append.mp (tellAll_subset told items member),
    fun either => either.elim (fun known => subset_tellAll told items known) fun member => items_subset_tellAll told items member⟩

/-- What was told before adds nothing. -/
theorem tellAll_of_subset {told items : List α} (known : items ⊆ told) :
    tellAll told items = told := by
  induction items with
  | nil => rfl
  | cons item rest ih =>
    obtain ⟨member, within⟩ := List.cons_subset.mp known
    rw [tellAll, List.foldl_cons, tell_of_mem member]
    exact ih within

theorem nodup_tell {told : List α} (once : told.Nodup) (item : α) : (tell told item).Nodup := by
  unfold tell
  split
  · exact once
  · rename_i fresh
    exact List.nodup_append.mpr ⟨once, List.nodup_singleton item, fun one known other here same =>
      fresh (List.mem_singleton.mp here ▸ same ▸ known)⟩

theorem nodup_tellAll {told : List α} (once : told.Nodup) (items : List α) : (tellAll told items).Nodup := by
  induction items generalizing told with
  | nil => exact once
  | cons item rest ih => exact ih (nodup_tell once item)

theorem filter_tell (keeps : α → Bool) (told : List α) (item : α) :
    (tell told item).filter keeps = if keeps item then tell (told.filter keeps) item else told.filter keeps := by
  by_cases kept : keeps item = true
  · by_cases known : item ∈ told
    · simp [tell, kept, known]
    · simp [tell, kept, known]
  · by_cases known : item ∈ told
    · simp [tell, kept, known]
    · simp [tell, kept, known]

/-- Of the things told once, some are told in the same order. -/
theorem filter_tellAll (keeps : α → Bool) (told items : List α) :
    (tellAll told items).filter keeps = tellAll (told.filter keeps) (items.filter keeps) := by
  induction items generalizing told with
  | nil => rfl
  | cons item rest ih =>
    change (tellAll (tell told item) rest).filter keeps = _
    rw [ih, filter_tell]
    by_cases kept : keeps item = true
    · rw [if_pos kept, List.filter_cons_of_pos kept]
      rfl
    · rw [if_neg kept, List.filter_cons_of_neg kept]

theorem tellAll_of_nodup {told items : List α} (once : (told ++ items).Nodup) : tellAll told items = told ++ items := by
  induction items generalizing told with
  | nil => exact (List.append_nil told).symm
  | cons item rest ih =>
    have fresh : item ∉ told := fun known => (List.nodup_append.mp once).2.2 item known item List.mem_cons_self rfl
    have same : tell told item = told ++ [item] := if_neg fresh
    change tellAll (tell told item) rest = _
    rw [same, ih (by simpa using once), List.append_assoc]
    rfl

theorem tellAll_concat (told items : List α) (item : α) : tellAll told (items ++ [item]) = tell (tellAll told items) item :=
  List.foldl_concat ..

/-- What is told once is what is left without repetitions. -/
theorem eraseDups_eq_tellAll [BEq α] [LawfulBEq α] (items : List α) : items.eraseDups = tellAll [] items := by
  induction items using List.reverseRecOn with
  | nil => rfl
  | append_singleton items item ih =>
    rw [tellAll_concat, ← ih, List.eraseDups_append, tell]
    by_cases known : item ∈ items <;> simp [List.removeAll, known, List.eraseDups_cons]

theorem nodup_eraseDups [BEq α] [LawfulBEq α] (items : List α) : items.eraseDups.Nodup := by
  rw [eraseDups_eq_tellAll]
  exact nodup_tellAll List.nodup_nil items

/-- Each thing stands where it first came up. -/
theorem pairwise_tellAll (items : List α) :
    (tellAll [] items).Pairwise fun first second => items.idxOf first < items.idxOf second := by
  induction items using List.reverseRecOn with
  | nil => exact List.Pairwise.nil
  | append_singleton items item ih =>
    have came {told : α} (member : told ∈ tellAll [] items) : told ∈ items := by simpa [mem_tellAll] using member
    have kept : (tellAll [] items).Pairwise fun first second =>
        (items ++ [item]).idxOf first < (items ++ [item]).idxOf second :=
      ih.imp_of_mem fun early late before => by
        rwa [List.idxOf_append_of_mem (came early), List.idxOf_append_of_mem (came late)]
    rw [tellAll_concat, tell]
    split
    · exact kept
    · rename_i fresh
      refine List.pairwise_append.mpr ⟨kept, List.pairwise_singleton _ _, fun first early last late => ?_⟩
      obtain rfl := List.mem_singleton.mp late
      have new : last ∉ items := fun member => fresh (mem_tellAll.mpr (.inr member))
      rw [List.idxOf_append_of_mem (came early), List.idxOf_append_of_notMem new]
      exact Nat.lt_add_right _ (List.idxOf_lt_length_of_mem (came early))

/-- What is told of the things told once is what is told of all of them. -/
theorem tellAll_map_tellAll (view : α → β) (items : List α) :
    tellAll [] ((tellAll [] items).map view) = tellAll [] (items.map view) := by
  induction items using List.reverseRecOn with
  | nil => rfl
  | append_singleton items item ih =>
    rw [List.map_append, List.map_singleton, tellAll_concat, tellAll_concat, ← ih, tell]
    split
    · rename_i known
      exact (tell_of_mem (mem_tellAll.mpr (.inr (List.mem_map_of_mem known)))).symm
    · rw [List.map_append, List.map_singleton, tellAll_concat]

end Told

namespace Remark

/-- The limitation that a remark is. -/
def limitation? : Remark → Option Limitation
  | .limitation stated => some stated
  | _ => none

/-- The note that a remark is. -/
def note? : Remark → Option String
  | .note text => some text
  | _ => none

/-- The placeholder that a remark is. -/
def placeholder? : Remark → Option String
  | .placeholder text => some text
  | _ => none

end Remark

theorem Account.suggest_of_subset {account : Account} {said : List String}
    (known : said ⊆ account.suggestions) : account.suggest said = account := by
  rw [Account.suggest, tellAll_of_subset known]

/-- An account after some remarks. -/
theorem Account.addRemarks_eq (account : Account) (remarks : List Remark) :
    account.addRemarks remarks = { account with
      limitations := tellAll account.limitations (remarks.filterMap Remark.limitation?)
      notes := tellAll account.notes (remarks.filterMap Remark.note?)
      placeholders := tellAll account.placeholders (remarks.filterMap Remark.placeholder?) } := by
  induction remarks generalizing account with
  | nil => rfl
  | cons remark rest ih =>
    change (account.addRemark remark).addRemarks rest = _
    rw [ih]
    cases remark <;> rfl

end AnimationCode
