/-
**Computations that come to a result.**

A computation of several steps has a result only if each step has one.

* `Outcome.bind_eq_ok`, `Outcome.map_eq_ok`: the results of the steps;
* `Outcome.ite_eq_ok`, `Outcome.ite_any_eq_ok`: a result that is given unless something is refused;
* `Outcome.FailsOnly`: a computation that fails for no other cause than some, and `FailsOnly.bind`: neither does one of
  several such steps;
* `Outcome.Yields`: a computation whose result, if it has one, is as it should be;
* `Value.whenWritable_eq_ok`, `Value.failsOnly_whenWritable`: what is made of values that can be written.
-/

import AnimationCode.Value

namespace AnimationCode

namespace Outcome

variable {α β : Type}

theorem bind_eq_ok {first : Outcome α} {next : α → Outcome β} {result : β} :
    (first >>= next) = .ok result ↔ ∃ middle, first = .ok middle ∧ next middle = .ok result := by
  cases first with
  | error failure => exact ⟨nofun, fun ⟨_, made, _⟩ => nomatch made⟩
  | ok middle => exact ⟨fun made => ⟨middle, rfl, made⟩, fun ⟨_, same, made⟩ => Except.ok.inj same ▸ made⟩

theorem map_eq_ok {first : Outcome α} {change : α → β} {result : β} :
    (change <$> first) = .ok result ↔ ∃ middle, first = .ok middle ∧ change middle = result := by
  cases first with
  | error failure => exact ⟨nofun, fun ⟨_, made, _⟩ => nomatch made⟩
  | ok middle => exact ⟨fun made => ⟨middle, rfl, Except.ok.inj made⟩, fun ⟨_, same, made⟩ => by cases same; rw [← made]; rfl⟩

theorem ite_eq_ok {refused : Prop} [Decidable refused] {failure : Failure} {value result : α} :
    (if refused then .error failure else .ok value : Outcome α) = .ok result ↔ ¬ refused ∧ value = result := by
  by_cases here : refused
  · rw [if_pos here]
    exact ⟨nofun, fun both => absurd here both.1⟩
  · rw [if_neg here]
    exact ⟨fun made => ⟨here, Except.ok.inj made⟩, fun both => congrArg Except.ok both.2⟩

/-- A result that is given unless one of some things is refused. -/
theorem ite_any_eq_ok {items : List β} {refused : β → Bool} {failure : Failure} {value result : α} :
    (if items.any refused then .error failure else .ok value : Outcome α) = .ok result ↔
      (∀ item ∈ items, refused item = false) ∧ result = value := by
  rw [ite_eq_ok, Bool.not_eq_true, List.any_eq_false, @eq_comm _ value]
  simp only [Bool.not_eq_true]

/-! ### Causes -/

variable {allowed more : Failure → Prop}

/-- A computation that fails for no cause but those that are allowed. -/
def FailsOnly (allowed : Failure → Prop) (outcome : Outcome α) : Prop := ∀ failure, outcome = .error failure → allowed failure

theorem failsOnly_ok (value : α) : FailsOnly allowed (.ok value : Outcome α) := nofun

theorem failsOnly_error {failure : Failure} (cause : allowed failure) : FailsOnly allowed (.error failure : Outcome α) :=
  fun _ failed => Except.error.inj failed ▸ cause

theorem FailsOnly.mono {outcome : Outcome α} (fails : FailsOnly allowed outcome)
    (weaker : ∀ failure, allowed failure → more failure) : FailsOnly more outcome :=
  fun failure failed => weaker failure (fails failure failed)

/-- Of several steps, the first that fails gives the cause. -/
theorem FailsOnly.bind {first : Outcome α} {next : α → Outcome β} (fails : FailsOnly allowed first)
    (rest : ∀ value, first = .ok value → FailsOnly allowed (next value)) : FailsOnly allowed (first >>= next) := by
  cases first with
  | error failure => exact failsOnly_error (fails failure rfl)
  | ok value => exact rest value rfl

theorem FailsOnly.map {first : Outcome α} (fails : FailsOnly allowed first) (change : α → β) :
    FailsOnly allowed (change <$> first) := by
  cases first with
  | error failure => exact failsOnly_error (fails failure rfl)
  | ok value => exact failsOnly_ok _

theorem failsOnly_ite {refused : Prop} [Decidable refused] {first second : Outcome α}
    (yes : refused → FailsOnly allowed first) (no : ¬ refused → FailsOnly allowed second) :
    FailsOnly allowed (if refused then first else second) := by
  by_cases here : refused
  · rw [if_pos here]
    exact yes here
  · rw [if_neg here]
    exact no here

/-! ### Results -/

variable {holds : α → Prop} {then_ : β → Prop}

/-- A computation whose result, if it has one, is as it should be. -/
def Yields (holds : α → Prop) (outcome : Outcome α) : Prop := ∀ value, outcome = .ok value → holds value

theorem yields_ok {value : α} (here : holds value) : Yields holds (.ok value) := fun _ made => Except.ok.inj made ▸ here

/-- Of several steps, the last gives the result. -/
theorem Yields.bind {first : Outcome α} {next : α → Outcome β} (yields : Yields holds first)
    (rest : ∀ value, holds value → Yields then_ (next value)) : Yields then_ (first >>= next) := by
  intro result made
  obtain ⟨middle, one, last⟩ := bind_eq_ok.mp made
  exact rest middle (yields middle one) result last

theorem yields_bind {first : Outcome α} {next : α → Outcome β} (rest : ∀ value, Yields then_ (next value)) :
    Yields then_ (first >>= next) := by
  intro result made
  obtain ⟨middle, -, last⟩ := bind_eq_ok.mp made
  exact rest middle result last

theorem yields_ite {refused : Prop} [Decidable refused] {first second : Outcome α}
    (yes : refused → Yields holds first) (no : ¬ refused → Yields holds second) :
    Yields holds (if refused then first else second) := by
  by_cases here : refused
  · rw [if_pos here]
    exact yes here
  · rw [if_neg here]
    exact no here

end Outcome

namespace Value

variable {α : Type} {values : List Value} {made result : α}

theorem whenWritable_eq_ok :
    whenWritable values made = .ok result ↔ (∀ value ∈ values, value.isWritable = true) ∧ made = result := by
  rw [← List.all_eq_true, whenWritable]
  cases values.all isWritable with
  | true => exact ⟨fun same => ⟨rfl, Except.ok.inj same⟩, fun both => congrArg Except.ok both.2⟩
  | false => exact ⟨nofun, fun both => nomatch both.1⟩

theorem whenWritable_of_forall (writable : ∀ value ∈ values, value.isWritable = true) : whenWritable values made = .ok made :=
  whenWritable_eq_ok.mpr ⟨writable, rfl⟩

theorem whenWritable_of_not {value : Value} (member : value ∈ values) (unwritable : value.isWritable = false) :
    whenWritable values made = .error .numberTooLong := by
  have some_ : values.all isWritable = false := List.all_eq_false.mpr ⟨value, member, by rw [unwritable]; decide⟩
  rw [whenWritable, some_]
  rfl

theorem failsOnly_whenWritable : Outcome.FailsOnly (· = .numberTooLong) (whenWritable values made) := by
  unfold whenWritable
  split
  · exact Outcome.failsOnly_ok _
  · exact Outcome.failsOnly_error rfl

end Value

end AnimationCode
