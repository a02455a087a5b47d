/-
**A text as its import lines and the characters between them.**

Every text is import lines and other characters, in one way that a reader from left to right finds. What is told of the text
by places is told by these stretches without any: what stands outside the import lines, and what becomes of each line when
names are removed.

* `Stretch`, `Stretch.whole`: import lines as they stand, and the characters between them;
* `Stretch.AreRead`, `Stretch.exists_areRead`: the stretches that a text is read as;
* `Stretch.readAll_whole`: their lines are what is read;
* `Stretch.without_whole`: what stands outside the import lines.
-/

import AnimationCode.Import.Edit
import AnimationCode.Proofs.Import.Spelling

namespace AnimationCode

namespace ImportLine

open Text (isBlank)

variable {text rest cs : List Char} {line : ImportLine} {start : Nat}

/-- No import line stands at the beginning of a text. -/
def BeginsNone (cs : List Char) : Prop := ∀ text rest line, cs = text ++ rest → EndsLine rest → ¬ Spells text line

theorem readAt?_eq_none_iff : readAt? start cs = none ↔ BeginsNone cs := by
  constructor
  · rintro none_ text rest line rfl ends spells
    have read : readAt? start (text ++ rest) = some ({ line with start := start, stop := start + text.length }, rest) :=
      readAt?_eq_some_iff.mpr ⟨text, rfl, ends, spells, rfl, rfl⟩
    rw [none_] at read
    cases read
  · intro none_
    cases read : readAt? start cs with
    | none => rfl
    | some found =>
      obtain ⟨line, rest⟩ := found
      obtain ⟨text, same, ends, spells, -⟩ := readAt?_eq_some_iff.mp read
      exact absurd spells (none_ text rest line same ends)

theorem Spells.exists_cons (spells : Spells text line) : ∃ c rest, text = c :: rest := by
  obtain ⟨indent, head, quoted, -, rfl, -⟩ := spells
  cases indent with
  | nil => exact ⟨_, _, rfl⟩
  | cons c indent => exact ⟨c, _, rfl⟩

end ImportLine

open ImportLine (Spells EndsLine BeginsNone readAt? readFrom readAll)

/-- A character between the import lines of a text, or an import line as it stands. -/
inductive Stretch where
  | other (c : Char)
  | statement (text : List Char) (line : ImportLine)

namespace Stretch

/-- The characters of a stretch. -/
def text : Stretch → List Char
  | .other c => [c]
  | .statement text _ => text

/-- The characters of a stretch outside the import lines. -/
def outside : Stretch → List Char
  | .other c => [c]
  | .statement _ _ => []

/-- Stretches as a text. -/
def whole (stretches : List Stretch) : List Char := stretches.flatMap text

/-- What stands outside the import lines. -/
def others (stretches : List Stretch) : List Char := stretches.flatMap outside

/-- The import lines at their places, from an offset on. -/
def placed : Nat → List Stretch → List ImportLine
  | _, [] => []
  | offset, .other _ :: rest => placed (offset + 1) rest
  | offset, .statement text line :: rest =>
    { line with start := offset, stop := offset + text.length } :: placed (offset + text.length) rest

variable {c : Char} {chars : List Char} {line : ImportLine} {rest stretches : List Stretch}

@[simp] theorem whole_other (c : Char) (rest : List Stretch) : whole (.other c :: rest) = c :: whole rest := rfl

@[simp] theorem whole_statement (chars : List Char) (line : ImportLine) (rest : List Stretch) :
    whole (.statement chars line :: rest) = chars ++ whole rest := rfl

@[simp] theorem whole_append (first second : List Stretch) : whole (first ++ second) = whole first ++ whole second :=
  List.flatMap_append

@[simp] theorem others_statement (chars : List Char) (line : ImportLine) (rest : List Stretch) :
    others (.statement chars line :: rest) = others rest := rfl

/-- **The stretches that are read from left to right**, from the beginning of a line or not. -/
inductive AreRead : Bool → List Stretch → Prop
  | nil {start : Bool} : AreRead start []
  | other {start : Bool} {c : Char} {rest : List Stretch} (none_ : start = true → BeginsNone (c :: whole rest))
    (later : AreRead (c == '\n') rest) : AreRead start (.other c :: rest)
  | statement {chars : List Char} {line : ImportLine} {rest : List Stretch} (spells : Spells chars line)
    (ends : EndsLine (whole rest)) (later : AreRead false rest) : AreRead true (.statement chars line :: rest)

/-- Every text is read as stretches. -/
theorem exists_areRead (start : Bool) (chars : List Char) : ∃ stretches, whole stretches = chars ∧ AreRead start stretches := by
  induction width : chars.length using Nat.strongRecOn generalizing start chars with
  | ind size ih =>
    cases chars with
    | nil => exact ⟨[], rfl, .nil⟩
    | cons c chars =>
      by_cases here : start = true ∧ ¬ BeginsNone (c :: chars)
      · obtain ⟨rfl, begins⟩ := here
        cases read : readAt? 0 (c :: chars) with
        | none => exact absurd (ImportLine.readAt?_eq_none_iff.mp read) begins
        | some found =>
          obtain ⟨line, rest⟩ := found
          obtain ⟨text, same, ends, spells, -⟩ := ImportLine.readAt?_eq_some_iff.mp read
          obtain ⟨d, more, rfl⟩ := spells.exists_cons
          have shorter : rest.length < size := by
            rw [← width, same, List.length_append, List.length_cons]
            omega
          obtain ⟨stretches, rfl, later⟩ := ih rest.length shorter false rest rfl
          exact ⟨.statement (d :: more) line :: stretches, same.symm, .statement spells ends later⟩
      · obtain ⟨stretches, rfl, later⟩ := ih chars.length (by rw [← width, List.length_cons]; omega) (c == '\n') chars rfl
        exact ⟨.other c :: stretches, rfl, .other (fun first => not_not.mp fun begins => here ⟨first, begins⟩) later⟩

theorem readFrom_whole {start : Bool} (read : AreRead start stretches) {steps : Nat} (enough : (whole stretches).length ≤ steps)
    (offset : Nat) : readFrom start steps offset (whole stretches) = placed offset stretches := by
  induction read generalizing steps offset with
  | nil => cases steps <;> rfl
  | @other start c rest none_ later ih =>
    rw [whole_other, List.length_cons] at enough
    obtain ⟨steps, rfl⟩ : ∃ fewer, steps = fewer + 1 := ⟨steps - 1, by omega⟩
    have passed : (if start = true then readAt? offset (c :: whole rest) else none) = none := by
      split
      · exact ImportLine.readAt?_eq_none_iff.mpr (none_ ‹_›)
      · rfl
    rw [whole_other, readFrom, passed, placed]
    exact ih (by omega) (offset + 1)
  | @statement chars line rest spells ends later ih =>
    have read : readAt? offset (chars ++ whole rest) =
        some ({ line with start := offset, stop := offset + chars.length }, whole rest) :=
      ImportLine.readAt?_eq_some_iff.mpr ⟨chars, rfl, ends, spells, rfl, rfl⟩
    obtain ⟨c, more, rfl⟩ := spells.exists_cons
    rw [whole_statement, List.length_append, List.length_cons] at enough
    obtain ⟨steps, rfl⟩ : ∃ fewer, steps = fewer + 1 := ⟨steps - 1, by omega⟩
    rw [List.cons_append] at read
    rw [whole_statement, List.cons_append, readFrom, if_pos rfl, read, placed]
    dsimp only
    rw [ih (by omega)]

/-- **The import lines of a text are those of its stretches.** -/
theorem readAll_whole (read : AreRead true stretches) : readAll (whole stretches) = placed 0 stretches :=
  readFrom_whole read (Nat.le_refl _) 0

theorem placed_append (offset : Nat) (first second : List Stretch) :
    placed offset (first ++ second) = placed offset first ++ placed (offset + (whole first).length) second := by
  induction first generalizing offset with
  | nil => rfl
  | cons stretch first ih =>
    cases stretch with
    | other c =>
      rw [List.cons_append, placed, placed, ih, whole_other, List.length_cons, Nat.add_right_comm, Nat.add_assoc]
    | statement chars line =>
      rw [List.cons_append, placed, placed, ih, whole_statement, List.length_append, Nat.add_assoc]
      rfl

/-- What does not depend on places is told of the stretches. -/
theorem mem_placed_iff (offset : Nat) {found : ImportLine} : found ∈ placed offset stretches ↔ ∃ before chars line after,
    stretches = before ++ .statement chars line :: after ∧
      found = { line with start := offset + (whole before).length, stop := offset + (whole before).length + chars.length } := by
  constructor
  · intro member
    induction stretches generalizing offset with
    | nil => cases member
    | cons stretch rest ih =>
      cases stretch with
      | other c =>
        obtain ⟨before, chars, line, after, rfl, rfl⟩ := ih (offset + 1) member
        refine ⟨.other c :: before, chars, line, after, rfl, ?_⟩
        rw [whole_other, List.length_cons, Nat.add_right_comm, Nat.add_assoc offset]
      | statement text first =>
        rcases List.mem_cons.mp member with rfl | member
        · exact ⟨[], text, first, rest, rfl, rfl⟩
        · obtain ⟨before, chars, line, after, rfl, rfl⟩ := ih (offset + text.length) member
          refine ⟨.statement text first :: before, chars, line, after, rfl, ?_⟩
          rw [whole_statement, List.length_append, Nat.add_assoc offset]
  · rintro ⟨before, chars, line, after, rfl, rfl⟩
    rw [placed_append, placed]
    exact List.mem_append_right _ List.mem_cons_self

/-- **What stands outside the import lines.** -/
theorem without_append (before : List Char) (stretches : List Stretch) :
    Imports.without (before ++ whole stretches) (placed before.length stretches) = before ++ others stretches := by
  induction stretches generalizing before with
  | nil => rfl
  | cons stretch rest ih =>
    cases stretch with
    | other c =>
      have inner := ih (before ++ [c])
      rw [List.length_append, List.length_singleton, List.append_assoc, List.append_assoc] at inner
      exact inner
    | statement chars line =>
      have inner := ih (before ++ chars)
      rw [List.length_append] at inner
      rw [whole_statement, placed, Imports.without, List.foldr_cons, ← Imports.without, ← List.append_assoc, inner]
      dsimp only
      rw [← List.length_append, List.drop_left, List.append_assoc, List.take_left, others_statement]

theorem without_whole (read : AreRead true stretches) :
    Imports.without (whole stretches) (readAll (whole stretches)) = others stretches := by
  rw [readAll_whole read]
  exact without_append [] stretches

end Stretch

end AnimationCode
