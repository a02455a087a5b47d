/-
**Texts whose import lines stand on lines of their own.**

Where every line is an import line as it is written, or does not begin with the word, the import lines of the text are
these lines and no others.

* `Imports.Piece`: a line of such a text;
* `Imports.placed`: its import lines at their places;
* `Imports.readAll_document`: they are what is read;
* `Imports.map_slice_placed`: at their places they stand as they are written.
-/

import AnimationCode.Import.Edit
import AnimationCode.Proofs.Import.Line

namespace AnimationCode

namespace Imports

open ImportLine (EndsLine readAll readAt? readFrom isQuiet)

/-- A line of a text: an import line, or another one. -/
inductive Piece where
  | statement (line : ImportLine)
  | other (text : List Char)

namespace Piece

/-- The characters of a line. -/
def text : Piece → List Char
  | .statement line => line.render.toList
  | .other text => text

/-- An import line as it is written, or a line that does not begin with the word. -/
def IsWritten : Piece → Prop
  | .statement line => line.IsPlain
  | .other text => isQuiet text = true ∧ '\n' ∉ text

end Piece

/-- Lines as a text. -/
def document (pieces : List Piece) : List Char := List.intercalate ['\n'] (pieces.map Piece.text)

/-- The import lines among some lines. -/
def statements (pieces : List Piece) : List ImportLine :=
  pieces.filterMap fun piece => match piece with
    | .statement line => some line
    | .other _ => none

/-- The import lines of a text at their places, from an offset on. -/
def placed : Nat → List Piece → List ImportLine
  | _, [] => []
  | offset, .statement line :: rest =>
    { line with start := offset, stop := offset + line.render.toList.length } ::
      placed (offset + line.render.toList.length + 1) rest
  | offset, .other text :: rest => placed (offset + text.length + 1) rest

variable {pieces : List Piece} {line : ImportLine}

@[simp] theorem statements_nil : statements [] = [] := rfl

@[simp] theorem statements_statement (line : ImportLine) (rest : List Piece) :
    statements (.statement line :: rest) = line :: statements rest := rfl

@[simp] theorem statements_other (text : List Char) (rest : List Piece) : statements (.other text :: rest) = statements rest := rfl

@[simp] theorem statements_append (first second : List Piece) : statements (first ++ second) = statements first ++ statements second :=
  List.filterMap_append

theorem statements_map (lines : List ImportLine) : statements (lines.map .statement) = lines :=
  List.filterMap_map.trans List.filterMap_some

/-- What does not depend on places is the same at all places. -/
theorem map_placed {α : Type} {view : ImportLine → α}
    (still : ∀ line start stop, view { line with start := start, stop := stop } = view line) (offset : Nat) (pieces : List Piece) :
    (placed offset pieces).map view = (statements pieces).map view := by
  induction pieces generalizing offset with
  | nil => rfl
  | cons piece rest ih =>
    cases piece with
    | statement line => exact congrArg₂ List.cons (still line _ _) (ih _)
    | other text => exact ih _

/-- What follows a line: nothing, or a line feed and the other lines. -/
def behind : List Piece → List Char
  | [] => []
  | piece :: rest => '\n' :: document (piece :: rest)

theorem document_cons (piece : Piece) (rest : List Piece) : document (piece :: rest) = piece.text ++ behind rest := by
  cases rest with
  | nil => exact (List.intercalate_singleton ..).trans (List.append_nil _).symm
  | cons next rest =>
    simp only [document, List.map_cons, List.intercalate_cons_cons, List.append_assoc]
    rfl

/-- At its place stands what an import line is written as. -/
theorem map_slice_placed (before : List Char) (pieces : List Piece) :
    (placed before.length pieces).map (fun line => slice (before ++ document pieces) line.start line.stop) =
      (statements pieces).map fun line => line.render.toList := by
  induction pieces generalizing before with
  | nil => rfl
  | cons piece rest ih =>
    have onward : (placed (before.length + piece.text.length + 1) rest).map
        (fun line => slice (before ++ document (piece :: rest)) line.start line.stop) =
          (statements rest).map fun line => line.render.toList := by
      cases rest with
      | nil => rfl
      | cons next rest =>
        have whole : before ++ document (piece :: next :: rest) = before ++ piece.text ++ ['\n'] ++ document (next :: rest) := by
          rw [document_cons, behind]
          simp
        have length : before.length + piece.text.length + 1 = (before ++ piece.text ++ ['\n']).length := by
          simp [Nat.add_assoc]
        rw [whole, length]
        exact ih _
    cases piece with
    | other text => exact onward
    | statement line =>
      refine congrArg₂ List.cons ?_ onward
      dsimp only [slice]
      rw [document_cons, ← List.append_assoc, ← List.length_append, Piece.text, List.take_left, List.drop_left]

theorem endsLine_behind (pieces : List Piece) : EndsLine (behind pieces) := by
  cases pieces with
  | nil => exact .inl rfl
  | cons => exact .inr rfl

/-- Within a line nothing is read. -/
theorem readFrom_append {text : List Char} (within : '\n' ∉ text) (steps offset : Nat) (after : List Char) :
    readFrom false (text.length + steps) offset (text ++ after) = readFrom false steps (offset + text.length) after := by
  induction text generalizing offset with
  | nil => rw [List.length_nil, Nat.zero_add]; rfl
  | cons c text ih =>
    have other := List.ne_of_not_mem_cons within
    have later := List.not_mem_of_not_mem_cons within
    have next : (c == '\n') = false := beq_false_of_ne (Ne.symm other)
    rw [List.cons_append, List.length_cons, Nat.add_right_comm, readFrom, if_neg Bool.false_ne_true, next]
    dsimp only
    rw [ih later, Nat.add_right_comm, Nat.add_assoc]

/-- The import lines of a text of lines, read from the beginning of a line. -/
theorem readFrom_document {pieces : List Piece} (written : ∀ piece ∈ pieces, piece.IsWritten) (extra offset : Nat) :
    readFrom true ((document pieces).length + extra) offset (document pieces) = placed offset pieces := by
  induction pieces generalizing extra offset with
  | nil =>
    cases extra <;> rfl
  | cons piece rest ih =>
    obtain ⟨here, later⟩ := List.forall_mem_cons.mp written
    have onward (extra offset : Nat) : readFrom false ((behind rest).length + extra) offset (behind rest) = placed (offset + 1) rest := by
      cases rest with
      | nil => cases extra <;> rfl
      | cons next rest =>
        rw [behind, List.length_cons, Nat.add_right_comm, readFrom]
        exact ih later extra (offset + 1)
    rw [document_cons, List.length_append]
    cases piece with
    | statement line =>
      have read := ImportLine.readAt?_render here (endsLine_behind rest) offset
      obtain ⟨tail, chars⟩ := ImportLine.exists_cons_render here
      have steps : line.render.toList.length + (behind rest).length + extra =
          (behind rest).length + (tail.length + extra) + 1 := by
        rw [chars, List.length_cons]
        omega
      rw [Piece.text, steps, placed]
      rw [chars, List.cons_append] at read ⊢
      rw [readFrom, if_pos rfl, read]
      dsimp only
      rw [onward]
    | other text =>
      obtain ⟨quiet, within⟩ := here
      have none_ := ImportLine.readAt?_of_quiet quiet (endsLine_behind rest) offset
      rw [Piece.text, Nat.add_assoc, placed]
      have started : readFrom true (text.length + ((behind rest).length + extra)) offset (text ++ behind rest) =
          readFrom false (text.length + ((behind rest).length + extra)) offset (text ++ behind rest) := by
        generalize text.length + ((behind rest).length + extra) = steps
        cases steps with
        | zero => rfl
        | succ steps =>
          generalize text ++ behind rest = whole at none_
          cases whole with
          | nil => rfl
          | cons c whole => rw [readFrom, readFrom, if_pos rfl, none_, if_neg Bool.false_ne_true]
      rw [started, readFrom_append within, onward]

/-- **The import lines of a text of lines are those that stand there.** -/
theorem readAll_document {pieces : List Piece} (written : ∀ piece ∈ pieces, piece.IsWritten) :
    readAll (document pieces) = placed 0 pieces :=
  readFrom_document written 0 0

end Imports

end AnimationCode
