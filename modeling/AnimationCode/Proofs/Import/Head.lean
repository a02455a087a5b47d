/-
**Texts that begin with their import lines.**

Behind the import lines stands a text none of whose lines begins with the word. Then what is read from the whole text are
the import lines at its beginning, in their order.

* `Imports.IsQuiet`: a text without a line that begins with the word;
* `Imports.BeginsWith`: a text that begins with the lines of some imports, and has no others;
* `Imports.BeginsWith.sources`, `Imports.BeginsWith.texts`: what is read from it.
-/

import AnimationCode.Component.Basic
import AnimationCode.Proofs.Import.Document
import AnimationCode.Proofs.Render.Lines

namespace AnimationCode

/-- The line that an import is written on. -/
def ImportDeclaration.line (declaration : ImportDeclaration) : ImportLine :=
  ⟨0, 0, declaration.source, declaration.default?, declaration.names, declaration.typeOnly⟩

/-- An import as a statement. -/
def ImportDeclaration.statement (declaration : ImportDeclaration) : String := declaration.line.render

namespace ImportLine

variable {line : ImportLine} {start rest : List Char}

/-- A beginning of a line that tells that the line does not begin with the word. -/
def isFirm (start : List Char) : Bool :=
  !("import".toList.isPrefixOf (start.dropWhile isIndent)) && !((start.dropWhile isIndent).isPrefixOf "import".toList)

theorem isQuiet_of_isFirm (firm : isFirm start = true) (rest : List Char) : isQuiet (start ++ rest) = true := by
  unfold isFirm at firm
  simp only [Bool.and_eq_true, Bool.not_eq_true', ← Bool.not_eq_true, List.isPrefixOf_iff_prefix] at firm
  obtain ⟨longer, shorter⟩ := firm
  have some_ : (start.dropWhile isIndent).isEmpty = false := by
    rw [List.isEmpty_eq_false_iff]
    intro nothing
    exact shorter (nothing ▸ List.nil_prefix)
  unfold isQuiet
  rw [List.dropWhile_append, some_, if_neg Bool.false_ne_true]
  split
  · rename_i left stripped
    -- of two beginnings of one text, one begins the other
    rcases List.append_eq_append_iff.mp (Text.eq_append_of_stripStart? stripped) with ⟨last, split, -⟩ | ⟨last, split, -⟩
    · exact absurd ⟨last, split.symm⟩ shorter
    · exact absurd ⟨last, split.symm⟩ longer
  · rfl

theorem isQuiet_indented (count : Nat) (text : List Char) : isQuiet (List.replicate count ' ' ++ text) = isQuiet text := by
  unfold isQuiet
  rw [List.dropWhile_append_of_pos fun c member => by rw [List.eq_of_mem_replicate member]; rfl]

/-- A line as it is written has no blanks around it. -/
theorem trim_render (plain : line.IsPlain) : Text.trim line.render.toList = line.render.toList := by
  obtain ⟨inner, chars⟩ := exists_cons_render plain
  have first : ∀ c ∈ line.render.toList.head?, Text.isBlank c = false := by
    rw [chars]
    rintro c ⟨⟩
    rfl
  have last : ∀ c ∈ line.render.toList.getLast?, Text.isBlank c = false := by
    have ends_ : line.render.toList.getLast? = some ';' := by
      unfold render
      split <;>
      · rw [String.toList_append, List.getLast?_append]
        rfl
    rw [ends_]
    rintro c ⟨⟩
    rfl
  have kept : Text.trim (line.render.toList ++ []) = line.render.toList :=
    Text.trim_append first last (chars ▸ List.cons_ne_nil _ _) (List.forall_mem_nil _)
  rwa [List.append_nil] at kept

end ImportLine

namespace Imports

open ImportLine (isQuiet readAll)

/-- No line of a text begins with the word `import` on its own. -/
def IsQuiet (text : List Char) : Prop := ∀ line ∈ Text.lines text, isQuiet line = true

theorem isQuiet_of_line {line : List Char} (quiet : isQuiet line = true) (single : '\n' ∉ line) : IsQuiet line := by
  rw [IsQuiet, Text.lines, Text.splitAt_of_not_mem single]
  exact List.forall_mem_singleton.mpr quiet

theorem IsQuiet.append {first second : List Char} (quiet : IsQuiet first) (behind : IsQuiet second) :
    IsQuiet (first ++ '\n' :: second) := by
  rw [IsQuiet, Text.lines, Text.splitAt_append]
  exact List.forall_mem_append.mpr ⟨quiet, behind⟩

theorem isQuiet_nil : IsQuiet [] := List.forall_mem_singleton.mpr rfl

/-- Quiet lines, each behind a line break, and a last line break. -/
theorem isQuiet_behind {lines : List String} (quiet : ∀ line ∈ lines, IsQuiet line.toList) {last : List Char} (ends_ : IsQuiet last) :
    ∃ text, Layout.behind lines ++ '\n' :: last = '\n' :: text ∧ IsQuiet text := by
  induction lines with
  | nil => exact ⟨last, rfl, ends_⟩
  | cons line rest ih =>
    obtain ⟨here, later⟩ := List.forall_mem_cons.mp quiet
    obtain ⟨text, same, behind⟩ := ih later
    refine ⟨line.toList ++ '\n' :: text, ?_, here.append behind⟩
    rw [Layout.behind_cons, List.cons_append, List.append_assoc, same]

/-! ### Import lines before a quiet text -/

/-- The lines of a text that begins with import lines. -/
def headed (declarations : List ImportDeclaration) (tail : List Char) : List Piece :=
  declarations.map (fun declaration => .statement declaration.line) ++ (Text.lines tail).map .other

theorem behind_headed (declarations : List ImportDeclaration) (tail : List Char) :
    behind (headed declarations tail) = Layout.behind (declarations.map ImportDeclaration.statement) ++ '\n' :: tail := by
  induction declarations with
  | nil =>
    have whole : document ((Text.lines tail).map .other) = tail := by
      rw [document, List.map_map]
      exact (congrArg (List.intercalate ['\n']) (List.map_id _)).trans (Text.intercalate_splitAt '\n' tail)
    obtain ⟨piece, rest, pieces⟩ := List.exists_cons_of_ne_nil (Text.splitAt_ne_nil '\n' tail)
    rw [Text.lines, pieces] at whole
    rw [headed, Text.lines, pieces]
    exact congrArg ('\n' :: ·) whole
  | cons declaration rest ih =>
    rw [List.map_cons, Layout.behind_cons, List.cons_append, List.append_assoc, ← ih]
    exact congrArg ('\n' :: ·) (document_cons _ _)

theorem statements_headed (declarations : List ImportDeclaration) (tail : List Char) :
    statements (headed declarations tail) = declarations.map ImportDeclaration.line := by
  have others (lines : List (List Char)) : statements (lines.map .other) = [] := by
    induction lines with
    | nil => rfl
    | cons line rest ih => exact ih
  rw [headed, statements_append, others, List.append_nil, ← statements_map (declarations.map _), List.map_map]
  rfl

/-- A text that begins with the lines of some imports, and has no others. -/
structure BeginsWith (declarations : List ImportDeclaration) (code : List Char) : Prop where
  plain : ∀ declaration ∈ declarations, declaration.line.IsPlain
  code : ∃ tail, IsQuiet tail ∧ '\n' :: code = Layout.behind (declarations.map ImportDeclaration.statement) ++ '\n' :: tail

/-- Lines that begin with import lines, the others quiet. -/
theorem beginsWith_document {declarations : List ImportDeclaration} {rest : List String}
    (plain : ∀ declaration ∈ declarations, declaration.line.IsPlain) (quiet : ∀ line ∈ rest, IsQuiet line.toList)
    (some_ : rest ≠ []) :
    BeginsWith declarations (Layout.document (declarations.map ImportDeclaration.statement ++ rest)).toList := by
  obtain ⟨tail, same, isQuiet⟩ := isQuiet_behind quiet isQuiet_nil
  refine ⟨plain, tail, isQuiet, ?_⟩
  rw [Layout.toList_document (List.append_ne_nil_of_right_ne_nil _ some_), Layout.behind_append, List.append_assoc, same]

namespace BeginsWith

variable {declarations : List ImportDeclaration} {code : List Char}

theorem exists_document (begins : BeginsWith declarations code) :
    ∃ pieces, code = document pieces ∧ (∀ piece ∈ pieces, piece.IsWritten) ∧
      statements pieces = declarations.map ImportDeclaration.line := by
  obtain ⟨tail, quiet, same⟩ := begins.code
  refine ⟨headed declarations tail, ?_, ?_, ?_⟩
  · rw [← behind_headed] at same
    obtain ⟨piece, rest, pieces⟩ : ∃ piece rest, headed declarations tail = piece :: rest :=
      List.exists_cons_of_ne_nil (List.append_ne_nil_of_right_ne_nil _
        (by simpa [Text.lines] using Text.splitAt_ne_nil '\n' tail))
    rw [pieces] at same ⊢
    exact List.cons_injective same
  · refine List.forall_mem_append.mpr ⟨?_, ?_⟩
    · intro piece member
      obtain ⟨declaration, among, rfl⟩ := List.mem_map.mp member
      exact begins.plain declaration among
    · intro piece member
      obtain ⟨line, among, rfl⟩ := List.mem_map.mp member
      exact ⟨quiet line among, Text.not_mem_of_mem_splitAt line among⟩
  · exact statements_headed declarations tail

/-- The modules that the import lines name. -/
theorem sources (begins : BeginsWith declarations code) :
    (readAll code).map ImportLine.source = declarations.map ImportDeclaration.source := by
  obtain ⟨pieces, rfl, written, same⟩ := begins.exists_document
  rw [readAll_document written, map_placed (fun _ _ _ => rfl), same, List.map_map]
  rfl

/-- The import lines as they stand in the text. -/
theorem texts (begins : BeginsWith declarations code) :
    (readAll code).map (fun line => String.ofList (Text.trim (slice code line.start line.stop))) =
      declarations.map ImportDeclaration.statement := by
  obtain ⟨pieces, rfl, written, same⟩ := begins.exists_document
  have slices := map_slice_placed [] pieces
  rw [same, List.map_map] at slices
  rw [readAll_document written]
  refine Eq.trans ?_ (congrArg (List.map fun text => String.ofList (Text.trim text)) slices) |>.trans ?_
  · rw [List.map_map]
    rfl
  · rw [List.map_map]
    refine List.map_congr_left fun declaration member => ?_
    exact (congrArg String.ofList (ImportLine.trim_render (begins.plain declaration member))).trans String.ofList_toList

end BeginsWith

end Imports

end AnimationCode
