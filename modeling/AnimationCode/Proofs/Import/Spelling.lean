/-
**What is read is written so that it is read again.**

The names that are read from an import line have single spaces, if any, and stand between commas; its default has neither
braces nor commas in it, unless the line has more braces than an import statement may have. Such a line is written as
another one that says the same.

* `ImportLine.IsRegular`: a line that binds something, its parts written as they are read;
* `ImportLine.isRegular_of_spells`: a line that is read is one, unless braces or blanks are left in its default;
* `ImportLine.IsRegular.spells_render`: a regular line is written as a text that says the same.
-/

import AnimationCode.Proofs.Import.Reading

namespace AnimationCode

namespace Text

variable {cs : List Char} {c : Char}

/-- The characters of words are those of the text. -/
theorem mem_of_mem_wordsFrom {pending word : List Char} (member : word ∈ wordsFrom pending cs) (inside : c ∈ word) :
    c ∈ pending ∨ c ∈ cs := by
  induction cs generalizing pending with
  | nil =>
    rw [wordsFrom] at member
    split at member
    · cases member
    · exact .inl (List.mem_singleton.mp member ▸ inside)
  | cons d cs ih =>
    have later {pending : List Char} (member : word ∈ wordsFrom pending cs) (known : c ∈ pending → c ∈ d :: cs) : c ∈ d :: cs :=
      (ih member).elim known (List.mem_cons_of_mem d)
    rw [wordsFrom] at member
    split at member
    · split at member
      · exact .inr (later member fun none_ => by cases none_)
      · rcases List.mem_cons.mp member with rfl | member
        · exact .inl inside
        · exact .inr (later member fun none_ => by cases none_)
    · rcases ih member with known | known
      · rcases List.mem_append.mp known with known | same
        · exact .inl known
        · exact .inr (List.mem_singleton.mp same ▸ List.mem_cons_self)
      · exact .inr (List.mem_cons_of_mem d known)

theorem mem_of_mem_squeeze (member : c ∈ squeeze cs) : c = ' ' ∨ c ∈ cs := by
  rcases mem_of_mem_intercalate member with space | ⟨word, known, inside⟩
  · exact .inl (List.mem_singleton.mp space)
  · exact .inr ((mem_of_mem_wordsFrom known inside).resolve_left (List.not_mem_nil (a := c)))

theorem mem_intercalate_of_mem {between piece : List Char} {pieces : List (List Char)} (known : piece ∈ pieces)
    (inside : c ∈ piece) : c ∈ List.intercalate between pieces := by
  induction pieces with
  | nil => cases known
  | cons first rest ih =>
    cases rest with
    | nil => rwa [List.intercalate_singleton, ← List.mem_singleton.mp known]
    | cons next rest =>
      rw [List.intercalate_cons_cons]
      rcases List.mem_cons.mp known with rfl | later
      · exact List.mem_append_left _ (List.mem_append_left _ inside)
      · exact List.mem_append_right _ (ih later)

@[simp] theorem squeeze_squeeze (cs : List Char) : squeeze (squeeze cs) = squeeze cs := by
  rw [squeeze, words_squeeze, ← squeeze]

theorem not_isBlank_head?_squeeze (cs : List Char) : ∀ c ∈ (squeeze cs).head?, isBlank c = false := by
  intro c member
  have each : ∀ word ∈ words cs, IsWord word := isWord_of_mem_words
  rw [squeeze] at member
  cases pieces : words cs with
  | nil =>
    rw [pieces] at member
    cases member
  | cons word rest =>
    rw [pieces] at member each
    obtain ⟨some_, solid⟩ := each word List.mem_cons_self
    obtain ⟨d, word, rfl⟩ := List.exists_cons_of_ne_nil some_
    obtain rfl : d = c := by cases rest <;> simpa [List.intercalate_cons_cons] using member
    exact solid d List.mem_cons_self

theorem not_isBlank_getLast?_intercalate {pieces : List (List Char)} (each : ∀ word ∈ pieces, IsWord word) :
    ∀ c ∈ (List.intercalate [' '] pieces).getLast?, isBlank c = false := by
  induction pieces with
  | nil => exact fun c member => by cases member
  | cons word rest ih =>
    intro c member
    cases rest with
    | nil =>
      rw [List.intercalate_singleton] at member
      exact (each word List.mem_cons_self).2 c (List.mem_of_getLast? member)
    | cons next rest =>
      rw [List.intercalate_cons_cons, List.getLast?_append] at member
      have later := ih fun word known => each word (List.mem_cons_of_mem _ known)
      cases last : (List.intercalate [' '] (next :: rest)).getLast? with
      | some d =>
        rw [last] at member
        obtain rfl := Option.some.inj member
        exact later d last
      | none =>
        obtain ⟨d, inside⟩ := List.exists_mem_of_ne_nil _ (each next (by simp)).1
        have filled : d ∈ List.intercalate [' '] (next :: rest) := mem_intercalate_of_mem List.mem_cons_self inside
        rw [List.getLast?_eq_none_iff.mp last] at filled
        cases filled

theorem trim_subset (member : c ∈ trim cs) : c ∈ cs := by
  unfold trim trimRight trimLeft dropLastWhile at member
  have inner := (List.dropWhile_sublist isBlank).subset (List.mem_reverse.mp member)
  exact (List.dropWhile_sublist isBlank).subset (List.mem_reverse.mp inner)

theorem prefix_trimRight (cs : List Char) : trimRight cs <+: cs := by
  rw [trimRight, dropLastWhile, ← List.reverse_suffix, List.reverse_reverse]
  exact List.dropWhile_suffix isBlank

theorem not_isBlank_head?_trim (cs : List Char) : ∀ c ∈ (trim cs).head?, isBlank c = false := by
  intro c member
  obtain ⟨blanks, same⟩ := prefix_trimRight (trimLeft cs)
  refine endsRun_dropWhile isBlank cs c ?_
  change c ∈ (trimLeft cs).head?
  rw [← same, List.head?_append, ← trim, Option.mem_def.mp member]
  rfl

theorem not_isBlank_getLast?_trim (cs : List Char) : ∀ c ∈ (trim cs).getLast?, isBlank c = false := by
  intro c member
  rw [trim, trimRight, dropLastWhile, List.getLast?_reverse] at member
  exact endsRun_dropWhile isBlank _ c member

end Text

namespace ImportLine

open Text (isBlank stripStart? eq_append_of_stripStart?)

variable {line : ImportLine} {text head clause : List Char} {typeOnly : Bool}

/-! ### What is read -/

theorem exists_of_cut? {pending : List Char} (cut : cut? pending text = some clause) :
    ∃ first rest, text = first ++ rest ∧ clause = pending ++ first := by
  induction text generalizing pending with
  | nil => cases cut
  | cons c text ih =>
    rw [cut?] at cut
    split at cut
    · exact ⟨[], c :: text, rfl, by rw [← Option.some.inj cut, List.append_nil]⟩
    · obtain ⟨first, rest, rfl, rfl⟩ := ih cut
      exact ⟨c :: first, rest, rfl, by simp⟩

theorem suffix_of_mem_afterBlanks {blanks : Nat} {left : List Char} (member : left ∈ afterBlanks blanks text) : left <:+ text := by
  induction blanks with
  | zero => cases member
  | succ blanks ih =>
    rcases List.mem_cons.mp member with rfl | member
    · exact List.drop_suffix _ _
    · exact ih member

theorem infix_of_firstCut? {blanks : Nat} (cut : firstCut? blanks text = some clause) : clause <:+: text := by
  obtain ⟨left, member, found⟩ := List.exists_of_findSome?_eq_some cut
  obtain ⟨first, rest, rfl, rfl⟩ := exists_of_cut? found
  exact (List.prefix_append _ rest).isInfix.trans (suffix_of_mem_afterBlanks member).isInfix

/-- A clause stands before the quote. -/
theorem infix_of_clauseOf? (read : clauseOf? head = some (typeOnly, clause)) : clause <:+: head := by
  unfold clauseOf? at read
  split at read
  · rename_i found typed
    cases read
    obtain ⟨left, stripped, cut⟩ := Option.bind_eq_some_iff.mp typed
    have inner := infix_of_firstCut? cut
    have behind : left <:+ head.dropWhile isBlank := ⟨_, (eq_append_of_stripStart? stripped).symm⟩
    exact inner.trans (behind.trans (List.dropWhile_suffix isBlank)).isInfix
  · split at read
    · rename_i cut
      cases read
      exact infix_of_firstCut? cut
    · split at read
      · cases read
        exact List.nil_infix
      · cases read

theorem bracedNames_eq (clause : List Char) : bracedNames clause = ([], clause) ∨
    ∃ before inside after, clause = before ++ '\x7b' :: (inside ++ '\x7d' :: after) ∧ '\x7d' ∉ inside ∧
      bracedNames clause = ((Text.splitAt ',' inside).filterMap specifier?, before ++ after) := by
  obtain ⟨before, tail, rfl, outside, stops⟩ := Text.exists_run (· != '\x7b') clause
  cases tail with
  | nil => exact .inl (bracedNames_of_not_mem fun member => by
      rw [List.append_nil] at member
      simpa using outside _ member)
  | cons opening tail =>
    obtain rfl : opening = '\x7b' := by simpa using stops opening rfl
    have first : (before ++ '\x7b' :: tail).takeWhile (· != '\x7b') = before := Text.takeWhile_run outside stops
    obtain ⟨inside, last, rfl, within, ends⟩ := Text.exists_run (· != '\x7d') tail
    have second : (inside ++ last).takeWhile (· != '\x7d') = inside := Text.takeWhile_run within ends
    unfold bracedNames
    dsimp only
    rw [first, List.drop_left]
    dsimp only
    rw [second, List.drop_left]
    cases last with
    | nil => exact .inl rfl
    | cons closing after =>
      obtain rfl : closing = '\x7d' := by simpa using ends closing rfl
      exact .inr ⟨before, inside, after, rfl, fun member => by simpa using within _ member, rfl⟩

theorem isSpecifier_of_piece {piece : List Char} {spec : String} (parts : ∀ c ∈ piece, isClausePart c = true ∧ c ≠ ',' ∧ c ≠ '\x7d')
    (read : specifier? piece = some spec) : IsSpecifier spec.toList := by
  unfold specifier? at read
  split at read
  · cases read
  · rename_i filled
    obtain rfl := Option.some.inj read
    rw [String.toList_ofList]
    refine ⟨fun nothing => filled (Text.words_eq_nil_iff.mp ?_), Text.squeeze_squeeze piece, fun c member => ?_⟩
    · rw [← Text.words_squeeze, nothing]
      rfl
    · rcases Text.mem_of_mem_squeeze member with rfl | inside
      · decide
      · exact parts c inside

/-- The names between the braces of a clause are written as they are read. -/
theorem isSpecifier_of_mem_bracedNames (parts : IsHead clause) : ∀ spec ∈ (bracedNames clause).1, IsSpecifier spec.toList := by
  intro spec member
  rcases bracedNames_eq clause with same | ⟨before, inside, after, rfl, closed, same⟩
  · rw [same] at member
    cases member
  · rw [same] at member
    obtain ⟨piece, known, read⟩ := List.mem_filterMap.mp member
    refine isSpecifier_of_piece (fun c among => ?_) read
    have within : c ∈ inside := by
      rw [← Text.intercalate_splitAt ',' inside]
      exact Text.mem_intercalate_of_mem known among
    refine ⟨parts c (by simp [within]), fun same => ?_, fun same => closed (same ▸ within)⟩
    exact Text.not_mem_of_mem_splitAt piece known (same ▸ among)

theorem mem_replaceChar {c : Char} {blank : List Char} {text : List Char} {d : Char} (member : d ∈ Text.replaceChar c blank text)
    (absent : c ∉ blank) : d ≠ c ∧ (d ∈ blank ∨ d ∈ text) := by
  obtain ⟨e, known, among⟩ := List.mem_flatMap.mp member
  split at among
  · exact ⟨fun same => absent (same ▸ among), .inl among⟩
  · rename_i other
    obtain rfl := List.mem_singleton.mp among
    exact ⟨other, .inr known⟩

/-- The default of a clause is written as it is read, unless a brace is left in it. -/
theorem isDefault_of_defaultOf {name : String} (parts : IsHead clause) (read : defaultOf clause = some name)
    (unbraced : '\x7b' ∉ name.toList) : IsDefault name.toList := by
  unfold defaultOf at read
  dsimp only at read
  split at read
  · cases read
  · rename_i filled
    generalize whole : Text.trim (Text.replaceChar ',' [' '] clause) = trimmed at read filled
    have first := Text.not_isBlank_head?_trim (Text.replaceChar ',' [' '] clause)
    have last := Text.not_isBlank_getLast?_trim (Text.replaceChar ',' [' '] clause)
    have inside : ∀ c ∈ trimmed, isClausePart c = true ∧ c ≠ ',' := by
      intro c member
      obtain ⟨other, space | known⟩ := mem_replaceChar (Text.trim_subset (whole ▸ member)) (by decide)
      · exact ⟨List.mem_singleton.mp space ▸ by decide, other⟩
      · exact ⟨parts c known, other⟩
    rw [whole] at first last
    obtain rfl := Option.some.inj read
    rw [String.toList_ofList] at unbraced ⊢
    by_cases starred : trimmed.head? = some '*'
    · rw [if_pos starred] at unbraced ⊢
      refine ⟨fun nothing => ?_, Text.not_isBlank_head?_squeeze trimmed,
        Text.not_isBlank_getLast?_intercalate Text.isWord_of_mem_words, fun _ => Text.squeeze_squeeze trimmed, fun c member => ?_⟩
      · have blank : Text.isBlankText trimmed = true := Text.words_eq_nil_iff.mp (by rw [← Text.words_squeeze, nothing]; rfl)
        exact absurd (List.all_eq_true.mp blank '*' (List.mem_of_mem_head? starred)) (by decide)
      · have part : isClausePart c = true ∧ c ≠ ',' := by
          rcases Text.mem_of_mem_squeeze member with rfl | known
          · decide
          · exact inside c known
        exact ⟨part.1, part.2, fun same => unbraced (same ▸ member)⟩
    · rw [if_neg starred] at unbraced ⊢
      exact ⟨filled, first, last, fun other => absurd other starred, fun c member =>
        ⟨(inside c member).1, (inside c member).2, fun same => unbraced (same ▸ member)⟩⟩

/-! ### What is written -/

/-- A line whose default is a namespace, or a word in which no braces are left. -/
def IsSound (line : ImportLine) : Prop :=
  ∀ name ∈ line.default?, '\x7b' ∉ name.toList ∧ (name.toList.head? = some '*' ∨ ∀ c ∈ name.toList, isBlank c = false)

/-- Whether a line binds nothing. -/
def isBare (line : ImportLine) : Bool := line.named.isEmpty && line.default?.isNone

/-- A line that binds something, its parts written as they are read. -/
structure IsRegular (line : ImportLine) : Prop where
  source : IsModule line.source.toList
  default : ∀ name ∈ line.default?, IsDefault name.toList
  named : ∀ spec ∈ line.named, IsSpecifier spec.toList
  sound : line.IsSound
  filled : line.isBare = false

theorem IsRegular.binds (regular : line.IsRegular) : line.binds = true := by
  have filled := regular.filled
  unfold isBare at filled
  unfold ImportLine.binds
  cases default : line.default? with
  | none =>
    rw [default] at filled
    simpa using filled
  | some name =>
    have some_ : name ≠ "" := ne_empty (regular.default name default)
    simp [some_]

theorem IsQuoted.isModule {source quoted : List Char} (isQuoted : IsQuoted source quoted) : IsModule source := by
  obtain ⟨-, -, isModule, -, -⟩ := isQuoted
  exact isModule

/-- A sound line that is read is regular if it binds something. -/
theorem isRegular_of_spells (spells : Spells text line) (sound : line.IsSound) (filled : line.isBare = false) : line.IsRegular := by
  obtain ⟨indent, head, quoted, clause, -, -, isHead, -, isQuoted, cut, named, default⟩ := spells
  have parts : IsHead clause := fun c member => isHead c ((infix_of_clauseOf? cut).subset member)
  refine ⟨isQuoted.isModule, fun name member => ?_, fun spec member => ?_, sound, filled⟩
  · have others : IsHead (bracedNames clause).2 := by
      rcases bracedNames_eq clause with same | ⟨before, inside, after, rfl, -, same⟩
      · rw [same]
        exact parts
      · rw [same]
        intro c among
        rcases List.mem_append.mp among with among | among
        · exact parts c (by simp [among])
        · exact parts c (by simp [among])
    exact isDefault_of_defaultOf others (default.trans member) (sound name member).1
  · rw [← named] at member
    exact isSpecifier_of_mem_bracedNames parts spec member

/-- The same line as one of types, which any regular line may be. -/
theorem IsRegular.isPlain (regular : line.IsRegular) : { line with typeOnly := true }.IsPlain where
  source := regular.source
  default := regular.default
  named := regular.named
  typed _ := regular.binds
  untyped types := by cases types

theorem IsRegular.toList_clauseText_eq (regular : line.IsRegular) : line.clauseText.toList = line.clauseChars := by
  have typed := toList_clauseText regular.isPlain
  exact typed

theorem IsRegular.toList_render (regular : line.IsRegular) (rest : List Char) : line.render.toList ++ rest = "import".toList ++ ' ' ::
    ((if line.typeOnly then "type ".toList else []) ++ (line.clauseChars ++ behindClause line.source.toList rest)) := by
  have clause : line.clauseText.toList = line.clauseChars := regular.toList_clauseText_eq
  have signs : "import type ".toList = "import".toList ++ ' ' :: "type ".toList ∧ "import ".toList = "import".toList ++ [' '] ∧
      " from '".toList = [' ', 'f', 'r', 'o', 'm', ' ', '\''] ∧ "';".toList = ['\'', ';'] := ⟨rfl, rfl, rfl, rfl⟩
  unfold render behindClause
  rw [regular.binds, if_pos rfl]
  cases line.typeOnly <;>
    simp only [if_true, if_false, Bool.false_eq_true, String.toList_append, clause, signs.1, signs.2.1, signs.2.2.1, signs.2.2.2,
      List.append_assoc, List.cons_append, List.nil_append]

/-- The word of types is a default like any other. -/
theorem clauseOf?_type : clauseOf? " type from ".toList = some (false, "type".toList) := by decide

theorem readBody?_type {source rest : List Char} (isModule : IsModule source) (ends : EndsLine rest) :
    readBody? (' ' :: ("type".toList ++ behindClause source rest)) = some (false, "type".toList, source, rest) := by
  have quoted : IsQuoted source ('\'' :: (source ++ '\'' :: ([';'] ++ []))) :=
    .mk (by decide) (by decide) isModule (.inr rfl) (List.forall_mem_nil _)
  have isHead : IsHead " type from ".toList := fun c member => by revert c; decide
  have split := readBody?_split isHead (quoted.endsHead rest)
  have sourced := readSource?_eq_some_iff.mpr ⟨_, quoted, rfl, ends⟩
  rw [sourced, if_pos (by decide), Option.bind_some] at split
  dsimp only at split
  rw [clauseOf?_type] at split
  have same : " type from ".toList ++ ('\'' :: (source ++ '\'' :: ([';'] ++ [])) ++ rest) =
      ' ' :: ("type".toList ++ behindClause source rest) := by
    simp [behindClause]
  rw [same] at split
  exact split

/-- What follows the word `import` in a regular line. -/
theorem IsRegular.readBody? (regular : line.IsRegular) {rest : List Char} (ends : EndsLine rest) :
    readBody? (' ' :: ((if line.typeOnly then "type ".toList else []) ++ (line.clauseChars ++ behindClause line.source.toList rest))) =
      some (line.typeOnly, line.clauseChars, line.source.toList, rest) := by
  obtain ⟨closes, first⟩ := closes_clauseChars regular.isPlain regular.binds
  by_cases alone : line.typeOnly = false ∧ line.clauseChars = "type".toList
  · rw [alone.1, alone.2]
    exact readBody?_type regular.source ends
  · refine readBody?_clause closes first regular.source ends fun types more same => ?_
    cases more with
    | nil => exact absurd ⟨types, by simpa using same⟩ alone
    | cons c more =>
      refine ⟨c, rfl, ?_⟩
      unfold clauseChars at same
      cases default : line.default? with
      | none =>
        rw [default] at same
        dsimp only at same
        split at same <;> cases same
      | some name =>
        -- the default is no namespace, so that it goes on after the word without a blank
        have solid : ∀ more, name.toList = "type".toList ++ more → ∀ c ∈ more, isBlank c = false := by
          intro more whole c member
          rcases (regular.sound name default).2 with starred | solid
          · rw [whole] at starred
            cases starred
          · exact solid c (whole ▸ List.mem_append_right _ member)
        rw [default] at same
        dsimp only at same
        split at same
        · exact solid _ same c List.mem_cons_self
        · rcases List.append_eq_append_iff.mp same with ⟨last, split, beyond⟩ | ⟨last, split, beyond⟩
          · cases last with
            | nil =>
              obtain rfl : ',' = c := (List.cons.inj beyond).1
              decide
            | cons d last =>
              obtain rfl : ',' = d := (List.cons.inj beyond).1
              exact absurd (split ▸ List.mem_append_right _ List.mem_cons_self) (by decide : ',' ∉ "type".toList)
          · cases last with
            | nil =>
              obtain rfl : c = ',' := (List.cons.inj beyond).1
              decide
            | cons d last =>
              obtain rfl : c = d := (List.cons.inj beyond).1
              exact solid _ split c List.mem_cons_self

/-- **A regular line is written as a text that says the same**, behind any indentation. -/
theorem IsRegular.spells_render (regular : line.IsRegular) {indent : List Char} (blank : ∀ c ∈ indent, isIndent c = true) :
    Spells (indent ++ line.render.toList) line := by
  have ends : EndsLine [] := .inl rfl
  have read := regular.readBody? ends
  have chars := regular.toList_render []
  rw [List.append_nil] at chars
  have stripped : stripStart? "import".toList ((indent ++ line.render.toList).dropWhile isIndent) = some (' ' ::
      ((if line.typeOnly then "type ".toList else []) ++ (line.clauseChars ++ behindClause line.source.toList []))) := by
    rw [chars, Text.dropWhile_run blank fun c member => by obtain rfl := Option.some.inj member; decide, Text.stripStart?_append]
  obtain ⟨others, names, default⟩ := read_clauseChars regular.isPlain
  have whole : readAt? 0 (indent ++ line.render.toList) =
      some (⟨0, (indent ++ line.render.toList).length, line.source, line.default?, line.named, line.typeOnly⟩, []) := by
    unfold readAt?
    rw [stripped]
    dsimp only
    rw [read, Option.map_some]
    dsimp only
    rw [show bracedNames line.clauseChars = (line.named, others) from names, String.ofList_toList, List.length_nil]
    dsimp only
    rw [show defaultOf others = line.default? from default]
    simp
  obtain ⟨text, same, -, spells, -⟩ := readAt?_eq_some_iff.mp whole
  rw [List.append_nil] at same
  exact same ▸ spells

end ImportLine

end AnimationCode
