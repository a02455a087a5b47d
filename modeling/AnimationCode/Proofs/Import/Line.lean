/-
**An import line is read as it is written.**

The source of an import stands between quotes, and nothing of what is imported is a quote. So the word before the first
quote is the one that the source follows, whatever names are imported, and what stands before that word is the clause.

* `ImportLine.IsPlain`: lines that import a default or a namespace, or names, each perhaps under another name;
* `ImportLine.readClause?_append`: the clause ends where the source is named;
* `ImportLine.readAt?_render`: a plain line is read back;
* `ImportLine.readAt?_of_quiet`: a line that does not begin with the word is none.
-/

import AnimationCode.Import.Line
import AnimationCode.Proofs.Template.Tag
import AnimationCode.Proofs.Text.Split
import Mathlib.Data.List.TakeWhile

namespace AnimationCode

namespace ImportLine

open Text (isBlank isWord stripStart? eq_append_of_stripStart?)

variable {clause more source rest : List Char}

/-! ### The source -/

/-- The end of a line or of the text. -/
def EndsLine (rest : List Char) : Prop := rest.head? = none ∨ rest.head? = some '\n'

/-- A source as it may stand between quotes. -/
def IsModule (source : List Char) : Prop := source ≠ [] ∧ ∀ c ∈ source, isQuote c = false

/-- A source behind its word, and what follows it. -/
def behindClause (source rest : List Char) : List Char :=
  ' ' :: 'f' :: 'r' :: 'o' :: 'm' :: ' ' :: '\'' :: (source ++ '\'' :: ';' :: rest)

theorem dropWhile_of_endsLine (ends : EndsLine rest) : rest.dropWhile isIndent = rest := by
  cases rest with
  | nil => rfl
  | cons c rest =>
    obtain rfl : c = '\n' := by simpa [EndsLine] using ends
    rfl

theorem readSource?_quoted (isModule : IsModule source) (ends : EndsLine rest) :
    readSource? ('\'' :: (source ++ '\'' :: ';' :: rest)) = some (source, rest) := by
  have inside : (source ++ '\'' :: ';' :: rest).takeWhile (fun c => !isQuote c) = source := by
    rw [List.takeWhile_append_of_pos fun c member => by rw [isModule.2 c member]; rfl]
    exact List.append_nil source
  have some_ : (source != []) = true := by simpa using isModule.1
  unfold readSource?
  dsimp only
  rw [inside, List.drop_left]
  change (if (isQuote '\'' && source != [] && ((rest.dropWhile isIndent).head? == none ||
    (rest.dropWhile isIndent).head? == some '\n')) = true then some (source, rest.dropWhile isIndent) else none) = _
  rw [dropWhile_of_endsLine ends, some_]
  rcases ends with ends | ends <;> (rw [ends]; rfl)

theorem readSource?_cons {c : Char} (plain : isQuote c = false) (cs : List Char) : readSource? (c :: cs) = none := by
  unfold readSource?
  dsimp only
  split
  · rw [plain]
    rfl
  · rfl

theorem readFrom?_behindClause (isModule : IsModule source) (ends : EndsLine rest) :
    readFrom? (behindClause source rest) = some (source, rest) :=
  readSource?_quoted isModule ends

/-! ### The clause -/

/-- What may stand in a clause, and is not followed by a blank there. -/
structure Closes (more : List Char) : Prop where
  nonempty : more ≠ []
  parts : ∀ c ∈ more, isClausePart c = true
  last : ∀ c ∈ more.getLast?, isBlank c = false

theorem Closes.tail {c d : Char} (closes : Closes (c :: d :: more)) : Closes (d :: more) :=
  ⟨List.cons_ne_nil _ _, fun e member => closes.parts e (List.mem_cons_of_mem _ member), fun e member =>
    closes.last e (by rwa [List.getLast?_cons_cons])⟩

theorem Closes.of_append {first : List Char} (closes : Closes (first ++ more)) (some_ : more ≠ []) : Closes more := by
  refine ⟨some_, fun c member => closes.parts c (List.mem_append_right _ member), fun c member => closes.last c ?_⟩
  rw [List.getLast?_append_of_ne_nil _ some_]
  exact member

theorem isQuote_of_isClausePart {c : Char} (part : isClausePart c = true) : isQuote c = false := by
  cases quote : isQuote c with
  | false => rfl
  | true =>
    have signs : c = '\'' ∨ c = '"' := by simpa [isQuote] using quote
    rcases signs with rfl | rfl <;> revert part <;> decide

/-- What is left of the end of a clause without the blanks before it. -/
theorem Closes.dropWhile (closes : Closes more) (text : List Char) :
    ∃ c rest, (more ++ text).dropWhile isBlank = c :: (rest ++ text) ∧ isBlank c = false ∧ Closes (c :: rest) := by
  induction more with
  | nil => exact absurd rfl closes.nonempty
  | cons c more ih =>
    cases blank : isBlank c with
    | false => exact ⟨c, more, by rw [List.cons_append, List.dropWhile_cons_of_neg (by simp [blank])], blank, closes⟩
    | true =>
      cases more with
      | nil =>
        have solid := closes.last c rfl
        rw [blank] at solid
        cases solid
      | cons d more =>
        rw [List.cons_append, List.dropWhile_cons_of_pos blank]
        exact ih closes.tail

/-- A word that the end of a clause begins with, unless it goes on with the word of the source. -/
theorem eq_append_of_stripStart?_clause {word : List Char} (solid : ' ' ∉ word) {left : List Char}
    (stripped : stripStart? word (more ++ behindClause source rest) = some left) :
    ∃ last, more = word ++ last ∧ left = last ++ behindClause source rest := by
  have same := eq_append_of_stripStart? stripped
  rcases List.append_eq_append_iff.mp same with ⟨last, split, beyond⟩ | ⟨last, split, beyond⟩
  · cases last with
    | nil => exact ⟨[], by simpa using split.symm, by simpa using beyond.symm⟩
    | cons c last =>
      obtain rfl : ' ' = c := (List.cons.inj beyond).1
      exact absurd (split ▸ List.mem_append_right _ List.mem_cons_self) solid
  · exact ⟨last, split, beyond⟩

/-- No source follows before the end of a clause. -/
theorem readFrom?_clause (closes : Closes more) : readFrom? (more ++ behindClause source rest) = none := by
  unfold readFrom?
  split
  · obtain ⟨c, inner, dropped, -, inside⟩ := closes.dropWhile (behindClause source rest)
    rw [dropped, ← List.cons_append]
    cases stripped : stripStart? "from".toList (c :: inner ++ behindClause source rest) with
    | none => rfl
    | some left =>
      obtain ⟨last, split, rfl⟩ := eq_append_of_stripStart?_clause (by decide) stripped
      dsimp only
      split
      · cases last with
        | nil => exact readSource?_cons (by decide) _
        | cons d last =>
          rw [split] at inside
          obtain ⟨e, others, dropped, -, within⟩ := (inside.of_append (List.cons_ne_nil _ _)).dropWhile (behindClause source rest)
          rw [dropped]
          exact readSource?_cons (isQuote_of_isClausePart (within.parts e List.mem_cons_self)) _
      · rfl
  · rfl

/-- **A clause ends where the source is named.** -/
theorem readClause?_append (closes : Closes more) (isModule : IsModule source) (ends : EndsLine rest) (pending : List Char) :
    readClause? pending (more ++ behindClause source rest) = some (pending ++ more, source, rest) := by
  induction more generalizing pending with
  | nil => exact absurd rfl closes.nonempty
  | cons c more ih =>
    have early : (if pending = [] then none else readFrom? (c :: (more ++ behindClause source rest))) = none := by
      split
      · rfl
      · exact readFrom?_clause closes
    rw [List.cons_append, readClause?, early]
    dsimp only
    rw [if_pos (closes.parts c List.mem_cons_self)]
    cases more with
    | nil =>
      have some_ : pending ++ [c] ≠ [] := List.append_ne_nil_of_right_ne_nil _ (List.cons_ne_nil _ _)
      have found := readFrom?_behindClause isModule ends
      rw [behindClause] at found
      rw [List.nil_append, behindClause, readClause?, if_neg some_, found]
    | cons d more =>
      rw [ih closes.tail, List.append_assoc]
      rfl

/-! ### Names -/

/-- The text between the commas of braces: its words with single spaces between them. -/
structure IsSpecifier (spec : List Char) : Prop where
  nonempty : spec ≠ []
  squeezed : Text.squeeze spec = spec
  parts : ∀ c ∈ spec, isClausePart c = true ∧ c ≠ ',' ∧ c ≠ '\x7d'

/-- The text of a default or of a namespace. -/
structure IsDefault (name : List Char) : Prop where
  nonempty : name ≠ []
  first : ∀ c ∈ name.head?, isBlank c = false
  last : ∀ c ∈ name.getLast?, isBlank c = false
  squeezed : name.head? = some '*' → Text.squeeze name = name
  parts : ∀ c ∈ name, isClausePart c = true ∧ c ≠ ',' ∧ c ≠ '\x7b'

/-- Names between braces. -/
def braces (names : List (List Char)) : List Char :=
  '\x7b' :: ' ' :: (List.intercalate [',', ' '] names ++ [' ', '\x7d'])

/-- The specifier of a piece between commas, if it is not blank. -/
def specifier? (piece : List Char) : Option String :=
  if Text.isBlankText piece then none else some (String.ofList (Text.squeeze piece))

theorem specifier?_of_words {spec piece : List Char} (isSpecifier : IsSpecifier spec) (same : Text.words piece = Text.words spec) :
    specifier? piece = some (String.ofList spec) := by
  have squeezed : Text.squeeze piece = spec := by rw [Text.squeeze, same, ← Text.squeeze, isSpecifier.squeezed]
  have some_ : Text.words piece ≠ [] := by
    intro nothing
    rw [Text.squeeze, nothing] at squeezed
    exact isSpecifier.nonempty squeezed.symm
  have filled : ¬ Text.isBlankText piece = true := fun blank => some_ (Text.words_eq_nil_iff.mpr blank)
  rw [specifier?, if_neg filled, squeezed]

/-- The names between commas are read. -/
theorem filterMap_splitAt {names : List (List Char)} (each : ∀ spec ∈ names, IsSpecifier spec) (some_ : names ≠ []) :
    (Text.splitAt ',' (' ' :: (List.intercalate [',', ' '] names ++ [' ']))).filterMap specifier? = names.map String.ofList := by
  have space : isBlank ' ' = true := by decide
  induction names with
  | nil => exact absurd rfl some_
  | cons spec rest ih =>
    have here := each spec List.mem_cons_self
    have absent : ',' ∉ spec := fun member => (here.parts ',' member).2.1 rfl
    cases rest with
    | nil =>
      have alone : ',' ∉ ' ' :: (spec ++ [' ']) := by simp [absent]
      rw [List.intercalate_singleton, Text.splitAt_of_not_mem alone, List.filterMap_cons, List.filterMap_nil,
        specifier?_of_words here (by rw [Text.words_cons space, Text.words_append_of_blank (by simp [space])])]
      rfl
    | cons next rest =>
      have first : ',' ∉ ' ' :: spec := by simp [absent]
      have whole : ' ' :: (List.intercalate [',', ' '] (spec :: next :: rest) ++ [' ']) =
          (' ' :: spec) ++ ',' :: (' ' :: (List.intercalate [',', ' '] (next :: rest) ++ [' '])) := by
        simp [List.intercalate_cons_cons]
      rw [whole, Text.splitAt_append, Text.splitAt_of_not_mem first, List.singleton_append, List.filterMap_cons, specifier?_of_words here (Text.words_cons space _),
        ih (fun other member => each other (List.mem_cons_of_mem _ member)) (List.cons_ne_nil _ _)]
      rfl

/-- The names between braces are read, and what stands before the braces. -/
theorem bracedNames_append {names : List (List Char)} {before : List Char} (each : ∀ spec ∈ names, IsSpecifier spec)
    (some_ : names ≠ []) (plain : '\x7b' ∉ before) :
    bracedNames (before ++ braces names) = (names.map String.ofList, before) := by
  have opens : (before ++ braces names).takeWhile (· != '\x7b') = before := by
    rw [List.takeWhile_append_of_pos fun c member => by simpa using fun same : c = '\x7b' => plain (same ▸ member)]
    exact List.append_nil before
  have joined : ∀ c ∈ List.intercalate [',', ' '] names, c ≠ '\x7d' := by
    intro c member
    rcases Text.mem_of_mem_intercalate member with separates | ⟨spec, among, inside⟩
    · exact (by decide : ∀ c ∈ [',', ' '], c ≠ '\x7d') c separates
    · exact ((each spec among).parts c inside).2.2
  have closes : ((' ' :: (List.intercalate [',', ' '] names ++ [' '])) ++ ['\x7d']).takeWhile (· != '\x7d') =
      ' ' :: (List.intercalate [',', ' '] names ++ [' ']) := by
    rw [List.takeWhile_append_of_pos]
    · exact List.append_nil _
    · simpa [or_imp, forall_and] using joined
  have whole : braces names = '\x7b' :: ((' ' :: (List.intercalate [',', ' '] names ++ [' '])) ++ ['\x7d']) := by
    simp [braces]
  unfold bracedNames
  dsimp only
  rw [opens, List.drop_left, whole]
  dsimp only
  rw [closes, List.drop_left]
  dsimp only
  rw [List.append_nil]
  exact Prod.ext (filterMap_splitAt each some_) rfl

/-- The default of a clause without its braces. -/
theorem defaultOf_append {name blanks : List Char} (isDefault : IsDefault name) (blank : ∀ c ∈ blanks, c = ',' ∨ c = ' ') :
    defaultOf (name ++ blanks) = some (String.ofList name) := by
  have spaced : Text.replaceChar ',' [' '] (name ++ blanks) = name ++ blanks.map fun _ => ' ' := by
    have kept : name.flatMap (fun c => if c = ',' then [' '] else [c]) = name.flatMap fun c => [c] := by
      rw [List.flatMap_def, List.flatMap_def]
      refine congrArg List.flatten (List.map_congr_left fun c member => ?_)
      rw [if_neg (isDefault.parts c member).2.1]
    have gone : blanks.flatMap (fun c => if c = ',' then [' '] else [c]) = blanks.map fun _ => ' ' := by
      rw [List.map_eq_flatMap, List.flatMap_def, List.flatMap_def]
      refine congrArg List.flatten (List.map_congr_left fun c member => ?_)
      rcases blank c member with rfl | rfl <;> rfl
    rw [Text.replaceChar, List.flatMap_append, kept, gone, List.flatMap_singleton']
  have trimmed : Text.trim (name ++ blanks.map fun _ => ' ') = name :=
    Text.trim_append isDefault.first isDefault.last isDefault.nonempty fun c member => by
      obtain ⟨-, -, rfl⟩ := List.mem_map.mp member
      decide
  unfold defaultOf
  dsimp only
  rw [spaced, trimmed, if_neg isDefault.nonempty]
  split
  · rw [isDefault.squeezed ‹_›]
  · rfl

/-! ### Lines -/

/-- An import line whose parts are written as they are read. -/
structure IsPlain (line : ImportLine) : Prop where
  source : IsModule line.source.toList
  default : ∀ name ∈ line.default?, IsDefault name.toList
  named : ∀ spec ∈ line.named, IsSpecifier spec.toList
  typed : line.typeOnly = true → line.binds = true
  untyped : line.typeOnly = false → ∀ name ∈ line.default?, ∀ more, name.toList = "type".toList ++ more →
    ∃ c ∈ more.head?, isBlank c = false

/-- What is written between `import` and `from`. -/
def clauseChars (line : ImportLine) : List Char :=
  match line.default? with
  | some name => if line.named = [] then name.toList else name.toList ++ (',' :: ' ' :: braces (line.named.map String.toList))
  | none => if line.named = [] then [] else braces (line.named.map String.toList)

theorem toList_braced (names : List String) :
    ("\x7b " ++ ", ".intercalate names ++ " \x7d").toList = braces (names.map String.toList) := by
  have signs : "\x7b ".toList = ['\x7b', ' '] ∧ ", ".toList = [',', ' '] ∧ " \x7d".toList = [' ', '\x7d'] := ⟨rfl, rfl, rfl⟩
  rw [String.toList_append, String.toList_append, String.toList_intercalate, signs.1, signs.2.1, signs.2.2]
  rfl

variable {line : ImportLine}

theorem ne_empty {name : String} (isDefault : IsDefault name.toList) : name ≠ "" := by
  rintro rfl
  exact isDefault.nonempty rfl

theorem toList_clauseText (plain : line.IsPlain) : line.clauseText.toList = line.clauseChars := by
  unfold clauseText clauseChars
  have comma : ", ".toList = [',', ' '] := rfl
  cases named : line.named with
  | nil =>
    cases default : line.default? with
    | none => rfl
    | some name =>
      simp [ne_empty (plain.default name default)]
  | cons spec rest =>
    cases default : line.default? with
    | none =>
      simp only [List.isEmpty_cons, Bool.false_eq_true, if_false, String.intercalate_singleton, toList_braced]
      rfl
    | some name =>
      simp only [List.isEmpty_cons, Bool.false_eq_true, if_false, ne_empty (plain.default name default),
        String.intercalate_cons_cons, String.intercalate_singleton, String.toList_append, comma]
      simp [braces]

theorem closes_braces (names : List (List Char)) (each : ∀ spec ∈ names, IsSpecifier spec) : Closes (braces names) where
  nonempty := List.cons_ne_nil _ _
  parts c member := by
    have signs : ∀ d ∈ ['\x7b', ' ', ',', '\x7d'], isClausePart d = true := by decide
    have inside : c = '\x7b' ∨ c = ' ' ∨ c ∈ List.intercalate [',', ' '] names ∨ c = '\x7d' := by
      simp only [braces, List.mem_cons, List.mem_append, List.not_mem_nil, or_false] at member
      tauto
    rcases inside with rfl | rfl | among | rfl
    · decide
    · decide
    · rcases Text.mem_of_mem_intercalate among with separates | ⟨spec, known, inside⟩
      · exact signs c (by simp only [List.mem_cons, List.not_mem_nil, or_false] at separates ⊢; tauto)
      · exact ((each spec known).parts c inside).1
    · decide
  last c member := by
    have whole : braces names = ('\x7b' :: ' ' :: (List.intercalate [',', ' '] names ++ [' '])) ++ ['\x7d'] := by simp [braces]
    rw [whole, List.getLast?_concat] at member
    obtain rfl := Option.some.inj member
    decide

theorem IsDefault.closes {name : List Char} (isDefault : IsDefault name) : Closes name :=
  ⟨isDefault.nonempty, fun c member => (isDefault.parts c member).1, isDefault.last⟩

theorem IsPlain.specifiers (plain : line.IsPlain) : ∀ spec ∈ line.named.map String.toList, IsSpecifier spec := by
  intro spec member
  obtain ⟨name, known, rfl⟩ := List.mem_map.mp member
  exact plain.named name known

theorem eq_none_of_not_binds (plain : line.IsPlain) (bare : line.binds = false) : line.named = [] ∧ line.default? = none := by
  obtain ⟨named, default⟩ := Bool.or_eq_false_iff.mp bare
  refine ⟨by simpa using named, ?_⟩
  cases found : line.default? with
  | none => rfl
  | some name =>
    rw [found] at default
    exact absurd (ne_empty (plain.default name found)) (by simpa using default)

/-- The clause of a line that binds something begins and ends with no blank. -/
theorem closes_clauseChars (plain : line.IsPlain) (binds : line.binds = true) :
    Closes line.clauseChars ∧ ∀ c ∈ line.clauseChars.head?, isBlank c = false := by
  have closes := closes_braces _ plain.specifiers
  unfold clauseChars
  cases default : line.default? with
  | none =>
    cases named : line.named with
    | nil => simp [ImportLine.binds, named, default] at binds
    | cons spec rest =>
      rw [named] at closes
      exact ⟨closes, fun c member => by obtain rfl := Option.some.inj member; decide⟩
  | some name =>
    have isDefault := plain.default name default
    cases named : line.named with
    | nil => exact ⟨isDefault.closes, isDefault.first⟩
    | cons spec rest =>
      rw [named] at closes
      refine ⟨⟨List.append_ne_nil_of_left_ne_nil isDefault.nonempty _, fun c member => ?_, fun c member => ?_⟩, fun c member => ?_⟩
      · rcases List.mem_append.mp member with here | later
        · exact (isDefault.parts c here).1
        · rcases List.mem_cons.mp later with rfl | later
          · decide
          · rcases List.mem_cons.mp later with rfl | later
            · decide
            · exact closes.parts c later
      · refine closes.last c ?_
        simpa [braces] using member
      · refine isDefault.first c ?_
        cases chars : name.toList with
        | nil => exact absurd chars isDefault.nonempty
        | cons d _ =>
          dsimp only at member
          rw [if_neg (List.cons_ne_nil _ _), chars] at member
          exact member

theorem bracedNames_of_not_mem {clause : List Char} (plain : '\x7b' ∉ clause) : bracedNames clause = ([], clause) := by
  have all : clause.takeWhile (· != '\x7b') = clause :=
    List.takeWhile_eq_self_iff.mpr fun c member => by simpa using fun same : c = '\x7b' => plain (same ▸ member)
  unfold bracedNames
  dsimp only
  rw [all, List.drop_length]

/-- The names and the default of a line are read from its clause. -/
theorem read_clauseChars (plain : line.IsPlain) : ∃ others, bracedNames line.clauseChars = (line.named, others) ∧
    defaultOf others = line.default? := by
  have back : (line.named.map String.toList).map String.ofList = line.named := by simp
  unfold clauseChars
  cases default : line.default? with
  | none =>
    cases named : line.named with
    | nil => exact ⟨[], rfl, rfl⟩
    | cons spec rest =>
      have names : bracedNames ([] ++ _) = _ := bracedNames_append plain.specifiers (by simp [named]) List.not_mem_nil
      rw [back, named] at names
      exact ⟨[], names, rfl⟩
  | some name =>
    have isDefault := plain.default name default
    have opens : '\x7b' ∉ name.toList := fun member => (isDefault.parts _ member).2.2 rfl
    cases named : line.named with
    | nil =>
      refine ⟨name.toList, bracedNames_of_not_mem opens, ?_⟩
      have alone : defaultOf (name.toList ++ []) = _ := defaultOf_append isDefault (List.forall_mem_nil _)
      rwa [List.append_nil, String.ofList_toList] at alone
    | cons spec rest =>
      have names : bracedNames (name.toList ++ [',', ' '] ++ _) = _ :=
        bracedNames_append plain.specifiers (by simp [named]) (by simpa using opens)
      rw [back, named] at names
      refine ⟨name.toList ++ [',', ' '], ?_, ?_⟩
      · rw [if_neg (List.cons_ne_nil _ _)]
        simpa using names
      · rw [defaultOf_append isDefault (by decide), String.ofList_toList]

/-! ### Reading a line -/

/-- The clauses, with what follows, behind the word for types if it stands there. -/
def typedClauses (cs : List Char) : List (Option (List Char × List Char × List Char)) :=
  match stripStart? "type".toList cs with
  | some left => (afterBlanks (left.takeWhile isBlank).length left).map fun text => readClause? [] text
  | none => []

/-- What follows the word `import` and a blank. -/
theorem readBody?_cons {c : Char} (solid : isBlank c = false) (cs : List Char) :
    readBody? (' ' :: c :: cs) =
      match (typedClauses (c :: cs)).findSome? id with
      | some (clause, source, rest) => some (true, clause, source, rest)
      | none =>
        match readClause? [] (c :: cs) with
        | some (clause, source, rest) => some (false, clause, source, rest)
        | none => (readSource? (c :: cs)).map fun (source, rest) => (false, [], source, rest) := by
  have space : isBlank ' ' = true := by decide
  have blanks : (' ' :: c :: cs).takeWhile isBlank = [' '] := by
    rw [List.takeWhile_cons_of_pos space, List.takeWhile_cons_of_neg (by simp [solid])]
  have plain : ((afterBlanks [' '].length (' ' :: c :: cs)).map fun text => readClause? [] text).findSome? id =
      readClause? [] (c :: cs) := by
    change [readClause? [] (c :: cs)].findSome? id = _
    rw [List.findSome?_singleton]
    rfl
  unfold readBody? typedClauses
  dsimp only
  rw [blanks, if_neg (by decide), plain]
  rfl

theorem typedClauses_of_untyped (untyped : ∀ left, stripStart? "type".toList cs = some left → ∃ c ∈ left.head?, isBlank c = false) :
    (typedClauses cs).findSome? id = none := by
  unfold typedClauses
  split
  · rename_i left stripped
    obtain ⟨c, head, solid⟩ := untyped left stripped
    cases left with
    | nil => cases head
    | cons d left =>
      obtain rfl := Option.some.inj head
      rw [List.takeWhile_cons_of_neg (by simp [solid])]
      rfl
  · rfl

/-- What follows the word `import` in a line that binds something. -/
theorem readBody?_clause {typeOnly : Bool} (closes : Closes clause) (first : ∀ c ∈ clause.head?, isBlank c = false)
    (isModule : IsModule source) (ends : EndsLine rest)
    (untyped : typeOnly = false → ∀ more, clause = "type".toList ++ more → ∃ c ∈ more.head?, isBlank c = false) :
    readBody? (' ' :: ((if typeOnly then "type ".toList else []) ++ (clause ++ behindClause source rest))) =
      some (typeOnly, clause, source, rest) := by
  obtain ⟨c, inner, rfl⟩ := List.exists_cons_of_ne_nil closes.nonempty
  have solid : isBlank c = false := first c rfl
  have whole : readClause? [] (c :: inner ++ behindClause source rest) = some (c :: inner, source, rest) :=
    readClause?_append closes isModule ends []
  cases typeOnly with
  | true =>
    have typed : typedClauses ('t' :: 'y' :: 'p' :: 'e' :: ' ' :: (c :: inner ++ behindClause source rest)) =
        [readClause? [] (c :: inner ++ behindClause source rest)] := by
      change (afterBlanks ((' ' :: c :: (inner ++ behindClause source rest)).takeWhile isBlank).length _).map _ = _
      rw [List.takeWhile_cons_of_pos (by decide), List.takeWhile_cons_of_neg (by simp [solid])]
      rfl
    refine (readBody?_cons (c := 't') (by decide) ('y' :: 'p' :: 'e' :: ' ' :: (c :: inner ++ behindClause source rest))).trans ?_
    rw [typed, whole]
    rfl
  | false =>
    have plain : (typedClauses (c :: inner ++ behindClause source rest)).findSome? id = none := by
      refine typedClauses_of_untyped fun left stripped => ?_
      obtain ⟨last, split, rfl⟩ := eq_append_of_stripStart?_clause (by decide) stripped
      obtain ⟨d, head, solid⟩ := untyped rfl last split
      refine ⟨d, ?_, solid⟩
      cases last with
      | nil => cases head
      | cons e last => exact head
    refine (readBody?_cons solid (inner ++ behindClause source rest)).trans ?_
    rw [← List.cons_append, plain, whole]

/-- What follows the word `import` in a line that binds nothing. -/
theorem readBody?_bare (isModule : IsModule source) (ends : EndsLine rest) :
    readBody? (' ' :: '\'' :: (source ++ '\'' :: ';' :: rest)) = some (false, [], source, rest) := by
  refine (readBody?_cons (by decide) _).trans ?_
  rw [readSource?_quoted isModule ends]
  rfl

/-- The characters of a plain line. -/
theorem toList_render (plain : line.IsPlain) :
    line.render.toList ++ rest = "import".toList ++ ' ' :: (if line.binds then (if line.typeOnly then "type ".toList else []) ++
      (line.clauseChars ++ behindClause line.source.toList rest) else '\'' :: (line.source.toList ++ '\'' :: ';' :: rest)) := by
  have signs : "import type ".toList = "import".toList ++ ' ' :: "type ".toList ∧ "import ".toList = "import".toList ++ [' '] ∧
      " from '".toList = [' ', 'f', 'r', 'o', 'm', ' ', '\''] ∧ "';".toList = ['\'', ';'] ∧
      "import '".toList = "import".toList ++ [' ', '\''] := ⟨rfl, rfl, rfl, rfl, rfl⟩
  unfold render behindClause
  cases binds : line.binds with
  | true =>
    cases types : line.typeOnly <;>
      simp only [if_true, if_false, Bool.false_eq_true, String.toList_append, toList_clauseText plain, signs.1, signs.2.1,
        signs.2.2.1, signs.2.2.2.1, List.append_assoc, List.cons_append, List.nil_append]
  | false =>
    simp only [if_false, Bool.false_eq_true, String.toList_append, signs.2.2.2.1, signs.2.2.2.2, List.append_assoc,
      List.cons_append, List.nil_append]

theorem exists_cons_render (plain : line.IsPlain) : ∃ rest, line.render.toList = 'i' :: rest := by
  have chars : line.render.toList ++ [] = _ := toList_render plain
  rw [List.append_nil] at chars
  exact ⟨_, chars⟩

theorem untyped_clauseChars (plain : line.IsPlain) (untyped : line.typeOnly = false) :
    ∀ more, line.clauseChars = "type".toList ++ more → ∃ c ∈ more.head?, isBlank c = false := by
  intro more same
  unfold clauseChars at same
  cases default : line.default? with
  | none =>
    rw [default] at same
    dsimp only at same
    split at same <;> cases same
  | some name =>
    rw [default] at same
    dsimp only at same
    split at same
    · exact plain.untyped untyped name default more same
    · rcases List.append_eq_append_iff.mp same with ⟨last, split, beyond⟩ | ⟨last, split, beyond⟩
      · cases last with
        | nil =>
          obtain ⟨c, head, -⟩ := plain.untyped untyped name default [] (by simpa using split.symm)
          cases head
        | cons c last =>
          obtain rfl : ',' = c := (List.cons.inj beyond).1
          exact absurd (split ▸ List.mem_append_right _ List.mem_cons_self) (by decide : ',' ∉ "type".toList)
      · obtain ⟨c, head, solid⟩ := plain.untyped untyped name default last split
        refine ⟨c, ?_, solid⟩
        cases last with
        | nil => cases head
        | cons d last =>
          rw [beyond]
          exact head

/-- **A plain line is read back**, at the place where it stands. -/
theorem readAt?_render (plain : line.IsPlain) (ends : EndsLine rest) (start : Nat) :
    readAt? start (line.render.toList ++ rest) =
      some ({ line with start := start, stop := start + line.render.toList.length }, rest) := by
  have length : (line.render.toList ++ rest).length - rest.length = line.render.toList.length := by
    rw [List.length_append, Nat.add_sub_cancel]
  have stripped : stripStart? "import".toList ((line.render.toList ++ rest).dropWhile isIndent) = some (' ' ::
      if line.binds then (if line.typeOnly then "type ".toList else []) ++
        (line.clauseChars ++ behindClause line.source.toList rest) else '\'' :: (line.source.toList ++ '\'' :: ';' :: rest)) := by
    rw [toList_render plain]
    rfl
  unfold readAt?
  rw [stripped]
  dsimp only
  cases binds : line.binds with
  | true =>
    obtain ⟨closes, first⟩ := closes_clauseChars plain binds
    obtain ⟨others, names, default⟩ := read_clauseChars plain
    rw [if_pos rfl, readBody?_clause closes first plain.source ends (untyped_clauseChars plain)]
    simp only [Option.map_some, names, default, String.ofList_toList, length]
  | false =>
    have untyped : line.typeOnly = false := by
      cases types : line.typeOnly with
      | false => rfl
      | true => exact absurd (plain.typed types) (by simp [binds])
    obtain ⟨named, default⟩ := eq_none_of_not_binds plain binds
    rw [if_neg Bool.false_ne_true, readBody?_bare plain.source ends]
    simp only [Option.map_some, String.ofList_toList, length, named, default, untyped]
    rfl

/-! ### Other lines -/

/-- Whether a line does not begin with the word `import` on its own. -/
def isQuiet (line : List Char) : Bool :=
  match stripStart? "import".toList (line.dropWhile isIndent) with
  | some rest => rest.head?.any fun c => !isBlank c
  | none => true

theorem readBody?_of_solid {c : Char} (solid : isBlank c = false) (cs : List Char) : readBody? (c :: cs) = none := by
  unfold readBody?
  dsimp only
  rw [List.takeWhile_cons_of_neg (by simp [solid])]
  rfl

/-- A line that does not begin with the word is no import line. -/
theorem readAt?_of_quiet {text after : List Char} (quiet : isQuiet text = true) (ends : EndsLine after) (start : Nat) :
    readAt? start (text ++ after) = none := by
  have dropped : (text ++ after).dropWhile isIndent = text.dropWhile isIndent ++ after := by
    rw [List.dropWhile_append]
    split
    · rename_i nothing
      rw [List.isEmpty_iff.mp nothing, dropWhile_of_endsLine ends]
      rfl
    · rfl
  unfold isQuiet at quiet
  generalize text.dropWhile isIndent = inner at quiet dropped
  have refused (left : List Char) (stripped : stripStart? "import".toList (inner ++ after) = some left) :
      readBody? left = none := by
    rcases List.append_eq_append_iff.mp (eq_append_of_stripStart? stripped) with ⟨last, split, beyond⟩ | ⟨last, split, beyond⟩
    · cases last with
      | nil =>
        rw [show inner = "import".toList by simpa using split.symm] at quiet
        cases quiet
      | cons c last =>
        obtain rfl : c = '\n' := by simpa [beyond, EndsLine] using ends
        exact absurd (split ▸ List.mem_append_right _ List.mem_cons_self) (by decide : '\n' ∉ "import".toList)
    · rw [split, Text.stripStart?_append] at quiet
      cases last with
      | nil => cases quiet
      | cons c last =>
        rw [beyond]
        exact readBody?_of_solid (by simpa using quiet) _
  unfold readAt?
  rw [dropped]
  split
  · rfl
  · rename_i left stripped
    rw [refused left stripped]
    rfl

end ImportLine

end AnimationCode
