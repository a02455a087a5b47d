/-
**A name is imported, and another is no longer.**

A name goes onto the line that imports from its source already, or onto a line of its own behind the others; a name that
is removed takes its line with it if nothing else is bound there. The lines that are read afterwards are those that were
written, and no other name is bound.

* `ImportLine.beginsNone_of_rewritten`, `ImportLine.beginsNone_of_broken`: where no import line begins, none begins afterwards;
* `Stretch.AreRead.rewrite`, `Stretch.AreRead.insert`: a line written anew, and more lines behind one;
* `Stretch.AreFit`: import statements of the language, to which names of some sources may be added;
* `Stretch.exists_add`, `Stretch.exists_foldl_add`: what one more name changes of a text, and several;
* `Stretch.Trims.sublist_bound`, `Stretch.Trims.mem_bound`: what is left bound without some names.
-/

import AnimationCode.Proofs.Import.Trimmed

namespace AnimationCode

namespace ImportLine

variable {before text rest other : List Char} {line left : ImportLine}

/-! ### Where an import line begins -/

/-- A text is split in one way at its first quote. -/
theorem eq_of_first_quote {first second behind after : List Char} {mark other : Char} (isMark : isQuote mark = true)
    (isOther : isQuote other = true) (plain : ∀ c ∈ first, isQuote c = false) (clean : ∀ c ∈ second, isQuote c = false)
    (same : first ++ mark :: behind = second ++ other :: after) : first = second ∧ mark = other ∧ behind = after := by
  rcases List.append_eq_append_iff.mp same with ⟨between, rfl, later⟩ | ⟨between, rfl, later⟩
  · cases between with
    | nil =>
      obtain ⟨rfl, rfl⟩ := List.cons.inj later
      exact ⟨(List.append_nil first).symm, rfl, rfl⟩
    | cons c between =>
      obtain ⟨rfl, -⟩ := List.cons.inj later
      rw [clean mark (by simp)] at isMark
      cases isMark
  · cases between with
    | nil =>
      obtain ⟨rfl, rfl⟩ := List.cons.inj later
      exact ⟨List.append_nil second, rfl, rfl⟩
    | cons c between =>
      obtain ⟨rfl, -⟩ := List.cons.inj later
      rw [plain other (by simp)] at isOther
      cases isOther

theorem plain_before_quote {indent head : List Char} (blank : ∀ c ∈ indent, isIndent c = true) (isHead : IsHead head) :
    ∀ c ∈ indent ++ ("import".toList ++ head), isQuote c = false := by
  intro c member
  rcases List.mem_append.mp member with among | among
  · exact isQuote_of_isClausePart (isClausePart_of_isBlank (isBlank_of_isIndent (blank c among)))
  · rcases List.mem_append.mp among with among | among
    · exact (by decide : ∀ c ∈ "import".toList, isQuote c = false) c among
    · exact isQuote_of_isClausePart (isHead c among)

theorem plain_behind_quote {sign blanks : List Char} (signed : sign = [] ∨ sign = [';']) (blank : ∀ c ∈ blanks, isIndent c = true) :
    ∀ c ∈ sign ++ blanks, isQuote c = false := by
  intro c member
  rcases List.mem_append.mp member with among | among
  · rcases signed with rfl | rfl
    · cases among
    · rw [List.mem_singleton.mp among]
      decide
  · exact isQuote_of_isClausePart (isClausePart_of_isBlank (isBlank_of_isIndent (blank c among)))

/-- An import line has two quotes, and what stands behind the second one goes on to the end of the line. -/
theorem Spells.exists_quotes (spells : Spells text line) : ∃ first opening closing last,
    text = first ++ opening :: (line.source.toList ++ closing :: last) ∧ first ≠ [] ∧ (∀ c ∈ first, isQuote c = false) ∧
      isQuote opening = true ∧ isQuote closing = true ∧ (∀ c ∈ line.source.toList, isQuote c = false) ∧
      (∀ c ∈ last, isQuote c = false) ∧ '\n' ∉ closing :: last := by
  obtain ⟨indent, head, quoted, clause, rfl, blank, isHead, spaced, isQuoted, cut⟩ := spells
  obtain ⟨opens, closes, isModule, signed, blank'⟩ := isQuoted
  exact ⟨indent ++ ("import".toList ++ head), _, _, _, by simp, by simp, plain_before_quote blank isHead, opens, closes, isModule.2,
    plain_behind_quote signed blank', line_not_mem_tail closes signed blank'⟩

theorem Spells.countP_isQuote (spells : Spells text line) : text.countP isQuote = 2 := by
  obtain ⟨first, opening, closing, last, rfl, -, plain, opens, closes, isModule, clean, -⟩ := spells.exists_quotes
  have none_ {part : List Char} (plain : ∀ c ∈ part, isQuote c = false) : part.countP isQuote = 0 :=
    List.countP_eq_zero.mpr fun c member => by simp [plain c member]
  rw [List.countP_append, List.countP_cons_of_pos opens, List.countP_append, List.countP_cons_of_pos closes, none_ plain,
    none_ isModule, none_ clean]

/-- **No import line goes on behind another one**: it would have more than two quotes, or end before. -/
theorem beginsNone_of_broken (none_ : BeginsNone (before ++ (text ++ rest))) (spells : Spells text line) (ends : EndsLine rest) :
    BeginsNone (before ++ (text ++ '\n' :: other)) := by
  intro read after found same endsAfter spellsFound
  rw [← List.append_assoc] at same
  rcases List.append_eq_append_iff.mp same with ⟨beyond, rfl, later⟩ | ⟨beyond, split, rfl⟩
  · cases beyond with
    | nil =>
      rw [List.append_nil] at spellsFound
      exact none_ (before ++ text) rest found (List.append_assoc ..).symm ends spellsFound
    | cons c beyond =>
      obtain ⟨rfl, rfl⟩ := List.cons.inj later
      obtain ⟨first, opening, closing, last, whole, -, plain, opens, closes, isModule, clean, unbroken⟩ := spellsFound.exists_quotes
      have single : (first ++ opening :: found.source.toList).countP isQuote = 1 := by
        rw [List.countP_append, List.countP_cons_of_pos opens, List.countP_eq_zero.mpr fun c member => by simp [plain c member],
          List.countP_eq_zero.mpr fun c member => by simp [isModule c member]]
      have parts : (before ++ text) ++ '\n' :: beyond = (first ++ opening :: found.source.toList) ++ closing :: last := by
        rw [whole]
        simp
      rcases List.append_eq_append_iff.mp parts with ⟨between, within, -⟩ | ⟨between, -, behind⟩
      · rw [within, List.countP_append, List.countP_append, spells.countP_isQuote] at single
        omega
      · exact unbroken (behind ▸ List.mem_append_right _ List.mem_cons_self)
  · refine none_ read (beyond ++ rest) found ?_ ?_ spellsFound
    · rw [← List.append_assoc, split, List.append_assoc]
    · cases beyond with
      | nil => exact ends
      | cons c beyond => exact endsAfter

/-- An import line that goes on behind an open quote is closed by the next one, and would be by any other. -/
theorem Spells.exists_of_open {beyond : List Char} (spells : Spells (before ++ beyond) line) (open_ : IsOpen before) :
    ∃ onward closing sign blanks, beyond = onward ++ closing :: (sign ++ blanks) ∧ isQuote closing = true ∧
      (∀ c ∈ onward, isQuote c = false) ∧ (∀ c ∈ sign ++ blanks, isQuote c = false) ∧
      ∀ other mark, other ≠ [] → (∀ c ∈ other, isQuote c = false) → isQuote mark = true →
        ∃ found, Spells (before ++ (other ++ mark :: (sign ++ blanks))) found := by
  obtain ⟨indent', head', mark, front, rfl, blank', isHead', -, isMark, solid⟩ := open_
  obtain ⟨indent, head, quoted, clause, parts, blank, isHead, spaced, isQuoted, cut, named, default⟩ := spells
  generalize line.source.toList = module at isQuoted
  obtain @⟨opening, closing, sign, blanks, opens, closes, isModule, signed, blank''⟩ := isQuoted
  -- both begin with the same quote
  have starts : indent' ++ ("import".toList ++ head') ++ mark :: (front ++ beyond) =
      indent ++ ("import".toList ++ head) ++ opening :: (module ++ closing :: (sign ++ blanks)) := by simpa using parts
  obtain ⟨begins, rfl, inside⟩ := eq_of_first_quote isMark opens (plain_before_quote blank' isHead') (plain_before_quote blank isHead) starts
  obtain ⟨onward, rfl, rfl⟩ : ∃ onward, module = front ++ onward ∧ beyond = onward ++ closing :: (sign ++ blanks) := by
    rcases List.append_eq_append_iff.mp inside with ⟨onward, same, rest⟩ | ⟨onward, rfl, rest⟩
    · exact ⟨onward, same, rest⟩
    · cases onward with
      | nil => exact ⟨[], by simp, rest.symm⟩
      | cons c onward =>
        obtain ⟨rfl, -⟩ := List.cons.inj rest
        rw [solid closing (by simp)] at closes
        cases closes
  refine ⟨onward, closing, sign, blanks, rfl, closes, fun c member => isModule.2 c (List.mem_append_right _ member),
    plain_behind_quote signed blank'', fun other last some_ plain isLast => ?_⟩
  refine ⟨{ line with source := String.ofList (front ++ other) }, indent, head, mark :: ((front ++ other) ++ last :: (sign ++ blanks)),
    clause, ?_, blank, isHead, spaced, ?_, cut, named, default⟩
  · have same := congrArg (· ++ mark :: (front ++ (other ++ last :: (sign ++ blanks)))) begins
    simpa using same
  · rw [String.toList_ofList]
    exact .mk opens isLast ⟨List.append_ne_nil_of_right_ne_nil front some_,
      fun c member => (List.mem_append.mp member).elim (solid c) (plain c)⟩ signed blank''

/-- An open quote is not closed by a line that is written anew: the source that stands there is as it was. -/
theorem beginsNone_of_open (none_ : BeginsNone (before ++ (text ++ rest))) (last : before.getLast? = some '\n')
    (open_ : IsOpen before) (spells : Spells text line) (written : Spells other left) (same : left.source = line.source) :
    BeginsNone (before ++ (other ++ rest)) := by
  intro read after found split endsAfter spellsFound
  rcases List.append_eq_append_iff.mp split with ⟨beyond, rfl, later⟩ | ⟨beyond, rfl, rfl⟩
  · obtain ⟨onward, closing, sign, blanks, rfl, closes, unquoted, tail, closed⟩ := spellsFound.exists_of_open open_
    -- the quote is closed by the one before the source of the line
    obtain ⟨first, opening, ending, more, rfl, -, plain, opens, ends, -⟩ := written.exists_quotes
    have goesOn : first ++ opening :: (left.source.toList ++ ending :: (more ++ rest)) =
        onward ++ closing :: (sign ++ blanks ++ after) := by simpa using later
    obtain ⟨-, rfl, behind⟩ := eq_of_first_quote opens closes plain unquoted goesOn
    have unended : ¬ EndsLine (ending :: (more ++ rest)) := fun ended => by
      obtain rfl : ending = '\n' := by simpa [EndsLine] using ended
      cases ends
    -- so that the line of the quote ends within the source
    obtain ⟨beyond, source⟩ : ∃ beyond, left.source.toList = sign ++ blanks ++ '\n' :: beyond := by
      rcases List.append_eq_append_iff.mp behind with ⟨within, signs, ended⟩ | ⟨within, source, rfl⟩
      · cases within with
        | nil => exact absurd endsAfter (by rwa [show after = _ from ended.symm])
        | cons c within =>
          obtain ⟨rfl, -⟩ := List.cons.inj ended
          rw [tail ending (by rw [signs]; simp)] at ends
          cases ends
      · cases within with
        | nil => exact absurd endsAfter unended
        | cons c within =>
          obtain rfl : c = '\n' := by simpa [EndsLine] using endsAfter
          exact ⟨within, source⟩
    obtain ⟨first, opening, ending, more, rfl, some_, plain, opens, -⟩ := spells.exists_quotes
    obtain ⟨found, spellsFound⟩ := closed first opening some_ plain opens
    exact none_ _ ('\n' :: (beyond ++ ending :: (more ++ rest))) found (by rw [← same, source]; simp) (.inr rfl) spellsFound
  · cases beyond with
    | nil => exact absurd (by simpa using last) spellsFound.not_mem_getLast?
    | cons c beyond => exact none_ read (c :: beyond ++ (text ++ rest)) found (by simp) endsAfter spellsFound

/-- **Whether an import line begins somewhere is not changed by a later line that is written anew** with its source as it was. -/
theorem beginsNone_of_rewritten (none_ : BeginsNone (before ++ (text ++ rest))) (last : before.getLast? = some '\n')
    (spells : Spells text line) (filled : isBare line = false) (ends : EndsLine rest) (written : Spells other left)
    (same : left.source = line.source) : BeginsNone (before ++ (other ++ rest)) := by
  by_cases open_ : IsOpen before
  · exact beginsNone_of_open none_ last open_ spells written same
  · exact beginsNone_of_append none_ last spells filled ends open_

theorem beginsNone_cons {c : Char} (solid : isIndent c = false) (apart : c ≠ 'i') (cs : List Char) : BeginsNone (c :: cs) := by
  rintro read after found same - ⟨indent, head, quoted, clause, rfl, blank, -⟩
  cases indent with
  | nil => exact apart (List.cons.inj same).1
  | cons d indent =>
    obtain ⟨rfl, -⟩ := List.cons.inj same
    rw [blank c List.mem_cons_self] at solid
    cases solid

/-! ### Lines that are statements -/

/-- An import statement of the language. -/
structure IsValid (line : ImportLine) : Prop where
  sound : line.IsSound
  statement : line.IsStatement

/-- An import statement to which another name may be added if it is from one of some sources: it takes no namespace then. -/
structure Fits (sources : List String) (line : ImportLine) : Prop extends line.IsValid where
  single : line.source ∈ sources → line.typeOnly = false → ∀ name ∈ line.default?, Script.IsName name.toList

/-- Whether a line may bind another name of a source: it binds values of it. -/
def takesName (source : String) (line : ImportLine) : Bool :=
  line.source == source && !line.typeOnly && (!line.named.isEmpty || line.default?.isSome)

/-- A line with one more name. -/
def withName (line : ImportLine) (name : String) : ImportLine := { line with named := line.named ++ [name] }

/-- A line for one name. -/
def lineFor (source name : String) : ImportLine := ⟨0, 0, source, none, [name], false⟩

/-- A name that may be imported as it is, and a source that has it. -/
structure IsImportable (source name : String) : Prop where
  isModule : IsModule source.toList
  isName : Script.IsName name.toList
  isSpecifier : IsSpecifier name.toList
  same : localName name = name

variable {sources : List String} {source name : String}

theorem isRegular_lineFor (importable : IsImportable source name) : (lineFor source name).IsRegular where
  source := importable.isModule
  default _ member := by cases member
  named _ member := List.mem_singleton.mp member ▸ importable.isSpecifier
  sound _ member := by cases member
  filled := rfl

theorem fits_lineFor (importable : IsImportable source name) : (lineFor source name).Fits sources where
  sound _ member := by cases member
  statement := ⟨fun _ member => List.mem_singleton.mp member ▸ .inl importable.isName, fun _ member => by cases member⟩
  single _ _ _ member := by cases member

theorem localNames_lineFor (same : localName name = name) : localNames (lineFor source name) = [name] :=
  congrArg (fun name => [name]) same

theorem render_lineFor (source name : String) :
    (lineFor source name).render.toList = ("import \x7b " ++ name ++ " \x7d from '" ++ source ++ "';").toList := by
  have signs : "import \x7b ".toList = "import ".toList ++ "\x7b ".toList ∧ " \x7d from '".toList = " \x7d".toList ++ " from '".toList :=
    ⟨rfl, rfl⟩
  have binds : (lineFor source name).binds = true := rfl
  have clause : (lineFor source name).clauseText = "\x7b " ++ name ++ " \x7d" := by
    simp [lineFor, ImportLine.clauseText]
  rw [ImportLine.render, if_pos binds, clause]
  simp only [lineFor, if_false, Bool.false_eq_true, String.toList_append, signs.1, signs.2, List.append_assoc]

theorem isBare_withName (line : ImportLine) (name : String) : (withName line name).isBare = false := by
  simp [withName, isBare]

theorem IsRegular.withName (regular : line.IsRegular) (importable : IsImportable source name) : (withName line name).IsRegular where
  source := regular.source
  default := regular.default
  named spec member := (List.mem_append.mp member).elim (regular.named spec)
    fun last => List.mem_singleton.mp last ▸ importable.isSpecifier
  sound := regular.sound
  filled := isBare_withName line name

theorem Fits.withName (fits : line.Fits sources) (importable : IsImportable source name)
    (single : ∀ name ∈ line.default?, Script.IsName name.toList) : (withName line name).Fits sources where
  sound := fits.sound
  statement := ⟨fun spec member => (List.mem_append.mp member).elim (fits.statement.1 spec)
    fun last => List.mem_singleton.mp last ▸ .inl importable.isName, fun name member => .inl (single name member)⟩
  single _ _ := single

theorem Fits.revised {removed : List String} (fits : line.Fits sources) : (revised removed none line).Fits sources where
  sound name member := fits.sound name (mem_default_revised.mp member).1
  statement := isStatement_revised fits.statement
  single among types name member := fits.single (source_revised line ▸ among) (typeOnly_revised line ▸ types) name
    (mem_default_revised.mp member).1

theorem localNames_withName (same : localName name = name) : (localNames (withName line name)).Perm (name :: localNames line) := by
  rw [localNames, withName, List.append_assoc, List.map_append, List.singleton_append, List.map_cons, same, localNames,
    List.map_append]
  exact List.perm_middle

theorem isBare_of_takesName (takes : takesName source line = true) : isBare line = false := by
  simp only [takesName, Bool.and_eq_true, Bool.or_eq_true, Bool.not_eq_true'] at takes
  rcases takes.2 with named | default
  · rw [isBare, named, Bool.false_and]
  · rw [isBare, ← Option.not_isSome, default, Bool.not_true, Bool.and_false]

end ImportLine

open ImportLine (Spells EndsLine BeginsNone IsImportable isBare lineFor localName localNames readAll revised takesName withName)

namespace Stretch

variable {start : Bool} {before rest more stretches after left : List Stretch} {chars other : List Char} {line found : ImportLine}

/-! ### Lines that are written anew, and new ones -/

theorem AreRead.behind (read : AreRead start (before ++ .statement chars line :: rest)) : AreRead false rest := by
  induction before generalizing start with
  | nil =>
    cases read with
    | statement spells ends later => exact later
  | cons stretch before ih =>
    cases read with
    | other none_ later => exact ih later
    | statement spells ends later => exact ih later

/-- Behind a statement its line ends, whatever becomes of a later statement. -/
theorem AreRead.endsLine_append (read : AreRead false (before ++ .statement chars line :: rest))
    (ends : EndsLine (whole (before ++ .statement chars line :: rest))) (tail : List Stretch) : EndsLine (whole (before ++ tail)) := by
  cases before with
  | nil => cases read
  | cons stretch before =>
    cases read with
    | other none_ later => exact ends.imp (fun nothing => by cases nothing) fun first => first

/-- **A line that is written anew** with its source as it was is read again, and so are the others. -/
theorem AreRead.rewrite (read : AreRead start (before ++ .statement chars line :: rest)) (filled : isBare line = false)
    (written : Spells other found) (same : found.source = line.source) : AreRead start (before ++ .statement other found :: rest) := by
  induction before generalizing start with
  | nil =>
    cases read with
    | statement spells ends later => exact .statement written ends later
  | cons stretch before ih =>
    cases read with
    | @other _ c _ none_ later =>
      obtain ⟨spells, ends⟩ := later.of_append
      refine .other (fun first => ?_) (ih later)
      have here := none_ first
      rw [List.append_eq, whole_append, ← List.cons_append] at here ⊢
      exact ImportLine.beginsNone_of_rewritten here (later.getLast?_cons rfl) spells filled ends written same
    | statement spells ends later => exact .statement spells (later.endsLine_append ends _) (ih later)

/-- **More lines behind a line** are read as they are by themselves. -/
theorem AreRead.insert (read : AreRead start (before ++ .statement chars line :: rest)) (onward : AreRead true more) :
    AreRead start (before ++ .statement chars line :: .other '\n' :: more) := by
  induction before generalizing start with
  | nil =>
    cases read with
    | statement spells ends later => exact .statement spells (.inr rfl) (.other (fun first => by cases first) onward)
  | cons stretch before ih =>
    cases read with
    | other none_ later =>
      obtain ⟨spells, ends⟩ := later.of_append
      refine .other (fun first => ?_) (ih later)
      have here := none_ first
      rw [List.append_eq, whole_append, ← List.cons_append] at here ⊢
      exact ImportLine.beginsNone_of_broken here spells ends
    | statement spells ends later => exact .statement spells (later.endsLine_append ends _) (ih later)

@[simp] theorem whole_map_other (text : List Char) : whole (text.map .other) = text := by
  induction text with
  | nil => rfl
  | cons c text ih => exact congrArg (c :: ·) ih

/-- A text on one line is read with what follows it, if it begins no import line. -/
theorem areRead_map_other {text : List Char} (within : '\n' ∉ text) (quiet : start = true → BeginsNone (text ++ whole rest))
    (some_ : start = true → text ≠ []) (later : AreRead false rest) : AreRead start (text.map .other ++ rest) := by
  induction text generalizing start with
  | nil =>
    cases start with
    | true => exact absurd rfl (some_ rfl)
    | false => exact later
  | cons c text ih =>
    have other : (c == '\n') = false := by simpa using (List.ne_of_not_mem_cons within).symm
    refine .other (fun first => ?_) ?_
    · rw [List.append_eq, whole_append, whole_map_other]
      exact quiet first
    · rw [other]
      exact ih (List.not_mem_of_not_mem_cons within) (fun first => by cases first) (fun first => by cases first)

/-! ### What is bound -/

/-- The names that a stretch binds. -/
def binds : Stretch → List String
  | .other _ => []
  | .statement _ line => localNames line

/-- The names that the import lines of a text bind. -/
def bound (stretches : List Stretch) : List String := stretches.flatMap binds

@[simp] theorem bound_append (first second : List Stretch) : bound (first ++ second) = bound first ++ bound second :=
  List.flatMap_append

@[simp] theorem bound_other (c : Char) (rest : List Stretch) : bound (.other c :: rest) = bound rest := rfl

@[simp] theorem bound_statement (chars : List Char) (line : ImportLine) (rest : List Stretch) :
    bound (.statement chars line :: rest) = localNames line ++ bound rest := rfl

@[simp] theorem bound_map_other (text : List Char) : bound (text.map .other) = [] := by
  induction text with
  | nil => rfl
  | cons c text ih => exact ih

theorem flatMap_localNames_placed (offset : Nat) (stretches : List Stretch) :
    (placed offset stretches).flatMap localNames = bound stretches := by
  induction stretches generalizing offset with
  | nil => rfl
  | cons stretch rest ih =>
    cases stretch with
    | other c => exact ih _
    | statement chars line => exact congrArg (localNames line ++ ·) (ih _)

/-- The lines of a text are import statements to which names of some sources may be added. -/
def AreFit (sources : List String) (stretches : List Stretch) : Prop :=
  ∀ chars line, .statement chars line ∈ stretches → line.Fits sources

variable {sources : List String} {source name : String}

theorem areFit_append : AreFit sources (before ++ rest) ↔ AreFit sources before ∧ AreFit sources rest := by
  simp only [AreFit, List.mem_append, or_imp, forall_and]

theorem areFit_statement : AreFit sources (.statement chars line :: rest) ↔ line.Fits sources ∧ AreFit sources rest := by
  refine ⟨fun fits => ⟨fits _ _ List.mem_cons_self, fun _ _ member => fits _ _ (List.mem_cons_of_mem _ member)⟩, ?_⟩
  rintro ⟨here, later⟩ _ _ member
  rcases List.mem_cons.mp member with same | member
  · cases same
    exact here
  · exact later _ _ member

theorem areFit_other {c : Char} : AreFit sources (.other c :: rest) ↔ AreFit sources rest := by
  simp [AreFit]

theorem areFit_map_other (text : List Char) : AreFit sources (text.map .other) := by
  intro chars line member
  obtain ⟨c, -, same⟩ := List.mem_map.mp member
  cases same

/-! ### One more name -/

/-- A line of a text at its place, what is before it, and what behind. -/
theorem take_drop_whole (before : List Stretch) (chars : List Char) (line : ImportLine) (rest : List Stretch) :
    (whole (before ++ .statement chars line :: rest)).take (whole before).length = whole before ∧
      (whole (before ++ .statement chars line :: rest)).take ((whole before).length + chars.length) = whole before ++ chars ∧
      (whole (before ++ .statement chars line :: rest)).drop ((whole before).length + chars.length) = whole rest := by
  rw [whole_append, whole_statement]
  refine ⟨List.take_left, ?_, ?_⟩
  · rw [← List.append_assoc, ← List.length_append]
    exact List.take_left
  · rw [← List.append_assoc, ← List.length_append]
    exact List.drop_left

/-- A name goes onto the line that imports from its source already. -/
theorem exists_add_of_find? (read : AreRead true stretches) (fits : AreFit sources stretches) (among : source ∈ sources)
    (importable : IsImportable source name) (fresh : name ∉ bound stretches)
    (first : (placed 0 stretches).find? (takesName source) = some found) :
    ∃ after, Imports.add (whole stretches) source name = whole after ∧ AreRead true after ∧ AreFit sources after ∧
      (bound after).Perm (name :: bound stretches) := by
  obtain ⟨before, chars, line, rest, rfl, rfl⟩ := (mem_placed_iff 0).mp (List.mem_of_find?_eq_some first)
  have takes : takesName source line = true := by
    have taken := List.find?_some first
    exact taken
  obtain ⟨fitsBefore, fitsOn⟩ := areFit_append.mp fits
  obtain ⟨fitsLine, fitsRest⟩ := areFit_statement.mp fitsOn
  have own : line.source = source ∧ line.typeOnly = false := by
    simp only [takesName, Bool.and_eq_true, beq_iff_eq, Bool.not_eq_true'] at takes
    exact takes.1
  have single := fitsLine.single (own.1 ▸ among) own.2
  have absent : name ∉ localNames line := fun member => fresh (by simp [member])
  have new : ¬ ((line.named.map localName).contains name || line.default? == some name) = true := by
    intro known
    refine absent ?_
    rw [localNames, List.map_append]
    rcases Bool.or_eq_true_iff.mp known with named | default
    · exact List.mem_append_left _ (by simpa using named)
    · exact List.mem_append_right _ (by simp [show line.default? = some name by simpa using default, importable.same])
  have filled : isBare line = false := ImportLine.isBare_of_takesName takes
  have regular := (ImportLine.isRegular_of_spells read.of_append.1 fitsLine.sound filled).withName importable
  obtain ⟨till, -, past⟩ := take_drop_whole before chars line rest
  refine ⟨before ++ .statement (withName line name).render.toList (withName line name) :: rest, ?_,
    read.rewrite filled (regular.spells_render (List.forall_mem_nil _)) rfl,
    areFit_append.mpr ⟨fitsBefore, areFit_statement.mpr ⟨fitsLine.withName importable single, fitsRest⟩⟩, ?_⟩
  · unfold Imports.add
    rw [readAll_whole read]
    dsimp only
    unfold takesName at first
    rw [first]
    dsimp only
    rw [if_neg new, Nat.zero_add, till, past, whole_append, whole_statement, List.append_assoc]
    rfl
  · rw [bound_append, bound_statement, bound_append, bound_statement]
    exact (List.Perm.append_left _ ((ImportLine.localNames_withName importable.same).append_right _)).trans List.perm_middle

/-- A name of a source that no line takes names from goes onto a line of its own. -/
theorem exists_add_of_none (read : AreRead true stretches) (fits : AreFit sources stretches) (importable : IsImportable source name)
    (nowhere : (placed 0 stretches).find? (takesName source) = none) :
    ∃ after, Imports.add (whole stretches) source name = whole after ∧ AreRead true after ∧ AreFit sources after ∧
      (bound after).Perm (name :: bound stretches) := by
  have written : Spells (lineFor source name).render.toList (lineFor source name) :=
    (ImportLine.isRegular_lineFor importable).spells_render (List.forall_mem_nil _)
  have names : localNames (lineFor source name) = [name] := ImportLine.localNames_lineFor importable.same
  unfold takesName at nowhere
  unfold Imports.add
  rw [readAll_whole read]
  dsimp only
  rw [nowhere, ← ImportLine.render_lineFor]
  dsimp only
  cases last_ : (placed 0 stretches).getLast? with
  | some last =>
    obtain ⟨before, chars, line, rest, rfl, rfl⟩ := (mem_placed_iff 0).mp (List.mem_of_getLast? last_)
    obtain ⟨-, till, past⟩ := take_drop_whole before chars line rest
    obtain ⟨fitsBefore, fitsOn⟩ := areFit_append.mp fits
    obtain ⟨fitsLine, fitsRest⟩ := areFit_statement.mp fitsOn
    refine ⟨before ++ .statement chars line :: .other '\n' ::
      .statement (lineFor source name).render.toList (lineFor source name) :: rest, ?_,
      read.insert (.statement written read.of_append.2 read.behind), ?_, ?_⟩
    · dsimp only
      rw [Nat.zero_add, till, past]
      simp
    · exact areFit_append.mpr ⟨fitsBefore, areFit_statement.mpr ⟨fitsLine, areFit_other.mpr
        (areFit_statement.mpr ⟨ImportLine.fits_lineFor importable, fitsRest⟩)⟩⟩
    · simp only [bound_append, bound_statement, bound_other, names]
      exact (List.Perm.append_left _ List.perm_middle).trans List.perm_middle
  | none =>
    have fitting : (lineFor source name).Fits sources := ImportLine.fits_lineFor importable
    dsimp only
    split
    · exact ⟨.statement (lineFor source name).render.toList (lineFor source name) :: .other '\n' :: stretches, by simp,
        .statement written (.inr rfl) (.other (fun first => by cases first) read),
        areFit_statement.mpr ⟨fitting, areFit_other.mpr fits⟩, by simp [names]⟩
    · refine ⟨.statement (lineFor source name).render.toList (lineFor source name) :: .other '\n' :: .other '\n' :: stretches, by simp,
        .statement written (.inr rfl) (.other (fun first => by cases first) (.other (fun _ => ?_) read)),
        areFit_statement.mpr ⟨fitting, areFit_other.mpr (areFit_other.mpr fits)⟩, by simp [names]⟩
      exact ImportLine.beginsNone_cons rfl (by decide) _

/-- **One more name.** It is bound, and what was bound before still is; the lines remain import statements. -/
theorem exists_add (read : AreRead true stretches) (fits : AreFit sources stretches) (among : source ∈ sources)
    (importable : IsImportable source name) (fresh : name ∉ bound stretches) :
    ∃ after, Imports.add (whole stretches) source name = whole after ∧ AreRead true after ∧ AreFit sources after ∧
      (bound after).Perm (name :: bound stretches) := by
  cases first : (placed 0 stretches).find? (takesName source) with
  | some found => exact exists_add_of_find? read fits among importable fresh first
  | none => exact exists_add_of_none read fits importable first

/-- **Several names**, one after another. -/
theorem exists_foldl_add {needed : List (String × String)} (read : AreRead true stretches) (fits : AreFit sources stretches)
    (importable : ∀ wanted ∈ needed, wanted.1 ∈ sources ∧ IsImportable wanted.1 wanted.2)
    (fresh : ∀ wanted ∈ needed, wanted.2 ∉ bound stretches) (distinct : (needed.map Prod.snd).Nodup) :
    ∃ after, needed.foldl (fun text wanted => Imports.add text wanted.1 wanted.2) (whole stretches) = whole after ∧
      AreRead true after ∧ AreFit sources after ∧ (bound after).Perm (needed.map Prod.snd ++ bound stretches) := by
  induction needed generalizing stretches with
  | nil => exact ⟨stretches, rfl, read, fits, .refl _⟩
  | cons wanted rest ih =>
    obtain ⟨here, later⟩ := List.forall_mem_cons.mp importable
    obtain ⟨new, others⟩ := List.forall_mem_cons.mp fresh
    obtain ⟨apart, distinct⟩ := List.nodup_cons.mp distinct
    obtain ⟨middle, added, known, fitting, names⟩ := exists_add read fits here.1 here.2 new
    have stillNew : ∀ other ∈ rest, other.2 ∉ bound middle := by
      intro other member bound_
      rcases List.mem_cons.mp (names.mem_iff.mp bound_) with same | before
      · exact apart (same ▸ List.mem_map_of_mem member)
      · exact others other member before
    obtain ⟨after, text, good, fit, all⟩ := ih known fitting later stillNew distinct
    refine ⟨after, ?_, good, fit, ?_⟩
    · rw [List.foldl_cons, added]
      exact text
    · exact all.trans ((names.append_left _).trans List.perm_middle)

/-! ### Names that are removed -/

variable {removed : List String}

theorem sublist_localNames_revised (line : ImportLine) : (localNames (revised removed none line)).Sublist (localNames line) := by
  refine (List.Sublist.append List.filter_sublist ?_).map localName
  change ((line.default?.filter fun name => !removed.contains name).toList).Sublist line.default?.toList
  rw [Option.toList_filter]
  exact List.filter_sublist

/-- Nothing more is bound without some names. -/
theorem Trims.sublist_bound (trims : Trims removed none stretches left) : (bound left).Sublist (bound stretches) := by
  induction trims with
  | nil => exact .slnil
  | other _ ih => exact ih
  | bare _ _ ih => exact ih.append_left _
  | kept _ _ _ _ ih => exact (sublist_localNames_revised _).append ih
  | gone _ _ _ ih => exact ih.trans (List.sublist_append_right _ _)
  | last => exact List.nil_sublist _

/-- A name that is not removed stays bound, also that of a namespace unless the namespace is removed as such. -/
theorem mem_localNames_revised_of_kept (valid : line.IsValid) (names : ∀ name ∈ removed, ∀ inner, name.toList ≠ "* as ".toList ++ inner)
    {name : String} (member : name ∈ localNames line) (kept : name ∉ removed) : name ∈ localNames (revised removed none line) := by
  obtain ⟨spec, among, rfl⟩ := List.mem_map.mp member
  refine List.mem_map_of_mem ?_
  rcases List.mem_append.mp among with named | default
  · exact List.mem_append_left _ (ImportLine.mem_named_revised.mpr ⟨named, kept⟩)
  · have known : spec ∈ line.default? := Option.mem_toList.mp default
    refine List.mem_append_right _ (Option.mem_toList.mpr (ImportLine.mem_default_revised.mpr ⟨known, ?_⟩))
    rcases valid.statement.2 spec known with isName | ⟨-, inner, -, same⟩
    · rwa [ImportLine.localName_of_isName valid.sound known isName] at kept
    · exact fun gone => names spec gone inner same

theorem Trims.mem_bound (trims : Trims removed none stretches left) (fits : AreFit sources stretches)
    (names : ∀ name ∈ removed, ∀ inner, name.toList ≠ "* as ".toList ++ inner) {name : String} (member : name ∈ bound stretches)
    (kept : name ∉ removed) : name ∈ bound left := by
  have stays {chars : List Char} {line : ImportLine} {rest : List Stretch} (fits : AreFit sources (.statement chars line :: rest))
      (known : name ∈ localNames line) : name ∈ localNames (revised removed none line) :=
    mem_localNames_revised_of_kept (areFit_statement.mp fits).1.toIsValid names known kept
  have gone {line : ImportLine} (nothing : isBare (revised removed none line) = true) : name ∉ localNames (revised removed none line) := by
    simp only [isBare, Bool.and_eq_true, List.isEmpty_iff, Option.isNone_iff_eq_none] at nothing
    rw [localNames, nothing.1, nothing.2]
    exact List.not_mem_nil
  induction trims with
  | nil => exact member
  | other _ ih => exact ih (areFit_other.mp fits) member
  | bare _ _ ih => exact List.mem_append.mpr ((List.mem_append.mp member).imp_right (ih (areFit_statement.mp fits).2))
  | kept _ _ _ _ ih =>
    exact List.mem_append.mpr ((List.mem_append.mp member).imp (stays fits) (ih (areFit_statement.mp fits).2))
  | gone _ nothing _ ih =>
    rcases List.mem_append.mp member with own | others
    · exact absurd (stays fits own) (gone nothing)
    · exact ih (areFit_other.mp (areFit_statement.mp fits).2) others
  | last _ nothing =>
    rcases List.mem_append.mp member with own | others
    · exact absurd (stays fits own) (gone nothing)
    · exact others

/-- What is left of import statements fits as they do. -/
theorem Trims.areFit (trims : Trims removed none stretches left) (fits : AreFit sources stretches) : AreFit sources left := by
  induction trims with
  | nil => exact fits
  | other _ ih => exact areFit_other.mpr (ih (areFit_other.mp fits))
  | bare _ _ ih =>
    obtain ⟨here, later⟩ := areFit_statement.mp fits
    exact areFit_statement.mpr ⟨here, ih later⟩
  | kept _ _ _ _ ih =>
    obtain ⟨here, later⟩ := areFit_statement.mp fits
    exact areFit_statement.mpr ⟨here.revised, ih later⟩
  | gone _ _ _ ih => exact ih (areFit_other.mp (areFit_statement.mp fits).2)
  | last => exact fun _ _ member => by cases member

end Stretch

end AnimationCode
