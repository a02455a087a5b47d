/-
**What is left of a text when names are removed from its imports.**

Every line that binds something is written anew with what is left of it, or is gone with its line break; all else stays as it
stands. If the defaults of the lines are sound, and no text before a line leaves the quote of an import open, then the lines
that are read afterwards are the lines that were written.

* `ImportLine.localNames`, `ImportLine.IsStatement`: what a line binds, as an import statement of the language has it;
* `ImportLine.revised`: a line without some names, perhaps in order;
* `Stretch.Trims`, `Stretch.exists_trims`: what becomes of each stretch of a text;
* `ImportLine.LeavesOpen`: a text that could go on as an import, from a quote that it leaves open;
* `Stretch.AreRead.trims`: what is written is read again;
* `ImportLine.Keeps`, `Imports.exists_trim`: what is kept of a line, and what a text is rewritten to.
-/

import AnimationCode.Proofs.Account
import AnimationCode.Proofs.Import.Stretch
import AnimationCode.Proofs.Script.Token

namespace AnimationCode

namespace ImportLine

variable {line : ImportLine} {chars : List Char}

/-! ### What is bound -/

/-- The names that a line binds. -/
def localNames (line : ImportLine) : List String := (line.named ++ line.default?.toList).map localName

/-- A name of a module as it may be bound: under its own name, or under another one. -/
def IsBinding (spec : List Char) : Prop :=
  Script.IsName spec ∨ ∃ outer inner, Script.IsWord outer ∧ Script.IsName inner ∧ spec = outer ++ " as ".toList ++ inner

/-- A default, or a namespace that stands alone. -/
def IsWhole (line : ImportLine) (name : List Char) : Prop :=
  Script.IsName name ∨ line.named = [] ∧ ∃ inner, Script.IsName inner ∧ name = "* as ".toList ++ inner

/-- What is bound under a name that is a word, or under another one, or as a whole, as an import statement of the language has it. -/
def IsStatement (line : ImportLine) : Prop :=
  (∀ spec ∈ line.named, IsBinding spec.toList) ∧ ∀ name ∈ line.default?, IsWhole line name.toList

theorem splitOnText_of_not_mem {text : List Char} (absent : ' ' ∉ text) : Text.splitOnText " as ".toList text = [text] := by
  have all (fuel : Nat) (pending rest : List Char) (enough : rest.length ≤ fuel) (absent : ' ' ∉ rest) :
      Text.splitOnText.go " as ".toList fuel pending rest = [pending ++ rest] := by
    induction rest generalizing fuel pending with
    | nil =>
      rw [List.append_nil]
      cases fuel <;> rfl
    | cons c rest ih =>
      obtain ⟨fuel, rfl⟩ : ∃ less, fuel = less + 1 := ⟨fuel - 1, by rw [List.length_cons] at enough; omega⟩
      have other : ' ' ≠ c := List.ne_of_not_mem_cons absent
      have refused : Text.stripStart? " as ".toList (c :: rest) = none := if_neg other
      rw [Text.splitOnText.go, if_neg (by decide), refused]
      dsimp only
      rw [ih fuel (pending ++ [c]) (by simpa using enough) (List.not_mem_of_not_mem_cons absent), List.append_assoc]
      rfl
  exact all text.length [] text (Nat.le_refl _) absent

/-- A name that stands alone is bound as it is. -/
theorem localName_of_isName {name : String} (sound : line.IsSound) (member : name ∈ line.default?) (isName : Script.IsName name.toList) :
    localName name = name := by
  have solid : ∀ c ∈ name.toList, Text.isBlank c = false := by
    rcases (sound name member).2 with starred | solid
    · exact absurd (isName.all '*' (List.mem_of_mem_head? starred)) (by decide)
    · exact solid
  have absent : ' ' ∉ name.toList := fun among => absurd (solid ' ' among) (by decide)
  have trimmed : Text.trim (name.toList ++ []) = name.toList :=
    Text.trim_append (fun c head => solid c (List.mem_of_mem_head? head)) (fun c last => solid c (List.mem_of_getLast? last))
      isName.nonempty (List.forall_mem_nil _)
  rw [List.append_nil] at trimmed
  unfold localName
  dsimp only
  rw [splitOnText_of_not_mem absent, List.getLast?_singleton, Option.getD_some, trimmed, String.ofList_toList]

/-! ### What is left of a line -/

/-- A line without some names. -/
def without_ (removed : List String) (line : ImportLine) : ImportLine :=
  { line with named := line.named.filter fun spec => !removed.contains (localName spec)
              default? := line.default?.filter fun name => !removed.contains name }

/-- A line without some names; of some sources with the others in order. -/
def revised (removed : List String) (tidySources : Option (List String)) (line : ImportLine) : ImportLine :=
  let left := without_ removed line
  if tidySources.any (·.contains line.source) then { left with named := Imports.tidy left.named } else left

variable {removed : List String} {tidySources : Option (List String)}

@[simp] theorem source_revised (line : ImportLine) : (revised removed tidySources line).source = line.source := by
  unfold revised
  dsimp only
  split <;> rfl

@[simp] theorem typeOnly_revised (line : ImportLine) : (revised removed tidySources line).typeOnly = line.typeOnly := by
  unfold revised
  dsimp only
  split <;> rfl

theorem mem_tidy {spec : String} {named : List String} : spec ∈ Imports.tidy named ↔ spec ∈ named := by
  unfold Imports.tidy
  dsimp only
  rw [List.mem_mergeSort, List.mem_eraseDups]

theorem mem_named_revised {spec : String} :
    spec ∈ (revised removed tidySources line).named ↔ spec ∈ line.named ∧ localName spec ∉ removed := by
  have filtered : spec ∈ (without_ removed line).named ↔ spec ∈ line.named ∧ localName spec ∉ removed := by
    simp [without_]
  unfold revised
  dsimp only
  split
  · exact mem_tidy.trans filtered
  · exact filtered

theorem mem_default_revised {name : String} :
    name ∈ (revised removed tidySources line).default? ↔ name ∈ line.default? ∧ name ∉ removed := by
  have filtered : name ∈ (without_ removed line).default? ↔ name ∈ line.default? ∧ name ∉ removed := by
    rw [without_, Option.mem_filter_iff]
    simp
  unfold revised
  dsimp only
  split <;> exact filtered

/-- **What is kept of a line**: it is from the same source and of the same kind, and takes the same but what is removed. -/
structure Keeps (removed : List String) (line left : ImportLine) : Prop where
  source : left.source = line.source
  typeOnly : left.typeOnly = line.typeOnly
  named : ∀ spec, spec ∈ left.named ↔ spec ∈ line.named ∧ localName spec ∉ removed
  default : ∀ name, name ∈ left.default? ↔ name ∈ line.default? ∧ name ∉ removed
  distinct : line.named.Nodup → left.named.Nodup
  statement : line.IsStatement → left.IsStatement
  /-- A namespace is not removed, so that exactly the other names are bound where there is none. -/
  bound : (∀ name ∈ line.default?, Script.IsName name.toList) → ∀ name, name ∈ left.localNames ↔ name ∈ line.localNames ∧ name ∉ removed
  /-- What is written, unless nothing is left, is an import line that says so. -/
  written : left.isBare = false → ∀ indent, (∀ c ∈ indent, isIndent c = true) → Spells (indent ++ left.render.toList) left

theorem nodup_tidy {named : List String} : (Imports.tidy named).Nodup :=
  (List.mergeSort_perm _ _).nodup_iff.mpr (nodup_eraseDups named)

theorem nodup_named_revised (distinct : line.named.Nodup) : (revised removed tidySources line).named.Nodup := by
  unfold revised
  dsimp only
  split
  · exact nodup_tidy
  · exact distinct.filter _

theorem isStatement_revised (statement : line.IsStatement) : (revised removed tidySources line).IsStatement := by
  refine ⟨fun spec member => statement.1 spec (mem_named_revised.mp member).1, fun name member => ?_⟩
  rcases statement.2 name (mem_default_revised.mp member).1 with isName | ⟨alone, rest⟩
  · exact .inl isName
  · refine .inr ⟨List.eq_nil_iff_forall_not_mem.mpr fun spec member => ?_, rest⟩
    have known := (mem_named_revised.mp member).1
    rw [alone] at known
    cases known

theorem mem_localNames_revised (regular : line.IsRegular) (single : ∀ name ∈ line.default?, Script.IsName name.toList) (name : String) :
    name ∈ (revised removed tidySources line).localNames ↔ name ∈ line.localNames ∧ name ∉ removed := by
  have own : ∀ default ∈ line.default?, localName default = default := fun default member =>
    localName_of_isName regular.sound member (single default member)
  simp only [localNames, List.mem_map, List.mem_append, Option.mem_toList]
  constructor
  · rintro ⟨spec, named | default, rfl⟩
    · obtain ⟨known, kept⟩ := mem_named_revised.mp named
      exact ⟨⟨spec, .inl known, rfl⟩, kept⟩
    · obtain ⟨known, kept⟩ := mem_default_revised.mp default
      exact ⟨⟨spec, .inr known, rfl⟩, by rwa [own spec known]⟩
  · rintro ⟨⟨spec, named | default, rfl⟩, kept⟩
    · exact ⟨spec, .inl (mem_named_revised.mpr ⟨named, kept⟩), rfl⟩
    · exact ⟨spec, .inr (mem_default_revised.mpr ⟨default, by rwa [own spec default] at kept⟩), rfl⟩

/-- What is left of a regular line is regular. -/
theorem IsRegular.revised (regular : line.IsRegular) (filled : (revised removed tidySources line).isBare = false) :
    (ImportLine.revised removed tidySources line).IsRegular where
  source := by
    rw [source_revised]
    exact regular.source
  default name member := regular.default name (mem_default_revised.mp member).1
  named spec member := regular.named spec (mem_named_revised.mp member).1
  sound name member := regular.sound name (mem_default_revised.mp member).1
  filled := filled

/-- What is left of a line keeps the rest of it. -/
theorem keeps_revised (regular : line.IsRegular) : Keeps removed line (revised removed tidySources line) where
  source := source_revised line
  typeOnly := typeOnly_revised line
  named _ := mem_named_revised
  default _ := mem_default_revised
  distinct := nodup_named_revised
  statement := isStatement_revised
  bound := mem_localNames_revised regular
  written filled _ blank := (regular.revised filled).spells_render blank

theorem Spells.exists_indent (spells : Spells chars line) : ∃ indent rest, chars = indent ++ ("import".toList ++ rest) ∧
    (∀ c ∈ indent, isIndent c = true) ∧ chars.takeWhile Text.isBlank = indent := by
  obtain ⟨indent, head, quoted, -, rfl, blank, -⟩ := spells
  refine ⟨indent, head ++ quoted, rfl, blank, Text.takeWhile_run (fun c member => isBlank_of_isIndent (blank c member)) fun c member => ?_⟩
  obtain rfl := Option.some.inj member
  decide

/-! ### Where a text could go on as an import -/

/-- A text that begins as an import, with its clause, and ends behind the opening quote of its source. -/
def IsOpen (text : List Char) : Prop :=
  ∃ indent head mark source, text = indent ++ ("import".toList ++ (head ++ mark :: source)) ∧ (∀ c ∈ indent, isIndent c = true) ∧
    IsHead head ∧ (clauseOf? head).isSome = true ∧ isQuote mark = true ∧ ∀ c ∈ source, isQuote c = false

/-- A text some line of which begins as an import, with a quote that is left open. -/
def LeavesOpen (start : Bool) (text : List Char) : Prop :=
  start = true ∧ IsOpen text ∨ ∃ front back, text = front ++ '\n' :: back ∧ IsOpen back

theorem leavesOpen_append {front back : List Char} {start last : Bool} (step : last = true → front.getLast? = some '\n')
    (open_ : LeavesOpen last back) : LeavesOpen start (front ++ back) := by
  rcases open_ with ⟨isLast, open_⟩ | ⟨inner, outer, rfl, open_⟩
  · obtain ⟨front, rfl⟩ : ∃ shorter, front = shorter ++ ['\n'] := by
      obtain ⟨some_, same⟩ := List.getLast?_eq_some_iff.mp (step isLast)
      exact ⟨some_, same⟩
    exact .inr ⟨front, back, by simp, open_⟩
  · exact .inr ⟨front ++ inner, outer, by simp, open_⟩

/-- A text without quotes leaves none open. -/
theorem not_leavesOpen {text : List Char} (plain : ∀ c ∈ text, isQuote c = false) (start : Bool) : ¬ LeavesOpen start text := by
  have unopened {part : List Char} (within : part ⊆ text) : ¬ IsOpen part := by
    rintro ⟨indent, head, mark, source, rfl, -, -, -, isMark, -⟩
    rw [plain mark (within (by simp))] at isMark
    cases isMark
  rintro (⟨-, open_⟩ | ⟨front, back, rfl, open_⟩)
  · exact unopened (List.Subset.refl _) open_
  · exact unopened (fun c member => List.mem_append_right _ (List.mem_cons_of_mem _ member)) open_

/-- Behind a quoted source its line goes on. -/
theorem line_not_mem_tail {closing : Char} {sign blanks : List Char} (closes : isQuote closing = true)
    (signed : sign = [] ∨ sign = [';']) (blank : ∀ c ∈ blanks, isIndent c = true) : '\n' ∉ closing :: (sign ++ blanks) := by
  intro among
  rcases List.mem_cons.mp among with rfl | among
  · exact absurd closes (by decide)
  · rcases List.mem_append.mp among with among | among
    · rcases signed with rfl | rfl
      · cases among
      · exact absurd (List.mem_singleton.mp among) (by decide)
    · exact absurd (blank _ among) (by decide)

/-- A line break in a quoted source stands before its closing quote. -/
theorem IsQuoted.exists_mark {source quoted front : List Char} (isQuoted : IsQuoted source quoted) :
    ∀ {back}, quoted = front ++ back → front.getLast? = some '\n' → ∃ mark more, front = mark :: more ∧ isQuote mark = true ∧
      ∀ c ∈ more, isQuote c = false := by
  cases isQuoted with
  | @mk opening closing sign blanks opens closes isModule signed blank =>
    intro back split last
    cases front with
    | nil => cases last
    | cons mark more =>
      obtain ⟨rfl, within⟩ := List.cons.inj split
      refine ⟨opening, more, rfl, opens, ?_⟩
      rcases List.append_eq_append_iff.mp within with ⟨beyond, rfl, same⟩ | ⟨beyond, same, -⟩
      · cases beyond with
        | nil => exact fun c member => isModule.2 c (by simpa using member)
        | cons d beyond =>
          -- the line break would stand behind the closing quote
          have among : '\n' ∈ closing :: (sign ++ blanks) := by
            rw [same]
            refine List.mem_append_left _ (List.mem_of_getLast? ?_)
            rw [← List.cons_append, List.getLast?_append, List.getLast?_cons, Option.some_or] at last
            rw [List.getLast?_cons]
            exact last
          exact absurd among (line_not_mem_tail closes signed blank)
      · exact fun c member => isModule.2 c (same ▸ List.mem_append_left _ member)

theorem exists_isFrom_of_cut? {pending text clause : List Char} (cut : cut? pending text = some clause) :
    ∃ front back, text = front ++ back ∧ isFrom back = true := by
  induction text generalizing pending with
  | nil => cases cut
  | cons c text ih =>
    rw [cut?] at cut
    split at cut
    · rename_i here
      exact ⟨[], c :: text, rfl, here.2⟩
    · obtain ⟨front, back, rfl, begins⟩ := ih cut
      exact ⟨c :: front, back, rfl, begins⟩

theorem isSome_cut? {pending front back : List Char} (some_ : pending ++ front ≠ []) (begins : isFrom back = true) :
    (cut? pending (front ++ back)).isSome = true := by
  induction front generalizing pending with
  | nil =>
    cases back with
    | nil => cases begins
    | cons c back =>
      rw [List.nil_append, cut?, if_pos ⟨by simpa using some_, begins⟩]
      rfl
  | cons c front ih =>
    rw [List.cons_append, cut?]
    split
    · rfl
    · exact ih (by simp)

/-- Somewhere in what stands before the quote the word of the source begins. -/
theorem exists_isFrom_of_clauseOf? {head clause : List Char} {typeOnly : Bool} (read : clauseOf? head = some (typeOnly, clause))
    (some_ : clause ≠ []) : ∃ front back, head = front ++ back ∧ isFrom back = true := by
  have within {text clause : List Char} {blanks : Nat} (cut : firstCut? blanks text = some clause) :
      ∃ front back, text = front ++ back ∧ isFrom back = true := by
    obtain ⟨left, member, found⟩ := List.exists_of_findSome?_eq_some cut
    obtain ⟨front, back, rfl, begins⟩ := exists_isFrom_of_cut? found
    obtain ⟨before, rfl⟩ := suffix_of_mem_afterBlanks member
    exact ⟨before ++ front, back, by rw [List.append_assoc], begins⟩
  unfold clauseOf? at read
  split at read
  · rename_i found typed
    obtain ⟨left, stripped, cut⟩ := Option.bind_eq_some_iff.mp typed
    obtain ⟨front, back, rfl, begins⟩ := within cut
    have whole := Text.eq_append_of_stripStart? stripped
    refine ⟨head.takeWhile Text.isBlank ++ ("type".toList ++ front), back, ?_, begins⟩
    rw [List.append_assoc, List.append_assoc, ← whole, List.takeWhile_append_dropWhile]
  · split at read
    · exact within ‹_›
    · split at read
      · cases read
        exact absurd rfl some_
      · cases read

/-- A clause is found where the word of the source begins at the end. -/
theorem isSome_clauseOf? {front back : List Char} (first : front.head?.any Text.isBlank = true)
    (solid : ∃ c ∈ front, Text.isBlank c = false) (begins : isFrom back = true) : (clauseOf? (front ++ back)).isSome = true := by
  have split : (front ++ back).dropWhile Text.isBlank = front.dropWhile Text.isBlank ++ back := by
    obtain ⟨c, member, other⟩ := solid
    rw [List.dropWhile_append, if_neg]
    intro nothing
    rw [List.dropWhile_eq_nil_iff.mp (List.isEmpty_iff.mp nothing) c member] at other
    cases other
  have some_ : front.dropWhile Text.isBlank ≠ [] := by
    obtain ⟨c, member, other⟩ := solid
    intro nothing
    rw [List.dropWhile_eq_nil_iff.mp nothing c member] at other
    cases other
  unfold clauseOf?
  split
  · rfl
  · split
    · rfl
    · rename_i none_
      obtain ⟨c, rest, rfl⟩ : ∃ c rest, front = c :: rest := by
        cases front with
        | nil => cases first
        | cons c rest => exact ⟨c, rest, rfl⟩
      have blank : Text.isBlank c = true := first
      have drops : (c :: rest ++ back).drop ((c :: rest ++ back).takeWhile Text.isBlank).length =
          (c :: rest).dropWhile Text.isBlank ++ back := by
        rw [← split]
        simpa using drop_takeWhile_split Text.isBlank (c :: rest ++ back) []
      have found : (cut? [] ((c :: rest).dropWhile Text.isBlank ++ back)).isSome = true := isSome_cut? some_ begins
      rw [← drops, List.cons_append, List.takeWhile_cons_of_pos blank, List.length_cons] at found
      rw [List.cons_append, List.takeWhile_cons_of_pos blank, List.length_cons, firstCut?, afterBlanks, List.findSome?_cons] at none_
      cases cut : cut? [] ((c :: (rest ++ back)).drop (((rest ++ back).takeWhile Text.isBlank).length + 1)) with
      | none =>
        rw [cut] at found
        cases found
      | some clause =>
        rw [cut] at none_
        cases none_

theorem Spells.not_mem_getLast? {text : List Char} (spells : Spells text line) : text.getLast? ≠ some '\n' := by
  obtain ⟨indent, head, quoted, -, rfl, -, -, -, isQuoted, -⟩ := spells
  cases isQuoted with
  | @mk opening closing sign blanks _ closes _ signed blank =>
    intro last
    have inner : (closing :: (sign ++ blanks)).getLast? = some '\n' := by
      have parts : indent ++ ("import".toList ++ (head ++ opening :: (line.source.toList ++ closing :: (sign ++ blanks)))) =
          (indent ++ ("import".toList ++ (head ++ opening :: line.source.toList))) ++ closing :: (sign ++ blanks) := by simp
      rw [parts, List.getLast?_append, List.getLast?_cons, Option.some_or] at last
      rw [List.getLast?_cons]
      exact last
    exact line_not_mem_tail closes signed blank (List.mem_of_getLast? inner)

/-- The clause of a line that binds something is not empty. -/
theorem Spells.exists_isFrom {text : List Char} (spells : Spells text line) (filled : isBare line = false) :
    ∃ indent front back quoted, text = indent ++ ("import".toList ++ (front ++ back ++ quoted)) ∧ (∀ c ∈ indent, isIndent c = true) ∧
      IsHead (front ++ back) ∧ IsQuoted line.source.toList quoted ∧ isFrom back = true := by
  obtain ⟨indent, head, quoted, clause, rfl, blank, isHead, -, isQuoted, cut, named, default⟩ := spells
  have some_ : clause ≠ [] := by
    rintro rfl
    unfold isBare at filled
    rw [← named, ← default] at filled
    cases filled
  obtain ⟨front, back, rfl, begins⟩ := exists_isFrom_of_clauseOf? cut some_
  exact ⟨indent, front, back, quoted, rfl, blank, isHead, isQuoted, begins⟩

/-- Characters of clauses behind the word `import`, up to a line that binds something, are the beginning of what stands before the
quote of its source. -/
theorem Spells.not_beginsNone {text rest indent head : List Char} (spells : Spells text line) (filled : isBare line = false)
    (ends : EndsLine rest) (blank : ∀ c ∈ indent, isIndent c = true) (isHead : IsHead head)
    (spaced : head.head?.any Text.isBlank = true) : ¬ BeginsNone (indent ++ ("import".toList ++ head) ++ (text ++ rest)) := by
  intro none_
  obtain ⟨indent', front, back, quoted, rfl, blank', isFront, isQuoted, begins⟩ := spells.exists_isFrom filled
  have indented : ∀ c ∈ indent', isClausePart c = true := fun c member => by
    rcases eq_of_isIndent (blank' c member) with rfl | rfl <;> decide
  have whole : IsHead (head ++ indent' ++ "import".toList ++ front ++ back) := by
    intro c member
    simp only [List.mem_append] at member
    rcases member with (((among | among) | among) | among) | among
    · exact isHead c among
    · exact indented c among
    · exact (by decide : ∀ c ∈ "import".toList, isClausePart c = true) c among
    · exact isFront c (List.mem_append_left _ among)
    · exact isFront c (List.mem_append_right _ among)
  obtain ⟨c, head, rfl⟩ : ∃ c more, head = c :: more := by
    cases head with
    | nil => cases spaced
    | cons c head => exact ⟨c, head, rfl⟩
  have found : (clauseOf? (c :: head ++ indent' ++ "import".toList ++ front ++ back)).isSome = true :=
    isSome_clauseOf? spaced ⟨'i', by simp, by decide⟩ begins
  obtain ⟨⟨typeOnly, clause⟩, cut⟩ := Option.isSome_iff_exists.mp found
  exact none_ (indent ++ ("import".toList ++ (c :: head ++ indent' ++ "import".toList ++ front ++ back ++ quoted))) rest
    ⟨0, 0, line.source, defaultOf (bracedNames clause).2, (bracedNames clause).1, typeOnly⟩ (by simp) ends
    ⟨indent, _, quoted, clause, rfl, blank, whole, spaced, isQuoted, cut, rfl, rfl⟩

/-- **Whether an import line stands somewhere is decided before the next line that binds something**, unless a quote is open
there: what has no other character up to that line would have gone on through it. -/
theorem beginsNone_of_append {before text rest other : List Char} (none_ : BeginsNone (before ++ (text ++ rest)))
    (last : before.getLast? = some '\n') (spells : Spells text line) (filled : isBare line = false) (ends : EndsLine rest)
    (closed : ¬ IsOpen before) : BeginsNone (before ++ other) := by
  intro read left found same endsLeft spellsFound
  have broken : '\n' ∈ before := List.mem_of_getLast? last
  rcases List.append_eq_append_iff.mp same with ⟨beyond, rfl, -⟩ | ⟨beyond, rfl, rfl⟩
  · -- the line that would be read goes on behind the text before
    obtain ⟨indent, head, quoted, clause, split, blank, isHead, spaced, isQuoted, cut, -⟩ := spellsFound
    rcases List.append_eq_append_iff.mp split with ⟨more, rfl, -⟩ | ⟨more, rfl, onward⟩
    · exact absurd (blank _ (List.mem_append_left _ broken)) (by decide)
    rcases List.append_eq_append_iff.mp onward with ⟨middle, rfl, later⟩ | ⟨middle, early, -⟩
    · rcases List.append_eq_append_iff.mp later with ⟨quote, rfl, behind⟩ | ⟨others, rfl, -⟩
      · by_cases nothing : quote = []
        · obtain rfl := nothing
          exact spells.not_beginsNone filled ends blank isHead spaced (by simpa using none_)
        · obtain ⟨c, tail, rfl⟩ := List.exists_cons_of_ne_nil nothing
          have ended : (c :: tail).getLast? = some '\n' := by
            have parts : indent ++ ("import".toList ++ (head ++ c :: tail)) = (indent ++ ("import".toList ++ head)) ++ c :: tail := by simp
            rw [parts, List.getLast?_append, List.getLast?_cons, Option.some_or] at last
            rw [List.getLast?_cons]
            exact last
          obtain ⟨mark, source, same, isMark, solid⟩ := isQuoted.exists_mark behind ended
          exact closed ⟨indent, head, mark, source, by rw [same], blank, isHead, by rw [cut]; rfl, isMark, solid⟩
      · have some_ : middle ≠ [] := by
          rintro rfl
          rcases List.mem_append.mp broken with among | among
          · exact absurd (blank _ among) (by decide)
          · exact absurd among (by decide)
        obtain ⟨c, middle, rfl⟩ := List.exists_cons_of_ne_nil some_
        exact spells.not_beginsNone filled ends blank (fun d member => isHead d (List.mem_append_left _ member)) spaced none_
    · have among : '\n' ∈ indent ++ "import".toList := by
        rw [early, ← List.append_assoc]
        exact List.mem_append_left _ broken
      rcases List.mem_append.mp among with among | among
      · exact absurd (blank _ among) (by decide)
      · exact absurd among (by decide)
  · cases beyond with
    | nil => exact spellsFound.not_mem_getLast? (by simpa using last)
    | cons d beyond =>
      obtain rfl : d = '\n' := by simpa [EndsLine] using endsLeft
      exact none_ read _ found (by rw [List.append_assoc]) (.inr rfl) spellsFound

end ImportLine

open ImportLine (Spells EndsLine BeginsNone IsHead isIndent isQuote isBare revised readAll clauseOf? isFrom cut? firstCut? IsSound)

namespace Stretch

variable {removed : List String} {tidySources : Option (List String)} {chars before : List Char} {line : ImportLine}
variable {stretches rest left : List Stretch} {start : Bool}

/-- **What becomes of the stretches of a text.** -/
inductive Trims (removed : List String) (tidySources : Option (List String)) : List Stretch → List Stretch → Prop
  | nil : Trims removed tidySources [] []
  | other {c : Char} {rest left : List Stretch} (later : Trims removed tidySources rest left) :
    Trims removed tidySources (.other c :: rest) (.other c :: left)
  | bare {chars : List Char} {line : ImportLine} {rest left : List Stretch} (bare : isBare line = true)
    (later : Trims removed tidySources rest left) :
    Trims removed tidySources (.statement chars line :: rest) (.statement chars line :: left)
  | kept {indent tail : List Char} {line : ImportLine} {rest left : List Stretch} (filled : isBare line = false)
    (some_ : isBare (revised removed tidySources line) = false) (blank : ∀ c ∈ indent, isIndent c = true)
    (later : Trims removed tidySources rest left) :
    Trims removed tidySources (.statement (indent ++ ("import".toList ++ tail)) line :: rest)
      (.statement (indent ++ (revised removed tidySources line).render.toList) (revised removed tidySources line) :: left)
  | gone {chars : List Char} {line : ImportLine} {rest left : List Stretch} (filled : isBare line = false)
    (nothing : isBare (revised removed tidySources line) = true) (later : Trims removed tidySources rest left) :
    Trims removed tidySources (.statement chars line :: .other '\n' :: rest) left
  | last {chars : List Char} {line : ImportLine} (filled : isBare line = false)
    (nothing : isBare (revised removed tidySources line) = true) : Trims removed tidySources [.statement chars line] []

/-- What is done to one line. -/
theorem trimLine_append (line : ImportLine) (before chars behind : List Char) :
    Imports.trimLine removed tidySources { line with start := before.length, stop := before.length + chars.length }
        (before ++ (chars ++ behind)) =
      if isBare line then before ++ (chars ++ behind)
      else if isBare (revised removed tidySources line) then
        before ++ behind.drop (if behind.head? = some '\n' then 1 else 0)
      else before ++ (chars.takeWhile Text.isBlank ++ (revised removed tidySources line).render.toList ++ behind) := by
  have till : (before ++ (chars ++ behind)).take before.length = before := List.take_left
  have past : (before ++ (chars ++ behind)).drop (before.length + chars.length) = behind := by
    rw [← List.append_assoc, ← List.length_append]
    exact List.drop_left
  have inside : Imports.slice (before ++ (chars ++ behind)) before.length (before.length + chars.length) = chars := by
    rw [Imports.slice, ← List.append_assoc, ← List.length_append, List.take_left, List.drop_left]
  have named : (if tidySources.any (·.contains line.source) then
      Imports.tidy (line.named.filter fun spec => !removed.contains (ImportLine.localName spec))
        else line.named.filter fun spec => !removed.contains (ImportLine.localName spec)) = (revised removed tidySources line).named := by
    unfold revised
    dsimp only
    split <;> rfl
  have default : line.default?.filter (fun name => !removed.contains name) = (revised removed tidySources line).default? := by
    unfold revised
    dsimp only
    split <;> rfl
  have rendered (start stop : Nat) : ImportLine.render ⟨start, stop, line.source, (revised removed tidySources line).default?,
      (revised removed tidySources line).named, line.typeOnly⟩ = (revised removed tidySources line).render := by
    unfold revised
    dsimp only
    split <;> rfl
  unfold Imports.trimLine
  dsimp only
  rw [named, default, rendered, till, past, inside]
  change (if isBare line = true then _ else if isBare (revised removed tidySources line) = true then _ else _) = _
  split
  · rfl
  · split
    · refine congrArg (before ++ ·) ?_
      split
      · rw [← List.drop_drop, past]
      · rw [past]
        rfl
    · simp

/-- **A text without some names, told by its stretches.** -/
theorem exists_foldr_trimLine (removed : List String) (tidySources : Option (List String)) (read : AreRead start stretches) :
    ∃ left, Trims removed tidySources stretches left ∧ ∀ before : List Char,
      (placed before.length stretches).foldr (Imports.trimLine removed tidySources) (before ++ whole stretches) =
        before ++ whole left := by
  induction read with
  | nil => exact ⟨[], .nil, fun _ => rfl⟩
  | @other start c rest none_ later ih =>
    obtain ⟨left, trims, same⟩ := ih
    refine ⟨.other c :: left, .other trims, fun before => ?_⟩
    have inner := same (before ++ [c])
    rw [List.length_append, List.length_singleton, List.append_assoc, List.append_assoc] at inner
    exact inner
  | @statement chars line rest spells ends later ih =>
    obtain ⟨left, trims, same⟩ := ih
    have step (before : List Char) : (placed before.length (.statement chars line :: rest)).foldr
        (Imports.trimLine removed tidySources) (before ++ whole (.statement chars line :: rest)) =
        Imports.trimLine removed tidySources { line with start := before.length, stop := before.length + chars.length }
          (before ++ (chars ++ whole left)) := by
      have inner := same (before ++ chars)
      rw [List.length_append, List.append_assoc, List.append_assoc] at inner
      rw [placed, List.foldr_cons, whole_statement, inner]
    obtain ⟨indent, tail, split, blank, taken⟩ := spells.exists_indent
    by_cases bare : isBare line = true
    · refine ⟨.statement chars line :: left, .bare bare trims, fun before => ?_⟩
      rw [step, trimLine_append, if_pos bare, whole_statement]
    · by_cases nothing : isBare (revised removed tidySources line) = true
      · cases later with
        | nil =>
          cases trims
          refine ⟨[], .last (by simpa using bare) nothing, fun before => ?_⟩
          rw [step, trimLine_append, if_neg bare, if_pos nothing]
          rfl
        | @other _ c rest none_ later =>
          obtain rfl : c = '\n' := by simpa [EndsLine] using ends
          cases trims with
          | @other _ _ left trims =>
            refine ⟨left, .gone (by simpa using bare) nothing trims, fun before => ?_⟩
            rw [step, trimLine_append, if_neg bare, if_pos nothing]
            rfl
      · refine ⟨.statement (indent ++ (revised removed tidySources line).render.toList) (revised removed tidySources line) :: left,
          split ▸ .kept (by simpa using bare) (by simpa using nothing) blank trims, fun before => ?_⟩
        rw [step, trimLine_append, if_neg bare, if_neg nothing, taken, whole_statement]

theorem exists_trims (removed : List String) (tidySources : Option (List String)) (read : AreRead true stretches) :
    ∃ left, Trims removed tidySources stretches left ∧ Imports.trim (whole stretches) removed tidySources = whole left := by
  obtain ⟨left, trims, same⟩ := exists_foldr_trimLine removed tidySources read
  refine ⟨left, trims, ?_⟩
  rw [Imports.trim, readAll_whole read]
  exact same []

/-! ### What is written is read again -/

/-- A text goes on unchanged up to a line that binds something. -/
theorem Trims.exists_changed (trims : Trims removed tidySources stretches left) : left = stretches ∨
    ∃ before chars line rest more, stretches = before ++ .statement chars line :: rest ∧ left = before ++ more ∧ isBare line = false := by
  induction trims with
  | nil => exact .inl rfl
  | other _ ih =>
    rcases ih with rfl | ⟨before, chars, line, rest, more, rfl, rfl, filled⟩
    · exact .inl rfl
    · exact .inr ⟨.other _ :: before, chars, line, rest, more, rfl, rfl, filled⟩
  | bare _ _ ih =>
    rcases ih with rfl | ⟨before, chars, line, rest, more, rfl, rfl, filled⟩
    · exact .inl rfl
    · exact .inr ⟨.statement _ _ :: before, chars, line, rest, more, rfl, rfl, filled⟩
  | kept filled => exact .inr ⟨[], _, _, _, _, rfl, rfl, filled⟩
  | gone filled => exact .inr ⟨[], _, _, _, _, rfl, rfl, filled⟩
  | last filled => exact .inr ⟨[], _, _, _, _, rfl, rfl, filled⟩

/-- An import line stands at the beginning of a line. -/
theorem AreRead.getLast?_before (read : AreRead start stretches) {before : List Stretch}
    (split : stretches = before ++ .statement chars line :: rest) :
    (before = [] ∧ start = true) ∨ (whole before).getLast? = some '\n' := by
  induction read generalizing before with
  | nil => simp at split
  | @other start c more none_ later ih =>
    cases before with
    | nil => cases split
    | cons stretch before =>
      obtain ⟨rfl, rfl⟩ := List.cons.inj split
      refine .inr ?_
      rcases ih rfl with ⟨rfl, same⟩ | last
      · rw [beq_iff_eq.mp same]
        rfl
      · rw [whole_other, List.getLast?_cons, last]
        rfl
  | @statement text found more spells ends later ih =>
    cases before with
    | nil => exact .inl ⟨rfl, rfl⟩
    | cons stretch before =>
      obtain ⟨rfl, rfl⟩ := List.cons.inj split
      rcases ih rfl with ⟨rfl, same⟩ | last
      · cases same
      · exact .inr (by rw [whole_statement, List.getLast?_append, last]; rfl)

theorem AreRead.getLast?_cons {c : Char} (later : AreRead (c == '\n') stretches) {before : List Stretch}
    (split : stretches = before ++ .statement chars line :: rest) : (c :: whole before).getLast? = some '\n' := by
  rcases later.getLast?_before split with ⟨rfl, same⟩ | last
  · rw [beq_iff_eq.mp same]
    rfl
  · rw [List.getLast?_cons, last]
    rfl

/-- No text before an import line leaves a quote open. -/
def Closed (start : Bool) (stretches : List Stretch) : Prop := ∀ before chars line rest,
  stretches = before ++ .statement chars line :: rest → ¬ ImportLine.LeavesOpen start (whole before)

theorem Closed.tail {stretch : Stretch} {last : Bool} (closed : Closed start (stretch :: rest))
    (step : last = true → stretch.text.getLast? = some '\n') : Closed last rest := by
  rintro before chars line more rfl open_
  exact closed (stretch :: before) chars line more rfl (ImportLine.leavesOpen_append step open_)

/-- What stands at the beginning of a text is as it was, if the text does not begin with a line that binds something. -/
theorem AreRead.endsLine_trims (read : AreRead false stretches) (trims : Trims removed tidySources stretches left)
    (ends : EndsLine (whole stretches)) : EndsLine (whole left) := by
  cases read with
  | nil =>
    cases trims
    exact ends
  | other none_ later =>
    cases trims
    exact ends.imp (fun nothing => by cases nothing) fun first => first

/-- The lines of a text whose defaults are sound. -/
def Sound (stretches : List Stretch) : Prop := ∀ chars line, .statement chars line ∈ stretches → line.IsSound

theorem AreRead.of_append {before : List Stretch} (read : AreRead start (before ++ .statement chars line :: rest)) :
    Spells chars line ∧ EndsLine (whole rest) := by
  induction before generalizing start with
  | nil =>
    cases read with
    | statement spells ends later => exact ⟨spells, ends⟩
  | cons stretch before ih =>
    cases read with
    | other none_ later => exact ih later
    | statement spells ends later => exact ih later

/-- What stands behind a character begins no import line afterwards, if it did not before. -/
theorem AreRead.beginsNone_trims {c : Char} (later : AreRead (c == '\n') rest) (none_ : BeginsNone (c :: whole rest))
    (trims : Trims removed tidySources rest left) (closed : Closed true (.other c :: rest)) : BeginsNone (c :: whole left) := by
  rcases trims.exists_changed with rfl | ⟨before, chars, line, more, others, rfl, rfl, filled⟩
  · exact none_
  · obtain ⟨spells, ends⟩ := later.of_append
    rw [whole_append, ← List.cons_append] at none_ ⊢
    exact ImportLine.beginsNone_of_append none_ (later.getLast?_cons rfl) spells filled ends
      fun open_ => closed (.other c :: before) chars line more rfl (.inl ⟨rfl, open_⟩)

/-- **The lines of what is written are those that are read from it.** -/
theorem AreRead.trims (read : AreRead start stretches) (trims : Trims removed tidySources stretches left)
    (sound : Sound stretches) (closed : Closed start stretches) : AreRead start left := by
  induction read generalizing left with
  | nil =>
    cases trims
    exact .nil
  | @other start c rest none_ later ih =>
    cases trims with
    | @other _ _ left trims =>
      refine .other (fun first => ?_) (ih trims (fun chars line member => sound chars line (List.mem_cons_of_mem _ member))
        (closed.tail fun same => by rw [beq_iff_eq.mp same]; rfl))
      obtain rfl := first
      exact later.beginsNone_trims (none_ rfl) trims closed
  | @statement chars line rest spells ends later ih =>
    have soundLater : Sound rest := fun chars line member => sound chars line (List.mem_cons_of_mem _ member)
    have closedLater : Closed false rest := closed.tail fun same => by cases same
    cases trims with
    | bare bare trims => exact .statement spells (later.endsLine_trims trims ends) (ih trims soundLater closedLater)
    | kept filled some_ blank trims =>
      have regular := ImportLine.isRegular_of_spells spells (sound _ _ List.mem_cons_self) filled
      exact .statement ((regular.revised some_).spells_render blank) (later.endsLine_trims trims ends)
        (ih trims soundLater closedLater)
    | gone filled nothing trims =>
      cases ih (.other trims) soundLater closedLater with
      | other none_ later => exact later
    | last filled nothing => exact .nil

/-! ### The text -/

theorem sound_of_readAll (read : AreRead true stretches) (sound : ∀ line ∈ readAll (whole stretches), line.IsSound) : Sound stretches := by
  intro chars line member
  obtain ⟨before, after, rfl⟩ := List.append_of_mem member
  rw [readAll_whole read] at sound
  have here := sound _ ((mem_placed_iff 0).mpr ⟨before, chars, line, after, rfl, rfl⟩)
  exact here

theorem closed_of_readAll (read : AreRead true stretches)
    (closed : ∀ line ∈ readAll (whole stretches), ¬ ImportLine.LeavesOpen true ((whole stretches).take line.start)) :
    Closed true stretches := by
  rintro before chars line rest rfl
  rw [readAll_whole read] at closed
  have here := closed _ ((mem_placed_iff 0).mpr ⟨before, chars, line, rest, rfl, rfl⟩)
  rwa [Nat.zero_add, whole_append, List.take_left] at here

end Stretch

open Stretch (whole AreRead Trims placed)

/-- **A text whose imports are rewritten.** Each line that binds something is written anew with what is left of it, or is gone with
its line break; everything else is as it was. A line with a sound default keeps what is not removed, and what is written for it
says so. If all of them are sound and no text before a line leaves a quote open, no other lines are read afterwards. -/
theorem Imports.exists_trim (text : List Char) (removed : List String) (tidySources : Option (List String)) :
    ∃ before after, whole before = text ∧ AreRead true before ∧ whole after = Imports.trim text removed tidySources ∧
      Trims removed tidySources before after ∧
      (∀ chars line, .statement chars line ∈ before → isBare line = false → line.IsSound →
        ImportLine.Keeps removed line (revised removed tidySources line)) ∧
      (Stretch.Sound before → Stretch.Closed true before → AreRead true after) := by
  obtain ⟨before, rfl, read⟩ := Stretch.exists_areRead true text
  obtain ⟨after, trims, same⟩ := Stretch.exists_trims removed tidySources read
  refine ⟨before, after, rfl, read, same.symm, trims, fun chars line member filled sound => ?_, read.trims trims⟩
  obtain ⟨front, back, rfl⟩ := List.append_of_mem member
  exact ImportLine.keeps_revised (ImportLine.isRegular_of_spells read.of_append.1 sound filled)

/-- A name that nothing uses leaves its line, the other one stays. -/
theorem Imports.exists_trim_box : ∃ before after,
    whole before = "import \x7b motion, animate \x7d from 'motion';\n\nanimate(box);\n".toList ∧ AreRead true before ∧
    whole after = "import \x7b animate \x7d from 'motion';\n\nanimate(box);\n".toList ∧ AreRead true after ∧
    Trims ["motion"] none before after := by
  have lines : readAll "import \x7b motion, animate \x7d from 'motion';\n\nanimate(box);\n".toList =
      [⟨0, 41, "motion", none, ["motion", "animate"], false⟩] := by decide +kernel
  have rewritten : Imports.trim "import \x7b motion, animate \x7d from 'motion';\n\nanimate(box);\n".toList ["motion"] none =
      "import \x7b animate \x7d from 'motion';\n\nanimate(box);\n".toList := by decide +kernel
  obtain ⟨before, after, same, read, left, trims, -, readLeft⟩ :=
    Imports.exists_trim "import \x7b motion, animate \x7d from 'motion';\n\nanimate(box);\n".toList ["motion"] none
  have sound : Stretch.Sound before := Stretch.sound_of_readAll read (by
    rw [same, lines]
    exact List.forall_mem_singleton.mpr fun name known => by cases known)
  have closed : Stretch.Closed true before := Stretch.closed_of_readAll read (by
    rw [same, lines]
    exact List.forall_mem_singleton.mpr (ImportLine.not_leavesOpen (List.forall_mem_nil _) true))
  exact ⟨before, after, same, read, left.trans rewritten, readLeft sound closed, trims⟩

end AnimationCode
