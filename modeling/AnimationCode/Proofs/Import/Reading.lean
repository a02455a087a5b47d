/-
**What is read as an import line.**

Up to the quote of its source an import line has characters of clauses only, blanks and the word before the source among
them. So what stands before the first other character decides alone whether there is a clause and which, and the quoted
source behind it decides the rest.

* `ImportLine.IsQuoted`, `ImportLine.readSource?_eq_some_iff`: a source between quotes that ends its line;
* `ImportLine.cut?`, `ImportLine.readClause?_split`: where a clause ends, told from what stands before the quote;
* `ImportLine.clauseOf?`, `ImportLine.readBody?_split`: the clause behind the word `import`;
* `ImportLine.Spells`, `ImportLine.readAt?_eq_some_iff`: a text that is an import line, before the end of its line.
-/

import AnimationCode.Proofs.Import.Line

namespace AnimationCode

namespace ImportLine

open Text (isBlank stripStart? eq_append_of_stripStart? stripStart?_append EndsRun exists_run takeWhile_run dropWhile_run)

variable {clause more source rest before after quoted cs : List Char} {line : ImportLine} {start : Nat}

/-! ### The source -/

/-- A source between quotes, perhaps with a semicolon and blanks behind it. -/
inductive IsQuoted (source : List Char) : List Char → Prop
  | mk {opening closing : Char} {sign blanks : List Char} (opens : isQuote opening = true) (closes : isQuote closing = true)
    (isModule : IsModule source) (signed : sign = [] ∨ sign = [';']) (blank : ∀ c ∈ blanks, isIndent c = true) :
    IsQuoted source (opening :: (source ++ closing :: (sign ++ blanks)))

theorem eq_of_isIndent {c : Char} (indents : isIndent c = true) : c = ' ' ∨ c = '\t' := by
  simpa [isIndent] using indents

theorem isBlank_of_isIndent {c : Char} (indents : isIndent c = true) : isBlank c = true := by
  rcases eq_of_isIndent indents with rfl | rfl <;> decide

theorem EndsLine.endsRun (ends : EndsLine rest) {keeps : Char → Bool} (other : keeps '\n' = false) : EndsRun keeps rest := by
  intro c member
  rcases ends with ends | ends
  · rw [ends] at member
    cases member
  · rw [ends] at member
    obtain rfl := Option.some.inj member
    exact other

/-- What follows the closing quote of a source. -/
def afterSign (after : List Char) : List Char :=
  (match after with
    | ';' :: tail => tail
    | tail => tail).dropWhile isIndent

theorem afterSign_cons (tail : List Char) : afterSign (';' :: tail) = tail.dropWhile isIndent := rfl

theorem afterSign_of_ne (unsigned : ∀ tail, after ≠ ';' :: tail) : afterSign after = after.dropWhile isIndent := by
  unfold afterSign
  split
  · exact absurd rfl (unsigned _)
  · rfl

theorem exists_of_afterSign (after : List Char) : ∃ sign blanks, after = sign ++ blanks ++ afterSign after ∧
    (sign = [] ∨ sign = [';']) ∧ ∀ c ∈ blanks, isIndent c = true := by
  by_cases signed : ∃ tail, after = ';' :: tail
  · obtain ⟨tail, rfl⟩ := signed
    refine ⟨[';'], tail.takeWhile isIndent, ?_, .inr rfl, Text.all_takeWhile isIndent tail⟩
    rw [afterSign_cons, List.append_assoc, List.takeWhile_append_dropWhile]
    rfl
  · refine ⟨[], after.takeWhile isIndent, ?_, .inl rfl, Text.all_takeWhile isIndent after⟩
    rw [afterSign_of_ne fun tail same => signed ⟨tail, same⟩, List.nil_append, List.takeWhile_append_dropWhile]

theorem afterSign_append {sign blanks : List Char} (signed : sign = [] ∨ sign = [';']) (blank : ∀ c ∈ blanks, isIndent c = true)
    (ends : EndsLine rest) : afterSign (sign ++ blanks ++ rest) = rest := by
  have dropped : (blanks ++ rest).dropWhile isIndent = rest := dropWhile_run blank (ends.endsRun (by decide))
  rcases signed with rfl | rfl
  · refine (afterSign_of_ne fun tail same => ?_).trans dropped
    cases blanks with
    | nil =>
      rw [List.nil_append, List.nil_append] at same
      rw [same] at ends
      simp [EndsLine] at ends
    | cons c blanks =>
      obtain rfl : c = ';' := (List.cons.inj same).1
      exact absurd (blank ';' List.mem_cons_self) (by decide)
  · exact dropped

variable {opening closing : Char}

theorem readSource?_closed (solid : ∀ c ∈ source, isQuote c = false) (closes : isQuote closing = true) :
    readSource? (opening :: (source ++ closing :: after)) =
      if isQuote opening && source != [] && ((afterSign after).head? == none || (afterSign after).head? == some '\n') then
        some (source, afterSign after)
      else none := by
  have inside : (source ++ closing :: after).takeWhile (fun c => !isQuote c) = source :=
    takeWhile_run (fun c member => by rw [solid c member]; rfl) fun c member => by
      obtain rfl := Option.some.inj member
      rw [closes]
      rfl
  unfold readSource?
  dsimp only
  rw [inside, List.drop_left]
  rfl

/-- A source has a closing quote. -/
theorem readSource?_open (solid : ∀ c ∈ source, isQuote c = false) : readSource? (opening :: source) = none := by
  have inside : source.takeWhile (fun c => !isQuote c) = source :=
    List.takeWhile_eq_self_iff.mpr fun c member => by rw [solid c member]; rfl
  unfold readSource?
  dsimp only
  rw [inside, List.drop_length]

theorem readSource?_eq_some_iff :
    readSource? cs = some (source, rest) ↔ ∃ quoted, IsQuoted source quoted ∧ cs = quoted ++ rest ∧ EndsLine rest := by
  constructor
  · intro read
    cases cs with
    | nil => cases read
    | cons opening cs =>
      obtain ⟨inside, after, rfl, solid, stops⟩ := exists_run (fun c => !isQuote c) cs
      have solid : ∀ c ∈ inside, isQuote c = false := fun c member => by simpa using solid c member
      cases after with
      | nil =>
        rw [List.append_nil, readSource?_open solid] at read
        cases read
      | cons closing after =>
        have closes : isQuote closing = true := by simpa using stops closing rfl
        rw [readSource?_closed solid closes] at read
        split at read
        · rename_i good
          obtain ⟨rfl, rfl⟩ := Prod.ext_iff.mp (Option.some.inj read)
          simp only [Bool.and_eq_true, Bool.or_eq_true, beq_iff_eq, bne_iff_ne] at good
          obtain ⟨sign, blanks, same, signed, blank⟩ := exists_of_afterSign after
          refine ⟨_, .mk good.1.1 closes ⟨good.1.2, solid⟩ signed blank, ?_, good.2⟩
          dsimp only
          conv_lhs => rw [same]
          simp
        · cases read
  · rintro ⟨quoted, ⟨opens, closes, isModule, signed, blank⟩, rfl, ends⟩
    rw [List.cons_append, List.append_assoc, List.cons_append, readSource?_closed isModule.2 closes,
      afterSign_append signed blank ends, if_pos]
    rw [opens, Bool.true_and, Bool.and_eq_true, Bool.or_eq_true]
    exact ⟨bne_iff_ne.mpr isModule.1, ends.imp beq_iff_eq.mpr beq_iff_eq.mpr⟩

/-! ### Where a clause ends -/

/-- The word before a source, with the blanks around it. -/
def isFrom (text : List Char) : Bool :=
  text.head?.any isBlank &&
    match stripStart? "from".toList (text.dropWhile isBlank) with
    | some rest => rest.head?.any isBlank && rest.all isBlank
    | none => false

/-- The shortest clause, at least a character long, that the word before the source follows up to the end of a text. -/
def cut? (clause : List Char) : List Char → Option (List Char)
  | [] => none
  | c :: cs => if clause ≠ [] ∧ isFrom (c :: cs) = true then some clause else cut? (clause ++ [c]) cs

/-- What stands between the word `import` and the quote of the source. -/
def IsHead (text : List Char) : Prop := ∀ c ∈ text, isClausePart c = true

/-- A text that no character of a clause begins. -/
abbrev EndsHead (text : List Char) : Prop := EndsRun isClausePart text

variable {head tail : List Char}

theorem isClausePart_of_isBlank {c : Char} (blank : isBlank c = true) : isClausePart c = true := by
  simp [isClausePart, blank]

theorem EndsHead.isBlank (ends : EndsHead tail) : EndsRun isBlank tail := by
  intro c member
  cases blank : Text.isBlank c with
  | false => rfl
  | true =>
    have part := ends c member
    rw [isClausePart_of_isBlank blank] at part
    cases part

theorem readSource?_of_isHead (isHead : IsHead head) (some_ : head ≠ []) : readSource? (head ++ tail) = none := by
  obtain ⟨c, head, rfl⟩ := List.exists_cons_of_ne_nil some_
  exact readSource?_cons (isQuote_of_isClausePart (isHead c List.mem_cons_self)) _

/-- A word is the beginning of a text if it is the beginning of what stands before the quote. -/
theorem stripStart?_split {word : List Char} (parts : ∀ c ∈ word, isClausePart c = true) (ends : EndsHead tail) :
    stripStart? word (head ++ tail) = (stripStart? word head).map (· ++ tail) := by
  cases here : stripStart? word head with
  | some left =>
    rw [eq_append_of_stripStart? here, List.append_assoc, stripStart?_append]
    rfl
  | none =>
    cases whole : stripStart? word (head ++ tail) with
    | none => rfl
    | some left =>
      rcases List.append_eq_append_iff.mp (eq_append_of_stripStart? whole) with ⟨last, split, beyond⟩ | ⟨last, split, beyond⟩
      · cases last with
        | nil =>
          rw [show head = word ++ [] by simpa using split.symm, stripStart?_append] at here
          cases here
        | cons c last =>
          have part := parts c (split ▸ List.mem_append_right _ List.mem_cons_self)
          rw [ends c (by rw [beyond]; rfl)] at part
          cases part
      · rw [split, stripStart?_append] at here
        cases here

theorem dropWhile_split {keeps : Char → Bool} (ends : EndsRun keeps tail) :
    (head ++ tail).dropWhile keeps = head.dropWhile keeps ++ tail := by
  rw [List.dropWhile_append]
  split
  · rename_i nothing
    rw [List.isEmpty_iff.mp nothing, List.nil_append]
    simpa using dropWhile_run (List.forall_mem_nil _) ends
  · rfl

theorem IsHead.dropWhile (isHead : IsHead head) (keeps : Char → Bool) : IsHead (head.dropWhile keeps) :=
  fun c member => isHead c ((List.dropWhile_sublist keeps).subset member)

theorem head?_any_split {keeps : Char → Bool} (ends : EndsRun keeps tail) : (head ++ tail).head?.any keeps = head.head?.any keeps := by
  cases head with
  | cons c head => rfl
  | nil =>
    cases tail with
    | nil => rfl
    | cons c tail => exact ends c rfl

theorem readFrom?_split (isHead : IsHead head) (ends : EndsHead tail) :
    readFrom? (head ++ tail) = if isFrom head = true then readSource? tail else none := by
  unfold readFrom? isFrom
  rw [head?_any_split ends.isBlank, dropWhile_split ends.isBlank, stripStart?_split (by decide) ends]
  cases blank : head.head?.any isBlank with
  | false => rfl
  | true =>
    rw [if_pos rfl, Bool.true_and]
    cases stripped : stripStart? "from".toList (head.dropWhile isBlank) with
    | none => rfl
    | some left =>
      have isLeft : IsHead left := fun c member =>
        isHead.dropWhile isBlank c (eq_append_of_stripStart? stripped ▸ List.mem_append_right _ member)
      rw [Option.map_some]
      dsimp only
      rw [head?_any_split ends.isBlank, dropWhile_split ends.isBlank]
      by_cases spaced : left.head?.any isBlank = true
      · simp only [spaced, if_true, Bool.true_and]
        cases all : left.all isBlank with
        | true =>
          rw [List.dropWhile_eq_nil_iff.mpr (List.all_eq_true.mp all), List.nil_append, if_pos rfl]
        | false =>
          rw [if_neg Bool.false_ne_true]
          refine readSource?_of_isHead (isLeft.dropWhile isBlank) fun nothing => ?_
          rw [List.all_eq_true.mpr (List.dropWhile_eq_nil_iff.mp nothing)] at all
          cases all
      · simp [spaced]

theorem readClause?_endsHead (ends : EndsHead tail) (clause : List Char) : readClause? clause tail = none := by
  cases tail with
  | nil => rfl
  | cons c tail =>
    have other : isClausePart c = false := ends c rfl
    have early : readFrom? (c :: tail) = none := by
      have nothing : IsHead [] := List.forall_mem_nil _
      exact readFrom?_split nothing ends
    rw [readClause?, early, ite_self, other]
    rfl

/-- **A clause ends where what stands before the quote says so**, if a source stands between quotes there. -/
theorem readClause?_split (isHead : IsHead head) (ends : EndsHead tail) (clause : List Char) :
    readClause? clause (head ++ tail) =
      (readSource? tail).bind fun (source, rest) => (cut? clause head).map fun clause => (clause, source, rest) := by
  induction head generalizing clause with
  | nil =>
    rw [List.nil_append, readClause?_endsHead ends]
    cases readSource? tail <;> rfl
  | cons c head ih =>
    have within : IsHead head := fun d member => isHead d (List.mem_cons_of_mem _ member)
    have from_ : readFrom? (c :: (head ++ tail)) = _ := readFrom?_split isHead ends
    rw [List.cons_append, readClause?, from_, cut?]
    dsimp only
    rw [if_pos (isHead c List.mem_cons_self), ih within]
    by_cases empty : clause = []
    · rw [if_pos empty, if_neg fun both => both.1 empty]
    · rw [if_neg empty]
      by_cases found : isFrom (c :: head) = true
      · rw [if_pos found, if_pos ⟨empty, found⟩]
        cases readSource? tail <;> rfl
      · rw [if_neg found, if_neg fun both => found both.2]

/-! ### The clause behind the word -/

/-- The first clause that is found when blanks are passed, all of them first. -/
def firstCut? (blanks : Nat) (text : List Char) : Option (List Char) := (afterBlanks blanks text).findSome? (cut? [])

/-- The clause behind the word of types. -/
def typedCut? (text : List Char) : Option (List Char) :=
  (stripStart? "type".toList text).bind fun left => firstCut? (left.takeWhile isBlank).length left

/-- The mark of types and the clause behind the word `import`; there is none if a source follows at once. -/
def clauseOf? (head : List Char) : Option (Bool × List Char) :=
  match typedCut? (head.dropWhile isBlank) with
  | some clause => some (true, clause)
  | none =>
    match firstCut? (head.takeWhile isBlank).length head with
    | some clause => some (false, clause)
    | none => if head.all isBlank then some (false, []) else none

theorem length_takeWhile_split {keeps : Char → Bool} (ends : EndsRun keeps tail) :
    ((head ++ tail).takeWhile keeps).length = (head.takeWhile keeps).length := by
  obtain ⟨run, other, rfl, all, stops⟩ := exists_run keeps head
  rw [takeWhile_run all stops, List.append_assoc, takeWhile_run all]
  cases other with
  | nil => exact ends
  | cons c other => exact stops

theorem findSome?_afterBlanks (isHead : IsHead head) (ends : EndsHead tail) {blanks : Nat} (within : blanks ≤ head.length) :
    ((afterBlanks blanks (head ++ tail)).map fun text => readClause? [] text).findSome? id =
      (readSource? tail).bind fun (source, rest) => (firstCut? blanks head).map fun clause => (clause, source, rest) := by
  induction blanks with
  | zero => cases readSource? tail <;> rfl
  | succ blanks ih =>
    have dropped : IsHead (head.drop (blanks + 1)) := fun c member => isHead c (List.mem_of_mem_drop member)
    rw [afterBlanks, List.map_cons, List.findSome?_cons, List.drop_append_of_le_length within, readClause?_split dropped ends,
      ih (by omega), firstCut?, firstCut?, afterBlanks, List.findSome?_cons]
    cases readSource? tail with
    | none => rfl
    | some found =>
      dsimp only [Option.bind_some, id_eq]
      cases cut? [] (head.drop (blanks + 1)) <;> rfl

theorem drop_takeWhile_split (keeps : Char → Bool) (head tail : List Char) :
    (head ++ tail).drop (head.takeWhile keeps).length = head.dropWhile keeps ++ tail := by
  have whole : head ++ tail = head.takeWhile keeps ++ (head.dropWhile keeps ++ tail) := by
    rw [← List.append_assoc, List.takeWhile_append_dropWhile]
  rw [whole, List.drop_left]

theorem findSome?_typedClauses (isHead : IsHead head) (ends : EndsHead tail) : (typedClauses (head ++ tail)).findSome? id =
    (readSource? tail).bind fun (source, rest) => (typedCut? head).map fun clause => (clause, source, rest) := by
  unfold typedClauses typedCut?
  rw [stripStart?_split (by decide) ends]
  cases stripped : stripStart? "type".toList head with
  | none => cases readSource? tail <;> rfl
  | some left =>
    have isLeft : IsHead left := fun c member => isHead c (eq_append_of_stripStart? stripped ▸ List.mem_append_right _ member)
    rw [Option.map_some, Option.bind_some]
    dsimp only
    rw [length_takeWhile_split ends.isBlank, findSome?_afterBlanks isLeft ends (List.takeWhile_prefix isBlank).length_le]

theorem readBody?_eq (cs : List Char) : readBody? cs =
    if (cs.takeWhile isBlank).length = 0 then none
    else match (typedClauses (cs.drop (cs.takeWhile isBlank).length)).findSome? id with
      | some (clause, source, rest) => some (true, clause, source, rest)
      | none =>
        match ((afterBlanks (cs.takeWhile isBlank).length cs).map fun text => readClause? [] text).findSome? id with
        | some (clause, source, rest) => some (false, clause, source, rest)
        | none => (readSource? (cs.drop (cs.takeWhile isBlank).length)).map fun (source, rest) => (false, [], source, rest) := rfl

/-- **What an import line says is told by what stands before its quote and by the source behind it.** -/
theorem readBody?_split (isHead : IsHead head) (ends : EndsHead tail) :
    readBody? (head ++ tail) = if head.head?.any isBlank then
      (readSource? tail).bind fun (source, rest) => (clauseOf? head).map fun (typeOnly, clause) => (typeOnly, clause, source, rest)
    else none := by
  have alone : readSource? (head.dropWhile isBlank ++ tail) = if head.all isBlank then readSource? tail else none := by
    split
    · rename_i all
      rw [List.dropWhile_eq_nil_iff.mpr (List.all_eq_true.mp all), List.nil_append]
    · rename_i solid
      exact readSource?_of_isHead (isHead.dropWhile isBlank) fun nothing =>
        solid (List.all_eq_true.mpr (List.dropWhile_eq_nil_iff.mp nothing))
  rw [readBody?_eq, length_takeWhile_split ends.isBlank, drop_takeWhile_split,
    findSome?_typedClauses (isHead.dropWhile isBlank) ends,
    findSome?_afterBlanks isHead ends (List.takeWhile_prefix isBlank).length_le, alone]
  cases head with
  | nil => rfl
  | cons c head =>
    cases blank : isBlank c with
    | false =>
      rw [List.takeWhile_cons_of_neg (by simp [blank]), List.length_nil, if_pos rfl, if_neg (by simp [blank])]
    | true =>
      have spaced : (c :: head).head?.any isBlank = true := blank
      rw [if_neg (by simp [List.takeWhile_cons_of_pos blank]), if_pos spaced]
      unfold clauseOf?
      cases readSource? tail with
      | none => cases (c :: head).all isBlank <;> rfl
      | some found =>
        dsimp only [Option.bind_some]
        cases typedCut? ((c :: head).dropWhile isBlank) with
        | some clause => rfl
        | none =>
          cases firstCut? ((c :: head).takeWhile isBlank).length (c :: head) with
          | some clause => rfl
          | none => cases (c :: head).all isBlank <;> rfl

/-! ### Import lines -/

/-- **A text is an import line**: the word, what stands before the quote, and the quoted source. -/
def Spells (text : List Char) (line : ImportLine) : Prop :=
  ∃ indent head quoted clause, text = indent ++ ("import".toList ++ (head ++ quoted)) ∧ (∀ c ∈ indent, isIndent c = true) ∧
    IsHead head ∧ head.head?.any isBlank = true ∧ IsQuoted line.source.toList quoted ∧
    clauseOf? head = some (line.typeOnly, clause) ∧ (bracedNames clause).1 = line.named ∧
    defaultOf (bracedNames clause).2 = line.default?

variable {text : List Char}

theorem IsQuoted.endsHead (isQuoted : IsQuoted source quoted) (rest : List Char) : EndsHead (quoted ++ rest) := by
  obtain ⟨opens, -, -, -, -⟩ := isQuoted
  rintro c member
  obtain rfl := Option.some.inj member
  cases part : isClausePart _ with
  | false => rfl
  | true =>
    rw [isQuote_of_isClausePart part] at opens
    cases opens

/-- **An import line is read where a text that is one stands before the end of its line.** -/
theorem readAt?_eq_some_iff : readAt? start cs = some (line, rest) ↔
    ∃ text, cs = text ++ rest ∧ EndsLine rest ∧ Spells text line ∧ line.start = start ∧ line.stop = start + text.length := by
  constructor
  · intro read
    obtain ⟨indent, after, rfl, blank, stops⟩ := exists_run isIndent cs
    unfold readAt? at read
    rw [dropWhile_run blank stops] at read
    cases stripped : stripStart? "import".toList after with
    | none =>
      rw [stripped] at read
      cases read
    | some body =>
      rw [stripped] at read
      obtain ⟨head, tail, rfl, isHead, ends⟩ := exists_run isClausePart body
      obtain rfl := eq_append_of_stripStart? stripped
      dsimp only at read
      rw [readBody?_split isHead ends] at read
      split at read
      · rename_i spaced
        obtain ⟨⟨typeOnly, clause, source, last⟩, found, same⟩ := Option.map_eq_some_iff.mp read
        obtain ⟨⟨source', last'⟩, sourced, clauses⟩ := Option.bind_eq_some_iff.mp found
        obtain ⟨⟨typeOnly', clause'⟩, cut, together⟩ := Option.map_eq_some_iff.mp clauses
        cases together
        cases same
        obtain ⟨quoted, isQuoted, rfl, endsLine⟩ := readSource?_eq_some_iff.mp sourced
        refine ⟨indent ++ ("import".toList ++ (head ++ quoted)), by simp, endsLine,
          ⟨indent, head, quoted, clause, rfl, blank, isHead, spaced, by rwa [String.toList_ofList], cut, rfl, rfl⟩, rfl, ?_⟩
        dsimp only
        congr 1
        simp only [List.length_append]
        omega
      · cases read
  · rintro ⟨text, rfl, endsLine, ⟨indent, head, quoted, clause, rfl, blank, isHead, spaced, isQuoted, cut, named, default⟩, first, last⟩
    have ends := isQuoted.endsHead rest
    have sourced : readSource? (quoted ++ rest) = some (line.source.toList, rest) :=
      readSource?_eq_some_iff.mpr ⟨quoted, isQuoted, rfl, endsLine⟩
    have inner : (indent ++ ("import".toList ++ (head ++ quoted)) ++ rest).dropWhile isIndent =
        "import".toList ++ (head ++ (quoted ++ rest)) := by
      rw [List.append_assoc, dropWhile_run blank (fun c member => by obtain rfl := Option.some.inj member; decide)]
      simp only [List.append_assoc]
    unfold readAt?
    rw [inner, stripStart?_append]
    dsimp only
    rw [readBody?_split isHead ends, if_pos spaced, sourced, Option.bind_some]
    dsimp only
    rw [cut, Option.map_some, Option.map_some]
    dsimp only
    have width (chars : List Char) : (chars ++ rest).length - rest.length = chars.length := by
      rw [List.length_append, Nat.add_sub_cancel]
    rw [named, default, String.ofList_toList, width, ← last, ← first]

end ImportLine

end AnimationCode
