/-
**The parts that a text is cut into.**

What is cut off a text and what is left of it are the text again. A blank ends a word, wherever it stands: what trims a
text, or lets single spaces stand for its blanks, moves no word.

* `Text.stripStart?_append`, `Text.eq_append_of_stripStart?`: what follows the beginning of a text;
* `Text.eq_append_of_cut?`: what stands before and after a part of a text;
* `Text.anySuffix_eq_true_iff`: what is found at some ending of a text;
* `Text.cut?_append`: the first place of a part;
* `Text.takeWhile_append_drop`: the first characters of a kind and what follows them;
* `Text.exists_run`, `Text.takeWhile_run`, `Text.dropWhile_run`: a run of characters of a kind, and what stops it;
* `Text.splitAt_append`, `Text.intercalate_splitAt`: the pieces between the occurrences of a character;
* `Text.words_append_cons`: the words on both sides of a blank;
* `Text.words_trim`, `Text.words_squeeze`, `Text.words_intercalate`: what keeps the words.
-/

import AnimationCode.Text.Blank

namespace AnimationCode

namespace Text

variable {start text rest : List Char}

theorem stripStart?_append (start rest : List Char) : stripStart? start (start ++ rest) = some rest := by
  induction start with
  | nil => rfl
  | cons c start ih => rw [List.cons_append, stripStart?, if_pos rfl, ih]

theorem eq_append_of_stripStart? (stripped : stripStart? start text = some rest) : text = start ++ rest := by
  induction start generalizing text with
  | nil => exact Option.some.inj stripped
  | cons c start ih =>
    cases text with
    | nil => cases stripped
    | cons d text =>
      rw [stripStart?] at stripped
      split at stripped
      · rename_i same
        rw [same, List.cons_append, ih stripped]
      · cases stripped

theorem eq_append_of_cut? {needle before : List Char} (found : cut? needle text = some (before, rest)) :
    text = before ++ (needle ++ rest) := by
  induction text generalizing before with
  | nil =>
    rw [cut?] at found
    split at found
    · rename_i nothing
      cases found
      rw [nothing]
      rfl
    · cases found
  | cons c text ih =>
    rw [cut?] at found
    cases here : stripStart? needle (c :: text) with
    | some after =>
      rw [here] at found
      cases found
      rw [List.nil_append]
      exact eq_append_of_stripStart? here
    | none =>
      rw [here] at found
      obtain ⟨⟨later, after⟩, cut, same⟩ := Option.map_eq_some_iff.mp found
      cases same
      rw [ih cut, List.cons_append]

theorem takeWhile_append_drop (keeps : Char → Bool) (text : List Char) :
    text.takeWhile keeps ++ text.drop (text.takeWhile keeps).length = text := by
  rw [(List.prefix_iff_eq_append.mp (List.takeWhile_prefix keeps))]

theorem all_takeWhile (keeps : Char → Bool) (text : List Char) : ∀ c ∈ text.takeWhile keeps, keeps c = true :=
  List.all_eq_true.mp List.all_takeWhile

/-! ### Endings and parts -/

variable {front back : List Char}

/-- What holds of an ending of a text is found in the text. -/
theorem anySuffix_append {test : Option Char → List Char → Bool} {front back : List Char} {before : Option Char}
    (holds : test (front.getLast?.or before) back = true) : anySuffix test before (front ++ back) = true := by
  induction front generalizing before with
  | nil => cases back <;> simp_all [anySuffix]
  | cons c front ih =>
    rw [List.cons_append, anySuffix, ih, Bool.or_true]
    rw [List.getLast?_cons, Option.some_or] at holds
    cases last : front.getLast? with
    | none => rwa [last] at holds
    | some d => rwa [last] at holds

theorem exists_of_anySuffix {test : Option Char → List Char → Bool} {before : Option Char}
    (found : anySuffix test before text = true) :
    ∃ front back, text = front ++ back ∧ test (front.getLast?.or before) back = true := by
  induction text generalizing before with
  | nil => exact ⟨[], [], rfl, found⟩
  | cons c text ih =>
    rw [anySuffix, Bool.or_eq_true] at found
    rcases found with here | later
    · exact ⟨[], c :: text, rfl, here⟩
    · obtain ⟨front, back, rfl, holds⟩ := ih later
      refine ⟨c :: front, back, rfl, ?_⟩
      rw [List.getLast?_cons, Option.some_or]
      cases last : front.getLast? with
      | none => rwa [last] at holds
      | some d => rwa [last] at holds

/-- What is found in a text holds of an ending of it. -/
theorem anySuffix_eq_true_iff {test : Option Char → List Char → Bool} {before : Option Char} :
    anySuffix test before text = true ↔ ∃ front back, text = front ++ back ∧ test (front.getLast?.or before) back = true :=
  ⟨exists_of_anySuffix, fun ⟨_, _, split, holds⟩ => split ▸ anySuffix_append holds⟩

theorem infix_of_not_mem {c : Char} {needle : List Char} (within : needle <:+: front ++ c :: back) (absent : c ∉ needle) :
    needle <:+: front ∨ needle <:+: back := by
  obtain ⟨before, after, same⟩ := within
  rw [List.append_assoc] at same
  rcases List.append_eq_append_iff.mp same with ⟨left, rfl, right⟩ | ⟨left, rfl, right⟩
  · rcases List.append_eq_append_iff.mp right with ⟨more, rfl, -⟩ | ⟨more, rfl, right⟩
    · exact .inl ⟨before, more, by simp⟩
    · cases more with
      | nil => exact .inl ⟨before, [], by simp⟩
      | cons d more =>
        rw [List.append_assoc] at right
        obtain rfl : d = c := (List.cons.inj (List.append_cancel_left right)).1
        exact absurd (List.mem_append_right _ List.mem_cons_self) absent
  · cases left with
    | nil =>
      cases needle with
      | nil => exact .inl ⟨[], front, rfl⟩
      | cons d needle =>
        obtain rfl : d = c := (List.cons.inj right).1.symm
        exact absurd List.mem_cons_self absent
    | cons d left => exact .inr ⟨left, after, by rw [List.append_assoc]; exact (List.cons.inj right).2.symm⟩

/-- A part whose first character does not come again in it is found where it stands first. -/
theorem cut?_append {c : Char} {needle : List Char} (once : c ∉ needle) (rest : List Char) {before : List Char}
    (absent : ¬ c :: needle <:+: before) : cut? (c :: needle) (before ++ (c :: needle ++ rest)) = some (before, rest) := by
  induction before with
  | nil =>
    rw [List.nil_append, List.cons_append, cut?, ← List.cons_append, stripStart?_append]
  | cons d before ih =>
    have later : ¬ c :: needle <:+: before := fun within => absent (List.infix_cons within)
    rw [List.cons_append, cut?, ih later]
    cases here : stripStart? (c :: needle) (d :: (before ++ (c :: needle ++ rest))) with
    | none => rfl
    | some left =>
      have whole := eq_append_of_stripStart? here
      obtain ⟨rfl, tail⟩ := List.cons.inj whole
      rcases List.append_eq_append_iff.mp tail with ⟨more, same, beyond⟩ | ⟨more, same, beyond⟩
      · cases more with
        | nil => exact absurd ⟨[], [], by simpa using same⟩ absent
        | cons e more =>
          obtain rfl : d = e := (List.cons.inj beyond).1
          exact absurd (same ▸ List.mem_append_right _ List.mem_cons_self) once
      · exact absurd ⟨[], more, by simp [same]⟩ absent

/-! ### Runs of characters -/

/-- A text that no character of a kind begins. -/
def EndsRun (keeps : Char → Bool) (text : List Char) : Prop := ∀ c ∈ text.head?, keeps c = false

variable {keeps : Char → Bool} {run : List Char}

theorem takeWhile_run (all : ∀ c ∈ run, keeps c = true) (stops : EndsRun keeps rest) : (run ++ rest).takeWhile keeps = run := by
  rw [List.takeWhile_append_of_pos all]
  cases rest with
  | nil => exact List.append_nil run
  | cons c rest => rw [List.takeWhile_cons_of_neg (by simp [stops c rfl]), List.append_nil]

theorem dropWhile_run (all : ∀ c ∈ run, keeps c = true) (stops : EndsRun keeps rest) : (run ++ rest).dropWhile keeps = rest := by
  rw [List.dropWhile_append_of_pos all]
  cases rest with
  | nil => rfl
  | cons c rest => rw [List.dropWhile_cons_of_neg (by simp [stops c rfl])]

theorem endsRun_dropWhile (keeps : Char → Bool) (text : List Char) : EndsRun keeps (text.dropWhile keeps) := by
  induction text with
  | nil => exact fun c member => by cases member
  | cons d text ih =>
    cases here : keeps d with
    | true => rwa [List.dropWhile_cons_of_pos here]
    | false =>
      rw [List.dropWhile_cons_of_neg (by simp [here])]
      rintro c ⟨⟩
      exact here

/-- A text is a run of characters of a kind and what stops it. -/
theorem exists_run (keeps : Char → Bool) (text : List Char) :
    ∃ run rest, text = run ++ rest ∧ (∀ c ∈ run, keeps c = true) ∧ EndsRun keeps rest :=
  ⟨_, _, List.takeWhile_append_dropWhile.symm, all_takeWhile keeps text, endsRun_dropWhile keeps text⟩

/-! ### Pieces between the occurrences of a character -/

variable {c : Char}

theorem splitAt_ne_nil (c : Char) (text : List Char) : splitAt c text ≠ [] := by
  cases text with
  | nil => exact List.cons_ne_nil _ _
  | cons d text =>
    rw [splitAt]
    split
    · exact List.cons_ne_nil _ _
    · split <;> exact List.cons_ne_nil _ _

theorem splitAt_of_not_mem {piece : List Char} (absent : c ∉ piece) : splitAt c piece = [piece] := by
  induction piece with
  | nil => rfl
  | cons d piece ih =>
    have other := List.ne_of_not_mem_cons absent
    have later := List.not_mem_of_not_mem_cons absent
    rw [splitAt, if_neg (Ne.symm other), ih later]

/-- The pieces before an occurrence of the character, and those behind it. -/
theorem splitAt_append (first second : List Char) : splitAt c (first ++ c :: second) = splitAt c first ++ splitAt c second := by
  induction first with
  | nil => exact if_pos rfl
  | cons d first ih =>
    rw [List.cons_append, splitAt, splitAt, ih]
    split
    · rfl
    · obtain ⟨piece, rest, pieces⟩ := List.exists_cons_of_ne_nil (splitAt_ne_nil c first)
      rw [pieces]
      rfl

theorem intercalate_splitAt (c : Char) (text : List Char) : List.intercalate [c] (splitAt c text) = text := by
  induction text with
  | nil => rfl
  | cons d text ih =>
    obtain ⟨piece, rest, pieces⟩ := List.exists_cons_of_ne_nil (splitAt_ne_nil c text)
    rw [pieces] at ih
    rw [splitAt, pieces]
    split
    · rename_i same
      rw [List.intercalate_cons_cons, ih, same]
      rfl
    · cases rest with
      | nil =>
        rw [List.intercalate_singleton] at ih ⊢
        rw [ih]
      | cons next rest =>
        rw [List.intercalate_cons_cons] at ih ⊢
        rw [List.cons_append, List.cons_append, ih]

theorem not_mem_of_mem_splitAt {text : List Char} : ∀ piece ∈ splitAt c text, c ∉ piece := by
  induction text with
  | nil => exact List.forall_mem_singleton.mpr List.not_mem_nil
  | cons d text ih =>
    obtain ⟨piece, rest, pieces⟩ := List.exists_cons_of_ne_nil (splitAt_ne_nil c text)
    rw [pieces] at ih
    obtain ⟨here, later⟩ := List.forall_mem_cons.mp ih
    rw [splitAt, pieces]
    split
    · exact List.forall_mem_cons.mpr ⟨List.not_mem_nil, ih⟩
    · rename_i other
      exact List.forall_mem_cons.mpr ⟨List.not_mem_cons_of_ne_of_not_mem (Ne.symm other) here, later⟩

/-! ### Words -/

variable {cs : List Char}

/-- A run of characters that are not blank. -/
def IsWord (word : List Char) : Prop := word ≠ [] ∧ ∀ c ∈ word, isBlank c = false

theorem wordsFrom_append_cons (blank : isBlank c = true) (pending first second : List Char) :
    wordsFrom pending (first ++ c :: second) = wordsFrom pending first ++ words second := by
  induction first generalizing pending with
  | nil =>
    simp only [List.nil_append, wordsFrom, blank, if_true]
    split <;> rfl
  | cons d first ih =>
    rw [List.cons_append, wordsFrom, wordsFrom, ih, ih]
    split
    · split
      · rfl
      · rfl
    · rfl

/-- The words of a text are those before a blank and those after it. -/
theorem words_append_cons (blank : isBlank c = true) (first second : List Char) :
    words (first ++ c :: second) = words first ++ words second :=
  wordsFrom_append_cons blank [] first second

theorem words_cons (blank : isBlank c = true) (cs : List Char) : words (c :: cs) = words cs :=
  words_append_cons blank [] cs

theorem words_of_blank (blank : ∀ c ∈ cs, isBlank c = true) : words cs = [] := by
  induction cs with
  | nil => rfl
  | cons c cs ih =>
    obtain ⟨here, later⟩ := List.forall_mem_cons.mp blank
    rw [words_cons here, ih later]

theorem words_append_of_blank {blanks : List Char} (blank : ∀ c ∈ blanks, isBlank c = true) (cs : List Char) :
    words (cs ++ blanks) = words cs := by
  cases blanks with
  | nil => rw [List.append_nil]
  | cons c blanks =>
    obtain ⟨here, later⟩ := List.forall_mem_cons.mp blank
    rw [words_append_cons here, words_of_blank later, List.append_nil]

/-- Trimming keeps the words. -/
theorem words_trim (cs : List Char) : words (trim cs) = words cs := by
  have left : words (trimLeft cs) = words cs := by
    unfold trimLeft
    induction cs with
    | nil => rfl
    | cons c cs ih =>
      cases blank : isBlank c with
      | true => rw [List.dropWhile_cons_of_pos blank, ih, words_cons blank]
      | false => rw [List.dropWhile_cons_of_neg (by simp [blank])]
  have right (text : List Char) : words (trimRight text) = words text := by
    have cut : trimRight text ++ (text.reverse.takeWhile isBlank).reverse = text := by
      rw [trimRight, dropLastWhile, ← List.reverse_append, List.takeWhile_append_dropWhile, List.reverse_reverse]
    have blank : ∀ c ∈ (text.reverse.takeWhile isBlank).reverse, isBlank c = true :=
      fun c member => List.all_eq_true.mp List.all_takeWhile c (List.mem_reverse.mp member)
    rw [← words_append_of_blank blank, cut]
  rw [trim, right, left]

/-- Trimming takes the blanks behind a text that neither begins nor ends with one. -/
theorem trim_append {blanks : List Char} (first : ∀ c ∈ cs.head?, isBlank c = false)
    (last : ∀ c ∈ cs.getLast?, isBlank c = false) (some_ : cs ≠ []) (blank : ∀ c ∈ blanks, isBlank c = true) :
    trim (cs ++ blanks) = cs := by
  have stays {text : List Char} (first : ∀ c ∈ text.head?, isBlank c = false) : text.dropWhile isBlank = text := by
    cases text with
    | nil => rfl
    | cons c text => rw [List.dropWhile_cons_of_neg (by simp [first c rfl])]
  have left : trimLeft (cs ++ blanks) = cs ++ blanks := by
    cases cs with
    | nil => exact absurd rfl some_
    | cons c cs => exact stays first
  rw [trim, left, trimRight, dropLastWhile, List.reverse_append,
    List.dropWhile_append_of_pos fun c member => blank c (List.mem_reverse.mp member),
    stays fun c member => last c (by rwa [List.head?_reverse] at member), List.reverse_reverse]

theorem wordsFrom_of_solid {pending : List Char} (solid : ∀ c ∈ cs, isBlank c = false) :
    wordsFrom pending cs = if pending ++ cs = [] then [] else [pending ++ cs] := by
  induction cs generalizing pending with
  | nil => rw [wordsFrom, List.append_nil]
  | cons c cs ih =>
    obtain ⟨here, later⟩ := List.forall_mem_cons.mp solid
    rw [wordsFrom, if_neg (by simp [here]), ih later, List.append_assoc, List.singleton_append]

theorem IsWord.words {word : List Char} (isWord : IsWord word) : Text.words word = [word] := by
  rw [Text.words, wordsFrom_of_solid isWord.2, List.nil_append, if_neg isWord.1]

theorem isWord_of_mem_wordsFrom {pending : List Char} (solid : ∀ c ∈ pending, isBlank c = false) :
    ∀ word ∈ wordsFrom pending cs, IsWord word := by
  have ended {pending : List Char} (some_ : pending ≠ []) (solid : ∀ c ∈ pending, isBlank c = false) : IsWord pending :=
    ⟨some_, solid⟩
  induction cs generalizing pending with
  | nil =>
    rw [wordsFrom]
    split
    · exact List.forall_mem_nil _
    · exact List.forall_mem_singleton.mpr (ended ‹_› solid)
  | cons c cs ih =>
    rw [wordsFrom]
    split
    · split
      · exact ih (List.forall_mem_nil _)
      · exact List.forall_mem_cons.mpr ⟨ended ‹_› solid, ih (List.forall_mem_nil _)⟩
    · rename_i open_
      exact ih (List.forall_mem_append.mpr ⟨solid, List.forall_mem_singleton.mpr (by simpa using open_)⟩)

theorem isWord_of_mem_words : ∀ word ∈ words cs, IsWord word := isWord_of_mem_wordsFrom (List.forall_mem_nil _)

theorem mem_of_mem_intercalate {between : List Char} {pieces : List (List Char)} (member : c ∈ List.intercalate between pieces) :
    c ∈ between ∨ ∃ piece ∈ pieces, c ∈ piece := by
  induction pieces with
  | nil => cases member
  | cons piece rest ih =>
    cases rest with
    | nil => exact .inr ⟨piece, List.mem_cons_self, by rwa [List.intercalate_singleton] at member⟩
    | cons next rest =>
      rw [List.intercalate_cons_cons, List.mem_append, List.mem_append] at member
      rcases member with (here | separates) | later
      · exact .inr ⟨piece, List.mem_cons_self, here⟩
      · exact .inl separates
      · exact (ih later).imp_right fun ⟨other, among, inside⟩ => ⟨other, List.mem_cons_of_mem _ among, inside⟩

/-- Pieces with single spaces between them have the words of the pieces. -/
theorem words_intercalate (pieces : List (List Char)) :
    words (List.intercalate [' '] pieces) = pieces.flatMap words := by
  induction pieces with
  | nil => rfl
  | cons piece rest ih =>
    cases rest with
    | nil => rw [List.intercalate_singleton, List.flatMap_singleton]
    | cons next rest =>
      rw [List.intercalate_cons_cons, List.append_assoc, List.singleton_append, words_append_cons (by decide), ih]
      rfl

/-- Single spaces in place of blanks keep the words. -/
theorem words_squeeze (cs : List Char) : words (squeeze cs) = words cs := by
  have each : (words cs).map words = (words cs).map fun word => [word] :=
    List.map_congr_left fun word member => (isWord_of_mem_words word member).words
  rw [squeeze, words_intercalate, List.flatMap_def, each, ← List.flatMap_def, List.flatMap_singleton']

/-- A text without words has only blanks. -/
theorem words_eq_nil_iff : words cs = [] ↔ isBlankText cs = true := by
  have started {pending : List Char} (some_ : pending ≠ []) (cs : List Char) : wordsFrom pending cs ≠ [] := by
    induction cs generalizing pending with
    | nil => simp [wordsFrom, some_]
    | cons c cs ih =>
      rw [wordsFrom]
      split
      · simp
      · exact ih (by simp)
  refine ⟨fun nothing => ?_, fun blank => words_of_blank (List.all_eq_true.mp blank)⟩
  induction cs with
  | nil => rfl
  | cons c cs ih =>
    cases blank : isBlank c with
    | true =>
      rw [isBlankText, List.all_cons, blank]
      exact ih (by rwa [words_cons blank] at nothing)
    | false =>
      rw [words, wordsFrom, if_neg (by simp [blank])] at nothing
      exact absurd nothing (started (by simp) cs)

end Text

end AnimationCode
