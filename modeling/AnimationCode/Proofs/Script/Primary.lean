/-
**Names, strings and numbers as expressions.**

* `takes_primary_of_word`: a word that no arrow follows;
* `takes_number`, `takes_string`: numbers and strings;
* `takes_single_of_primary`: one of them as an operand that nothing goes on with;
* `refuses_single`: no operand begins where one ends.
-/

import AnimationCode.Proofs.Script.Operand
import AnimationCode.Proofs.Text.Quoted

namespace AnimationCode

namespace Script

open Reader

/-- A name that is no more than a name wherever it stands. -/
structure IsIdentifier (name : List Char) : Prop extends IsName name where
  calm : String.ofList name ∉ ["async", "await", "undefined", "yield"]

namespace Expression

variable {rule : Grammar} {d : Dialect} {ends : Bool} {space text after : List Char}

/-! ### Operands that names and digits begin -/

/-- The signs that begin operands. -/
def openers : List Char := ['(', '[', '\x7b', '"', '\'', '\x60', '/', '<', '#', '@']

/-- An operand that no sign begins is a number or begins with a word. -/
theorem primary_of_unopened {cursor : Cursor} {c : Char} {rest : List Char} (blank : Blank space)
    (solid : Solid (c :: rest)) (unopened : c ∉ openers) (same : cursor.rest = space ++ c :: rest) :
    primary rule ends cursor =
      (if c.isDigit || c == '.' then number else wordOperand rule ends) cursor := by
  unfold primary
  rw [bind_of_some (sees_upcoming blank solid cursor rfl same)]
  simp only [openers, List.mem_cons, List.not_mem_nil, or_false, not_or] at unopened
  generalize chosen : (if (c.isDigit || c == '.') = true then number else wordOperand rule ends) = reader
  refine congrFun ?_ cursor
  split
  case h_11 first =>
    obtain ⟨rfl, -⟩ := List.cons.inj first
    rw [chosen]
  case h_12 first => cases first
  all_goals
    rename_i first
    simp [(List.cons.inj first).1] at unopened

theorem unopened_of_isNameRest {c : Char} (part : isNameRest c = true) : c ∉ openers ∧ c ≠ '.' := by
  have signs : ∀ e ∈ '.' :: openers, isNameRest e = false := by decide
  refine ⟨fun member => ?_, ?_⟩
  · rw [signs c (List.mem_cons_of_mem _ member)] at part
    cases part
  · rintro rfl
    cases part

/-- An operand that begins with a word. -/
theorem primary_of_word {cursor : Cursor} {word : List Char} (blank : Blank space) (isWord : IsWord word)
    (same : cursor.rest = space ++ (word ++ after)) :
    primary rule ends cursor = wordOperand rule ends cursor := by
  obtain ⟨all, first, nonempty⟩ := isWord
  cases word with
  | nil => exact absurd rfl nonempty
  | cons c rest =>
    have part := all c List.mem_cons_self
    have letter : (c.isDigit || c == '.') = false := by
      rw [first c rfl, beq_false_of_ne (unopened_of_isNameRest part).2]
      rfl
    have other : primary rule ends cursor = _ := primary_of_unopened blank
      (solid_of_isNameRest (rest ++ after) part) (unopened_of_isNameRest part).1 same
    rw [other, letter, if_neg Bool.false_ne_true]

theorem takes_primary_of_word {tree : Nat → Node} (blank : Blank space) {word : List Char}
    (isWord : IsWord word) (takes : Takes (wordOperand rule ends) d (space ++ word) after tree) :
    Takes (primary rule ends) d (space ++ word) after tree := by
  intro cursor dialect same
  rw [primary_of_word blank isWord (by rw [same, List.append_assoc])]
  exact takes cursor dialect same

theorem refuses_primary_of_word (blank : Blank space) {word : List Char} (isWord : IsWord word)
    (refuses : Refuses (wordOperand rule ends) d (space ++ (word ++ after))) :
    Refuses (primary rule ends) d (space ++ (word ++ after)) := by
  intro cursor dialect same
  rw [primary_of_word blank isWord same]
  exact refuses cursor dialect same

theorem refuses_plainArrow (blank : Blank space) (solid : Solid text) (taken : EndsName text) :
    Refuses (plainArrow rule ends) d (space ++ text) := by
  refine Refuses.construct ?_ .arrowFunction blank solid
  exact (refuses_name (s := []) blank_nil solid (Or.inr taken)).bind

theorem takes_wordOperand_of_identifier {name : List Char} (blank : Blank space)
    (isIdentifier : IsIdentifier name) (ends_ : EndsName after) (noArrow : Lacks [("=>", "")] after) :
    Takes (wordOperand rule ends) d (space ++ name) after fun n =>
      leaf .identifier (n + space.length) name.length := by
  have isWord := isIdentifier.toIsWord
  have next := sees_nextWord (d := d) blank (isWord.solid after)
  rw [wordOf_append isWord ends_, ← List.append_assoc] at next
  have takesName := takes_name (d := d) .identifier blank isIdentifier.toIsName ends_
  have refusesArrow : Refuses (plainArrow rule ends) d (space ++ name ++ after) := by
    rw [List.append_assoc]
    refine Refuses.construct ?_ .arrowFunction blank (isWord.solid after)
    refine (takes_name (s := []) .identifier blank_nil isIdentifier.toIsName ends_).refuses_bind ?_
    exact fun _ => (noArrow.refuses_sign (by decide)).bind
  have free := isIdentifier.free
  have calm := isIdentifier.calm
  unfold wordOperand
  refine next.takes_bind ?_
  split
  case h_12 => exact refusesArrow.takes_firstOf (takesName.firstOf [])
  all_goals
    rename_i word
    first
      | exact absurd (by rw [word]; decide) free
      | exact absurd (by rw [word]; decide) calm

theorem isPlain_of_word {word : List Char} (isWord : IsWord word) (ends_ : EndsName after)
    (free : String.ofList word ∉ ["typeof", "void", "delete", "await"]) : IsPlain (word ++ after) := by
  refine ⟨isWord.solid after, ?_, ?_⟩
  · obtain ⟨all, -, nonempty⟩ := isWord
    cases word with
    | nil => exact absurd rfl nonempty
    | cons c rest =>
      rintro e ⟨⟩ member
      have signs : ∀ e ∈ ['!', '~', '+', '-'], isNameRest e = false := by decide
      have part := all c List.mem_cons_self
      rw [signs c member] at part
      cases part
  · rwa [wordOf_append isWord ends_]

/-- The words that are values. -/
def constants : List (String × Kind) :=
  [("null", .nullLiteral), ("true", .trueLiteral), ("false", .falseLiteral)]

theorem isWord_constant : ∀ constant ∈ constants, IsWord constant.1.toList := by
  rintro constant member
  simp only [constants, List.mem_cons, List.not_mem_nil, or_false] at member
  rcases member with rfl | rfl | rfl <;> exact isWord_of_check rfl

theorem takes_constant {constant : String × Kind} (known : constant ∈ constants) (blank : Blank space)
    (ends_ : EndsName after) :
    Takes (primary rule ends) d (space ++ constant.1.toList) after fun n =>
      leaf constant.2 (n + space.length) constant.1.toList.length := by
  have isWord := isWord_constant constant known
  have next := sees_nextWord (d := d) blank (isWord.solid after)
  rw [wordOf_append isWord ends_, String.ofList_toList, ← List.append_assoc] at next
  have node : Takes (wordNode constant.2 constant.1) d (space ++ constant.1.toList) after fun n =>
      leaf constant.2 (n + space.length) constant.1.toList.length :=
    ((takes_word (s := []) constant.1 blank_nil isWord ends_).map fun _ => []).construct _ blank
      (isWord.solid after)
  refine takes_primary_of_word blank isWord ?_
  unfold wordOperand
  refine next.takes_bind ?_
  simp only [constants, List.mem_cons, List.not_mem_nil, or_false] at known
  rcases known with rfl | rfl | rfl <;> exact node

/-! ### Numbers and strings -/

theorem wordOf_of_first {c : Char} (rest : List Char)
    (other : (isNameRest c = false ∧ c ≠ '\\') ∨ c.isDigit = true) : wordOf (c :: rest) = "" := by
  rcases other with ends_ | digit
  · refine wordOf_of_ends ?_
    rintro e ⟨⟩
    exact ends_
  · rw [wordOf, nameLength, if_pos digit]
    rfl

theorem isPlain_of_first {c : Char} (rest : List Char)
    (other : (isNameRest c = false ∧ c ≠ '\\') ∨ c.isDigit = true) (space : isSpace c = false)
    (sign : c ∉ ['/', '!', '~', '+', '-']) : IsPlain (c :: rest) := by
  rw [List.mem_cons, not_or] at sign
  refine ⟨solid_cons rest space sign.1, ?_, ?_⟩
  · rintro e ⟨⟩
    exact sign.2
  · rw [wordOf_of_first rest other]
    decide

theorem digit_facts {c : Char} (digit : c.isDigit = true) :
    isSpace c = false ∧ c ∉ ['/', '!', '~', '+', '-'] ∧ c ∉ openers := by
  have part := isNameRest_of_isDigit digit
  refine ⟨(isNameRest_iff.mp part).2.1, fun member => ?_, (unopened_of_isNameRest part).1⟩
  have signs : ∀ e ∈ ['/', '!', '~', '+', '-'], isNameRest e = false := by decide
  rw [signs c member] at part
  cases part

theorem takes_number {numeral : Numeral} (wellFormed : numeral.IsWellFormed) (blank : Blank space)
    (ends_ : EndsNumber after) :
    Takes (primary rule ends) d (space ++ numeral.text) after fun n =>
      leaf .number (n + space.length) numeral.text.length := by
  intro cursor dialect same
  obtain ⟨c, digits, first, digit⟩ := exists_whole wellFormed
  have text : numeral.text ++ after = c :: (digits ++ (numeral.pointText ++ numeral.exponentText)) ++ after := by
    rw [Numeral.text, first]
    rfl
  have facts := digit_facts digit
  have solid : Solid (numeral.text ++ after) := by
    rw [text]
    exact solid_of_isNameRest _ (isNameRest_of_isDigit digit)
  rw [List.append_assoc] at same
  have chosen : primary rule ends cursor = _ := primary_of_unopened blank
    (by rw [← List.cons_append, ← text]; exact solid) facts.2.2
    (by rw [same, text]; rfl)
  rw [chosen, digit, Bool.true_or, if_pos rfl]
  rw [← List.append_assoc] at same
  exact takes_lexeme .number blank solid (numberLength?_numeral wellFormed ends_) cursor dialect same

theorem takes_string (content : List Char) (blank : Blank space) :
    Takes (primary rule ends) d (space ++ Text.quote content) after fun n =>
      leaf .string (n + space.length) (Text.quote content).length := by
  have solid : Solid (Text.quote content ++ after) := solid_cons _ (by decide) (by decide)
  have ahead := sees_upcoming (d := d) blank solid
  rw [← List.append_assoc] at ahead
  refine ahead.takes_bind ?_
  exact takes_lexeme .string blank solid (stringLength?_quote content after)

/-! ### Expressions -/

/-- An operand that nothing goes on with is an expression. -/
theorem takes_single_of_suffixed {tree : Nat → Node} (blank : Blank space)
    (isPlain : IsPlain (text ++ after)) (word : wordOf (text ++ after) ≠ "yield")
    (takes : Takes (suffixed rule ends) d (space ++ text) after tree) (stops : Stops after) :
    Takes (single rule ends) d (space ++ text) after tree := by
  have operand_ := takes_operand blank isPlain takes
  have conditional_ := takes_conditional (takes_chain operand_ stops.operator) stops.question
  exact takes_single blank isPlain.solid word conditional_ stops.assignment

/-- A character that begins an operand and no word. -/
def IsOpening (c : Char) : Prop :=
  ((isNameRest c = false ∧ c ≠ '\\') ∨ c.isDigit = true) ∧ isSpace c = false ∧
    c ∉ ['/', '!', '~', '+', '-']

theorem takes_single_of_primary {c : Char} {rest : List Char} {tree : Nat → Node} (blank : Blank space)
    (opening : IsOpening c) (takes : Takes (primary rule ends) d (space ++ c :: rest) after tree)
    (stops : Stops after) : Takes (single rule ends) d (space ++ c :: rest) after tree := by
  obtain ⟨other, plain, sign⟩ := opening
  refine takes_single_of_suffixed blank (isPlain_of_first _ other plain sign) ?_
    (takes_suffixed_of_primary takes stops.suffix) stops
  rw [List.cons_append, wordOf_of_first _ other]
  decide

/-- No expression begins where no operand does. -/
theorem refuses_single_of_primary (blank : Blank space) (isPlain : IsPlain text) (word : wordOf text ≠ "yield")
    (first : ∀ c, text.head? = some c → c ∉ ['[', '\x7b']) (refuses : Refuses (primary rule ends) d (space ++ text)) :
    Refuses (single rule ends) d (space ++ text) := by
  have operand_ : Refuses (operand rule ends) d (space ++ text) := by
    intro cursor dialect same
    rw [operand_of_plain blank isPlain same]
    exact refuses.bind cursor dialect same
  refine (sees_upcoming blank isPlain.solid).refuses_bind ?_
  split
  · exact absurd List.mem_cons_self (first _ rfl)
  · exact absurd (List.mem_cons_of_mem _ List.mem_cons_self) (first _ rfl)
  · refine (sees_nextWord blank isPlain.solid).refuses_bind ?_
    rw [if_neg (by simpa using word)]
    exact operand_.bind.bind.bind

/-- No expression begins where one ends. -/
theorem refuses_single (stops : Stops text) : Refuses (single rule ends) d text := by
  obtain ⟨space, c, rest, blank, closer, rfl⟩ := stops
  have solid := solid_closer closer rest
  have ends_ := endsName_closer closer rest
  have next := sees_nextWord (d := d) blank solid
  rw [wordOf_of_ends ends_] at next
  have outside : ∀ e ∈ closers, e ∉ openers ∧ (e.isDigit || e == '.') = false ∧
      e ∉ ['!', '~', '+', '-'] ∧ e ∉ ['[', '\x7b'] := by decide
  obtain ⟨unopened, letter, sign, bracket⟩ := outside c closer
  have primary_ : Refuses (primary rule ends) d (space ++ c :: rest) := by
    intro cursor dialect same
    rw [primary_of_unopened blank solid unopened same, letter, if_neg Bool.false_ne_true]
    refine (next.refuses_bind ?_) cursor dialect same
    exact (refuses_plainArrow blank solid ends_).firstOf
      (refuses_name blank solid (Or.inr ends_)).last
  have isPlain : IsPlain (c :: rest) := by
    refine isPlain_of_first rest (Or.inl (ends_ c rfl)) (closer_facts c closer).1 ?_
    rw [List.mem_cons, not_or]
    exact ⟨(closer_facts c closer).2.1, sign⟩
  refine refuses_single_of_primary blank isPlain ?_ ?_ primary_
  · rw [wordOf_of_ends ends_]
    decide
  · rintro e ⟨⟩
    exact bracket

end Expression

end Script

end AnimationCode
