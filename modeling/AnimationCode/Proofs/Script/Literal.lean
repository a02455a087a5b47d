/-
**Tokens and lists are read.**

* `IsToken`: the tokens that are expressions of their own;
* `readable_token`, `readable_minus`: a token, and one with a minus in front of it;
* `readable_array`: a list of expressions.
-/

import AnimationCode.Proofs.Script.Enclosed
import AnimationCode.Proofs.Value.Literal

namespace AnimationCode

namespace Script

open Reader Expression

/-- A text that begins with neither a blank nor a remark nor three points. -/
def StartsPlain (text : List Char) : Prop :=
  ∃ c rest, text = c :: rest ∧ isSpace c = false ∧ c ≠ '/' ∧ c ≠ '.'

/-! ### Single tokens -/

theorem StartsPlain.length_pos {text : List Char} (starts : StartsPlain text) : 0 < text.length := by
  obtain ⟨c, rest, rfl, -⟩ := starts
  exact Nat.succ_pos _

theorem StartsPlain.append {text : List Char} (starts : StartsPlain text) (more : List Char) :
    StartsPlain (text ++ more) := by
  obtain ⟨c, rest, rfl, plain⟩ := starts
  exact ⟨c, rest ++ more, rfl, plain⟩

theorem StartsPlain.solid {text : List Char} (starts : StartsPlain text) (after : List Char) :
    Solid (text ++ after) := by
  obtain ⟨c, rest, rfl, plain, slash, -⟩ := starts
  exact solid_cons _ plain slash

theorem startsPlain_of_isNameRest {c : Char} (rest : List Char) (part : isNameRest c = true) :
    StartsPlain (c :: rest) := by
  refine ⟨c, rest, rfl, (isNameRest_iff.mp part).2.1, ?_, (unopened_of_isNameRest part).2⟩
  rintro rfl
  cases part

theorem IsWord.startsPlain {word : List Char} (isWord : IsWord word) : StartsPlain word := by
  obtain ⟨all, -, nonempty⟩ := isWord
  cases word with
  | nil => exact absurd rfl nonempty
  | cons c rest => exact startsPlain_of_isNameRest rest (all c List.mem_cons_self)

theorem startsPlain_quote (content : List Char) : StartsPlain (Text.quote content) :=
  ⟨'\'', _, rfl, by decide, by decide, by decide⟩

theorem takes_identifier {rule : Grammar} {d : Dialect} {ends : Bool} {space after name : List Char}
    (isIdentifier : IsIdentifier name) (blank : Blank space) (ends_ : EndsName after)
    (noArrow : Lacks [("=>", "")] after) :
    Takes (primary rule ends) d (space ++ name) after fun n =>
      leaf .identifier (n + space.length) name.length :=
  takes_primary_of_word blank isIdentifier.toIsWord
    (takes_wordOperand_of_identifier blank isIdentifier ends_ noArrow)

theorem IsIdentifier.plain {name after : List Char} (isIdentifier : IsIdentifier name)
    (ends_ : EndsName after) : IsPlain (name ++ after) ∧ wordOf (name ++ after) ≠ "yield" := by
  refine ⟨isPlain_of_word isIdentifier.toIsWord ends_ fun member => ?_, ?_⟩
  · simp only [List.mem_cons, List.not_mem_nil, or_false] at member
    rcases member with same | same | same | same
    · exact isIdentifier.free (by rw [same]; decide)
    · exact isIdentifier.free (by rw [same]; decide)
    · exact isIdentifier.free (by rw [same]; decide)
    · exact isIdentifier.calm (by rw [same]; decide)
  · rw [wordOf_append isIdentifier.toIsWord ends_]
    intro same
    exact isIdentifier.calm (by rw [same]; decide)

/-- The kind and the text of a token that is an expression of its own. No string has the character that ends a source. -/
inductive IsToken : Kind → List Char → Prop where
  | name {name : List Char} (isIdentifier : IsIdentifier name) : IsToken .identifier name
  | constant {constant : String × Kind} (known : constant ∈ constants) : IsToken constant.2 constant.1.toList
  | string {content : List Char} (noNull : '\x00' ∉ content) : IsToken .string (Text.quote content)
  | number {numeral : Numeral} (wellFormed : numeral.IsWellFormed) : IsToken .number numeral.text

namespace IsToken

variable {kind : Kind} {text after : List Char}

theorem startsPlain (isToken : IsToken kind text) : StartsPlain text := by
  cases isToken with
  | name isIdentifier => exact isIdentifier.toIsWord.startsPlain
  | constant known => exact (isWord_constant _ known).startsPlain
  | string noNull => exact startsPlain_quote _
  | number wellFormed =>
    obtain ⟨c, digits, first, digit⟩ := exists_whole wellFormed
    rw [Numeral.text, first]
    exact startsPlain_of_isNameRest _ (isNameRest_of_isDigit digit)

theorem takes (isToken : IsToken kind text) {g : Grammar} {d : Dialect} {ends : Bool} {space : List Char}
    (blank : Blank space) (stops : Stops after) :
    Takes (primary g ends) d (space ++ text) after fun n => leaf kind (n + space.length) text.length := by
  cases isToken with
  | name isIdentifier => exact takes_identifier isIdentifier blank stops.endsName stops.arrow
  | constant known => exact takes_constant known blank stops.endsName
  | string noNull => exact takes_string _ blank
  | number wellFormed => exact takes_number wellFormed blank stops.endsNumber

theorem plain (isToken : IsToken kind text) (stops : Stops after) :
    IsPlain (text ++ after) ∧ wordOf (text ++ after) ≠ "yield" := by
  cases isToken with
  | name isIdentifier => exact isIdentifier.plain stops.endsName
  | @constant constant known =>
    have isWord := isWord_constant constant known
    have words : ∀ constant ∈ constants,
        constant.1 ∉ ["typeof", "void", "delete", "await"] ∧ constant.1 ≠ "yield" := by decide
    obtain ⟨free, calm⟩ := words constant known
    refine ⟨isPlain_of_word isWord stops.endsName ?_, ?_⟩
    · rwa [String.ofList_toList]
    · rwa [wordOf_append isWord stops.endsName, String.ofList_toList]
  | string noNull =>
    have sign : isNameRest '\'' = false ∧ '\'' ≠ '\\' := by decide
    refine ⟨isPlain_of_first _ (Or.inl sign) (by decide) (by decide), ?_⟩
    rw [Text.quote, List.cons_append, List.cons_append, wordOf_of_first _ (Or.inl sign)]
    decide
  | @number numeral wellFormed =>
    obtain ⟨c, digits, first, digit⟩ := exists_whole wellFormed
    have text : numeral.text = c :: (digits ++ (numeral.pointText ++ numeral.exponentText)) := by
      rw [Numeral.text, first]
      rfl
    obtain ⟨space, sign, -⟩ := digit_facts digit
    rw [text, List.cons_append]
    refine ⟨isPlain_of_first _ (Or.inr digit) space sign, ?_⟩
    rw [wordOf_of_first _ (Or.inr digit)]
    decide

end IsToken

/-- A token, as an item among others. -/
def tokenItem (kind : Kind) (text : List Char) : Item := ⟨text, fun tree => tree = fun n => leaf kind n text.length⟩

theorem readable_token {kind : Kind} {text : List Char} (isToken : IsToken kind text) {d : Dialect} (depth : Nat)
    (ends : Bool) : Readable (rule (depth + 1) (.expression ends)) d (tokenItem kind text) := by
  intro space after blank stops
  obtain ⟨isPlain, word⟩ := isToken.plain stops
  exact ⟨_, rfl, takes_single_of_suffixed blank isPlain word
    (takes_suffixed_of_primary (isToken.takes blank stops) stops.suffix) stops⟩

/-! ### Signs -/

/-- What a minus begins. -/
theorem takes_minus {rule : Grammar} {d : Dialect} {ends : Bool} {space text after : List Char}
    {tree : Nat → Node} (blank : Blank space) (noMinus : text.head? ≠ some '-')
    (some_ : 0 < text.length)
    (takes : Takes (construct .unary do
      let op ← mark .token .operator (Reader.sign "-")
      return [op, (← rule (.operand ends)).as .argument]) d (space ++ '-' :: text) after tree) :
    Takes (operand rule ends) d (space ++ '-' :: text) after tree := by
  have ahead := sees_upcoming (d := d) blank
    (solid_cons (c := '-') (text ++ after) (by decide) (by decide))
  rw [← List.cons_append, ← List.append_assoc] at ahead
  refine ahead.takes_bind ?_
  cases text with
  | nil => exact absurd some_ (Nat.lt_irrefl 0)
  | cons c rest =>
    have other : c ≠ '-' := fun same => noMinus (congrArg some same)
    rw [List.cons_append, List.cons_append]
    split
    case h_4 first => exact absurd (List.cons.inj (List.cons.inj first).2).1 other
    case h_6 => exact takes
    all_goals
      rename_i first
      first
        | exact absurd (List.cons.inj first).1 (by decide)
        | exact absurd rfl (first _)

/-- A token with a minus in front of it, as an item among others. -/
def minusItem (kind : Kind) (text : List Char) : Item where
  text := '-' :: text
  Fits := fun tree => tree = fun n => .mk .unary .plain ⟨n, n + ('-' :: text).length⟩
    [(leaf .token n 1).as .operator, (leaf kind (n + 1) text.length).as .argument]

theorem readable_minus {kind : Kind} {text : List Char} (isToken : IsToken kind text) (noMinus : text.head? ≠ some '-')
    {d : Dialect} (depth : Nat) : Readable (rule (depth + 2) (.expression false)) d (minusItem kind text) := by
  intro space after blank stops
  obtain ⟨isPlain, -⟩ := isToken.plain stops
  have solid : Solid ('-' :: (text ++ after)) := solid_cons _ (by decide) (by decide)
  have inner : Takes (rule (depth + 1) (.operand false)) d ([] ++ text) after fun n =>
      leaf kind n text.length :=
    takes_operand blank_nil isPlain (takes_suffixed_of_primary (isToken.takes blank_nil stops) stops.suffix)
  have op : Takes (mark .token .operator (Reader.sign "-")) d ([] ++ ['-']) (text ++ after) fun n =>
      (leaf .token n 1).as .operator :=
    Takes.mark (s := []) (takes_sign (s := []) "-" blank_nil solid) .token .operator blank_nil solid
  have parts : Takes (do
      let op ← mark .token .operator (Reader.sign "-")
      return [op, (← rule (depth + 1) (.operand false)).as .argument]) d (['-'] ++ text) after
      fun n => [(leaf .token n 1).as .operator, (leaf kind (n + 1) text.length).as .argument] :=
    op.bind (b := fun n m => [(leaf .token n 1).as .operator, (leaf kind m text.length).as .argument])
      fun n => (inner.map fun node => [(leaf .token n 1).as .operator, node.as .argument]).follows
  have word : wordOf ('-' :: text ++ after) ≠ "yield" := by
    rw [List.cons_append, wordOf_of_first _ (Or.inl (by decide))]
    decide
  have operand_ : Takes (operand (rule (depth + 1)) false) d (space ++ '-' :: text) after _ :=
    takes_minus blank noMinus isToken.startsPlain.length_pos (parts.construct .unary blank solid)
  exact ⟨_, rfl, takes_single blank solid word
    (takes_conditional (takes_chain operand_ stops.operator) stops.question) stops.assignment⟩

/-! ### Lists -/

theorem refuses_spread {rule : Grammar} {d : Dialect} {space text after : List Char}
    (blank : Blank space) (starts : StartsPlain text) :
    Refuses (spread rule) d (space ++ text ++ after) := by
  obtain ⟨c, rest, rfl, plain, slash, point⟩ := starts
  have solid : Solid (c :: (rest ++ after)) := solid_cons _ plain slash
  rw [List.append_assoc]
  refine Refuses.construct (Refuses.bind ?_) .otherExpression blank solid
  exact refuses_sign (s := []) blank_nil solid (startsWith_cons_of_ne _ _ point.symm)

theorem readable_item {rule : Grammar} {d : Dialect} {item : Item} (starts : StartsPlain item.text)
    (readable : Readable (rule (.expression false)) d item) :
    Readable (firstOf [spread rule, rule (.expression false)]) d item := by
  intro space after blank stops
  obtain ⟨tree, fits, takes⟩ := readable space after blank stops
  exact ⟨tree, fits, (refuses_spread blank starts).takes_firstOf (takes.firstOf [])⟩

theorem refuses_expression (depth : Nat) {d : Dialect} {text : List Char} (stops : Stops text) :
    Refuses (rule depth (.expression false)) d text := by
  cases depth with
  | zero => exact refuses_failure
  | succ depth => exact refuses_single stops

theorem refuses_item {depth : Nat} {d : Dialect} {c : Char} (closer : c ∈ closers) (rest : List Char) :
    Refuses (firstOf [spread (rule depth), rule depth (.expression false)]) d (c :: rest) := by
  have solid := solid_closer closer rest
  have points : ∀ e ∈ closers, '.' ≠ e := by decide
  refine Refuses.firstOf ?_ (refuses_expression depth (stops_of_closer closer rest)).last
  refine Refuses.construct (s := []) (Refuses.bind ?_) .otherExpression blank_nil solid
  exact refuses_sign (s := []) blank_nil solid (startsWith_cons_of_ne _ _ (points c closer))

/-- Expressions between brackets, as an item among others. -/
def arrayItem (items : List Item) : Item where
  text := '[' :: (commaText items ++ [']'])
  Fits := fun tree => ∃ nodes, Lays items nodes ∧
    tree = fun n => .mk .array .plain ⟨n, n + ('[' :: (commaText items ++ [']'])).length⟩ (nodes (n + 1))

theorem readable_array {depth : Nat} {d : Dialect} {items : List Item}
    (readable : ∀ item ∈ items, StartsPlain item.text ∧ Readable (rule depth (.expression false)) d item) :
    Readable (rule (depth + 1) (.expression false)) d (arrayItem items) := by
  intro space after blank stops
  have solid (rest : List Char) : Solid ("[".toList ++ rest) := solid_cons rest (by decide) (by decide)
  have array_ : ∃ nodes, Lays items nodes ∧ Takes (array (rule depth)) d (space ++ (arrayItem items).text) after
      fun n => .mk .array .plain ⟨n + space.length, n + space.length + (arrayItem items).text.length⟩
        (nodes (n + space.length + 1)) := by
    rcases eq_or_ne items [] with rfl | some_
    · exact ⟨fun _ => [], fun _ => rfl, takes_enclosed_nil .array (refuses_item (by decide) after) rfl
        (by decide) (by decide) blank solid⟩
    · exact takes_enclosed .array some_ (fun item member => readable_item (readable item member).1 (readable item member).2)
        rfl (by decide) (by decide) blank blank_nil solid after
  obtain ⟨nodes, laid, takes⟩ := array_
  have ahead : Sees upcoming d (space ++ (arrayItem items).text ++ after) ((arrayItem items).text ++ after) := by
    rw [List.append_assoc]
    exact sees_upcoming blank (solid _)
  exact ⟨_, ⟨nodes, laid, rfl⟩, takes_single_of_primary blank ⟨Or.inl (by decide), by decide, by decide⟩
    (ahead.takes_bind takes) stops⟩

end Script

end AnimationCode
