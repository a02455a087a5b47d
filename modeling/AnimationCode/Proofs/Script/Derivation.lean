/-
**What expressions and statements are by the grammar.**

A part of the grammar of the language is spelt out: for each construct the text, and the tree that the text has where it
stands. A text is derived from the texts of its parts, and so is its tree. The program reads scripts with whatever parser it
is given; what is known about one is what it does with derived texts.

* `Derives`: a text is an expression, an entry, what a variable begins with, or a statement, and its tree fits;
* `Derives.isRead`: the parser at hand takes each derived text, at every depth that the text leaves room for.
-/

import AnimationCode.Proofs.Script.Wish

namespace AnimationCode

namespace Script

open Reader Expression

/-- What a text may be derived as. -/
inductive Symbol where
  | expression | entry | initializer | statement
deriving DecidableEq, Repr

/-- A text is derived, and its tree is one of those that fit. -/
inductive Derives : Symbol → Item → Prop where
  | token {kind : Kind} {text : List Char} (isToken : IsToken kind text) : Derives .expression (tokenItem kind text)
  | minus {kind : Kind} {text : List Char} (isToken : IsToken kind text) (noMinus : text.head? ≠ some '-') :
      Derives .expression (minusItem kind text)
  | array {items : List Item} (each : ∀ item ∈ items, Derives .expression item) : Derives .expression (arrayItem items)
  | pair {kind : Kind} {key : List Char} {value : Item} (isKey : IsKey kind key) (valued : Derives .expression value) :
      Derives .entry (pairItem kind key value)
  | object {pairs : List Item} (each : ∀ item ∈ pairs, Derives .entry item) : Derives .expression (objectItem pairs)
  | ternary {name : List Char} {first second : Item} (isIdentifier : IsIdentifier name)
      (yes : Derives .expression first) (no : Derives .expression second) :
      Derives .expression (ternaryItem name first second)
  | callback {pad close : List Char} {items : List Item} (blankPad : Blank pad) (blankClose : Blank close)
      (each : ∀ item ∈ items, Derives .statement item) : Derives .expression (callbackItem pad close items)
  | chained {name : List Char} {suffixes : List Suffix} (isIdentifier : IsIdentifier name) (some_ : suffixes ≠ [])
      (words : ∀ word, .property word ∈ suffixes → IsWord word)
      (each : ∀ items, .arguments items ∈ suffixes → ∀ item ∈ items, Derives .expression item) :
      Derives .initializer (chainedItem name suffixes)
  | wish : Derives .initializer wishItem
  | chain {name : List Char} {suffixes : List Suffix} (isSubject : IsSubject name) (some_ : suffixes ≠ [])
      (words : ∀ word, .property word ∈ suffixes → IsWord word)
      (each : ∀ items, .arguments items ∈ suffixes → ∀ item ∈ items, Derives .expression item) :
      Derives .statement (chainItem name suffixes)
  | const {name : List Char} {value : Item} (isSubject : IsSubject name) (valued : Derives .initializer value) :
      Derives .statement (constItem name value)
  | when {name pad close : List Char} {items : List Item} (isIdentifier : IsIdentifier name) (blankPad : Blank pad)
      (blankClose : Blank close) (each : ∀ item ∈ items, Derives .statement item) :
      Derives .statement (ifItem name pad close items)
  | weaken {symbol : Symbol} {item : Item} (derives : Derives symbol item) {Fits : (Nat → Node) → Prop}
      (weaker : ∀ tree, item.Fits tree → Fits tree) : Derives symbol ⟨item.text, Fits⟩

/-! ### Derived texts are read -/

/-- The parser at hand takes an item where one of a kind is looked for. -/
def Symbol.IsRead (depth : Nat) (d : Dialect) : Symbol → Item → Prop
  | .expression, item => StartsPlain item.text ∧ Readable (rule depth (.expression false)) d item
  | .entry, item => StartsPlain item.text ∧ Readable (Expression.entry (rule depth)) d item
  | .initializer, item => Readable (rule depth (.expression true)) d item
  | .statement, item => IsStatement depth d item

variable {d : Dialect}

theorem Readable.weaken {reader : Reader Node} {item : Item} (readable : Readable reader d item)
    {Fits : (Nat → Node) → Prop} (weaker : ∀ tree, item.Fits tree → Fits tree) :
    Readable reader d ⟨item.text, Fits⟩ := by
  intro space after blank stops
  obtain ⟨tree, fits, takes⟩ := readable space after blank stops
  exact ⟨tree, weaker tree fits, takes⟩

theorem Symbol.IsRead.weaken {symbol : Symbol} {depth : Nat} {item : Item} (isRead : symbol.IsRead depth d item)
    {Fits : (Nat → Node) → Prop} (weaker : ∀ tree, item.Fits tree → Fits tree) :
    symbol.IsRead depth d ⟨item.text, Fits⟩ := by
  cases symbol with
  | expression => exact ⟨isRead.1, Readable.weaken isRead.2 weaker⟩
  | entry => exact ⟨isRead.1, Readable.weaken isRead.2 weaker⟩
  | initializer => exact Readable.weaken isRead weaker
  | statement =>
    refine ⟨isRead.1, fun space after blank ended => ?_⟩
    obtain ⟨tree, fits, takes⟩ := isRead.2 space after blank ended
    exact ⟨tree, weaker tree fits, takes⟩

theorem length_le_suffixText {suffixes : List Suffix} {items : List Item} (member : .arguments items ∈ suffixes)
    {item : Item} (among : item ∈ items) : item.text.length + 2 ≤ (suffixText suffixes).length := by
  obtain ⟨before, behind, rfl⟩ := List.append_of_mem member
  have inside := length_le_commaText among
  simp only [suffixText, List.flatMap_append, List.flatMap_cons, Suffix.text, List.length_append, List.length_cons,
    List.length_nil]
  omega

/-- Suffixes are read where their arguments are. -/
theorem isReadable_suffixes {depth : Nat} {suffixes : List Suffix} (words : ∀ word, .property word ∈ suffixes → IsWord word)
    (each : ∀ items, .arguments items ∈ suffixes → ∀ item ∈ items, Symbol.expression.IsRead depth d item) :
    ∀ suffix ∈ suffixes, suffix.IsReadable (rule depth) d := by
  intro suffix member
  cases suffix with
  | property name => exact words name member
  | arguments items => exact isReadable_arguments (each items member)

theorem length_le_blockText {pad close : List Char} {items : List Item} {item : Item} (member : item ∈ items) :
    item.text.length + 2 ≤ (blockText pad close items).length := by
  obtain ⟨before, after, rfl⟩ := List.append_of_mem member
  simp only [blockText, lineText, List.flatMap_append, List.flatMap_cons, List.length_append, List.length_cons,
    List.length_nil]
  omega

/-- **The parser at hand takes every derived text.** It does at every depth that is four times the length of the text. -/
theorem Derives.isRead {symbol : Symbol} {item : Item} (derives : Derives symbol item) {depth : Nat}
    (enough : 4 * item.text.length ≤ depth) : symbol.IsRead depth d item := by
  induction derives generalizing depth with
  | token isToken =>
    have positive := isToken.startsPlain.length_pos
    obtain ⟨depth, rfl⟩ : ∃ fewer, depth = fewer + 1 := ⟨depth - 1, by simp only [tokenItem] at enough; omega⟩
    exact ⟨isToken.startsPlain, readable_token isToken depth false⟩
  | minus isToken noMinus =>
    obtain ⟨depth, rfl⟩ : ∃ fewer, depth = fewer + 2 :=
      ⟨depth - 2, by simp only [minusItem, List.length_cons] at enough; omega⟩
    exact ⟨⟨'-', _, rfl, by decide, by decide, by decide⟩, readable_minus isToken noMinus depth⟩
  | @array items each ih =>
    simp only [arrayItem, List.length_cons, List.length_append, List.length_nil] at enough
    obtain ⟨depth, rfl⟩ : ∃ fewer, depth = fewer + 1 := ⟨depth - 1, by omega⟩
    refine ⟨⟨'[', _, rfl, by decide, by decide, by decide⟩, readable_array fun item member => ih item member ?_⟩
    have shorter := length_le_commaText member
    omega
  | @pair kind key value isKey valued ih =>
    simp only [pairItem, pairText, List.length_append, List.length_cons] at enough
    exact ⟨isKey.startsPlain.append _, readable_pair isKey (ih (by omega)).2⟩
  | @object pairs each ih =>
    obtain ⟨inner, text⟩ := exists_objectText pairs
    have starts : StartsPlain (objectText pairs) := ⟨'\x7b', inner, text, by decide, by decide, by decide⟩
    have positive := starts.length_pos
    simp only [objectItem] at enough
    obtain ⟨depth, rfl⟩ : ∃ fewer, depth = fewer + 1 := ⟨depth - 1, by omega⟩
    refine ⟨starts, readable_object fun item member => (ih item member ?_).2⟩
    have shorter := length_le_commaText member
    rw [objectText, if_neg (by simpa using List.ne_nil_of_mem member)] at enough
    simp only [List.length_cons, List.length_append, List.length_nil] at enough
    omega
  | @ternary name first second isIdentifier yes no ihYes ihNo =>
    simp only [ternaryItem, ternaryText, List.length_append, List.length_cons, List.length_nil] at enough
    obtain ⟨depth, rfl⟩ : ∃ fewer, depth = fewer + 1 := ⟨depth - 1, by omega⟩
    exact ⟨isIdentifier.toIsWord.startsPlain.append _,
      readable_ternary isIdentifier (ihYes (by omega)).2 (ihNo (by omega)).2⟩
  | @callback pad close items blankPad blankClose each ih =>
    simp only [callbackItem, callbackText, List.length_append] at enough
    have signs : "() => ".toList.length = 6 := rfl
    obtain ⟨depth, rfl⟩ : ∃ fewer, depth = fewer + 1 := ⟨depth - 1, by omega⟩
    refine ⟨⟨'(', _, rfl, by decide, by decide, by decide⟩, readable_callback blankPad blankClose fun item member => ?_⟩
    have shorter := @length_le_blockText pad close items item member
    exact ih item member (by omega)
  | @chained name suffixes isIdentifier some_ words each ih =>
    simp only [chainedItem, List.length_append] at enough
    have positive := isIdentifier.toIsWord.startsPlain.length_pos
    obtain ⟨depth, rfl⟩ : ∃ fewer, depth = fewer + 1 := ⟨depth - 1, by omega⟩
    obtain ⟨first, others, rfl⟩ := List.exists_cons_of_ne_nil some_
    refine readable_chained true isIdentifier (isReadable_suffixes words fun items member item among => ?_)
    have shorter := length_le_suffixText member among
    exact ih items member item among (by omega)
  | wish =>
    have length : wishItem.text.length = 94 := rfl
    obtain ⟨depth, rfl⟩ : ∃ fewer, depth = fewer + 3 := ⟨depth - 3, by omega⟩
    exact readable_wish
  | @chain name suffixes isSubject some_ words each ih =>
    simp only [chainItem, chainText, List.length_append, List.length_cons, List.length_nil] at enough
    have positive := isSubject.toIsWord.startsPlain.length_pos
    obtain ⟨depth, rfl⟩ : ∃ fewer, depth = fewer + 3 := ⟨depth - 3, by omega⟩
    obtain ⟨first, others, rfl⟩ := List.exists_cons_of_ne_nil some_
    refine isStatement_chain isSubject (isReadable_suffixes words fun items member item among => ?_)
    have shorter := length_le_suffixText member among
    exact ih items member item among (by omega)
  | @const name value isSubject valued ih =>
    simp only [constItem, constText, List.length_append, List.length_cons, List.length_nil] at enough
    obtain ⟨depth, rfl⟩ : ∃ fewer, depth = fewer + 2 := ⟨depth - 2, by omega⟩
    exact isStatement_const isSubject (ih (by omega))
  | @when name pad close items isIdentifier blankPad blankClose each ih =>
    simp only [ifItem, ifText, List.length_append, List.length_cons] at enough
    obtain ⟨depth, rfl⟩ : ∃ fewer, depth = fewer + 3 := ⟨depth - 3, by omega⟩
    refine isStatement_if isIdentifier blankPad blankClose fun item member => ?_
    have shorter := @length_le_blockText pad close items item member
    exact ih item member (by omega)
  | weaken derives weaker ih => exact (ih enough).weaken weaker

end Script

end AnimationCode
