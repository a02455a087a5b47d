/-
**Printed values are read back.**

The text of a literal value is an expression by the grammar, whose tree has the value, its whole numbers as integers.

* `Stands`: a tree stands for a value where its text is;
* `Denotes`: a text is an expression whose tree stands for a value;
* `denotes_list`, `denotes_object`, `denotes_guarded`: values that are made of others;
* `denotes_print`: any literal value.
-/

import AnimationCode.Proofs.Script.Derivation

namespace AnimationCode

namespace Script

open Reader Expression

/-- A tree stands for a value wherever its text is. -/
structure Stands (value : Value) (text : List Char) (tree : Nat → Node) : Prop where
  span : ∀ n, (tree n).span = ⟨n, n + text.length⟩
  inert : ∀ n, (tree n).IsInert
  named : ∀ n, (tree n).kind.isNamed = true ∧ (tree n).kind ≠ .comment
  evaluates : ∀ n source, Holds source n text → evaluate source (tree n) = .ok value

/-- A text is an expression by the grammar, whose tree has a value. -/
def Denotes (value : Value) (text : List Char) : Prop := Derives .expression ⟨text, Stands value text⟩

/-! ### Single tokens -/

theorem stands_leaf {value : Value} {kind : Kind} {text : List Char}
    (unmarked : kind ∉ Node.marked ∧ kind.isNamed = true ∧ kind ≠ .comment)
    (evaluates : ∀ n source, Holds source n text → evaluate source (leaf kind n text.length) = .ok value) :
    Stands value text fun n => leaf kind n text.length :=
  ⟨fun _ => rfl, fun n => Node.isInert_leaf n text.length unmarked.1, fun _ => unmarked.2, evaluates⟩

theorem denotes_token {value : Value} {kind : Kind} {text : List Char} (isToken : IsToken kind text)
    (stands : Stands value text fun n => leaf kind n text.length) : Denotes value text :=
  (Derives.token isToken).weaken fun _ same => same ▸ stands

theorem denotes_constant (constant : String × Kind) (known : constant ∈ constants) {value : Value}
    (evaluates : ∀ source n length, evaluate source (leaf constant.2 n length) = .ok value) :
    Denotes value constant.1.toList := by
  have unmarked : ∀ constant ∈ constants,
      constant.2 ∉ Node.marked ∧ constant.2.isNamed = true ∧ constant.2 ≠ .comment := by decide
  exact denotes_token (.constant known) (stands_leaf (unmarked constant known) fun n source _ => evaluates source n _)

theorem denotes_null : Denotes .null "null".toList :=
  denotes_constant ("null", .nullLiteral) (by decide) fun _ _ _ => by
    rw [leaf, evaluate]

theorem denotes_bool (b : Bool) : Denotes (.bool b) (Value.bool b).print.toList := by
  cases b with
  | true =>
    exact denotes_constant ("true", .trueLiteral) (by decide) fun _ _ _ => by
      rw [leaf, evaluate]
  | false =>
    exact denotes_constant ("false", .falseLiteral) (by decide) fun _ _ _ => by
      rw [leaf, evaluate]

theorem denotes_text {content : String} (isText : Value.IsText content) :
    Denotes (.text content) (Text.quote content.toList) := by
  refine denotes_token (.string isText) (stands_leaf (by decide) fun n source holds => ?_)
  have text := holds.text_eq (leaf .string n (Text.quote content.toList).length) rfl
  rw [leaf] at text ⊢
  rw [evaluate, text, unquoted, Text.unquote?_quote]
  dsimp only
  rw [String.ofList_toList]
  rfl

/-! ### Numbers -/

/-- The tree of a numeral has its value. -/
theorem stands_numeral (numeral : Numeral) :
    Stands (numberValue numeral.text) numeral.text fun n => leaf .number n numeral.text.length := by
  refine stands_leaf (by decide) fun n source holds => ?_
  have same := holds.text_eq (leaf .number n numeral.text.length) rfl
  rw [leaf] at same ⊢
  rw [evaluate, same]

/-- The name that stands for infinity. -/
def infinityName : List Char := "Infinity".toList

theorem isIdentifier_infinity : IsIdentifier infinityName :=
  ⟨⟨isWord_of_check rfl, by decide⟩, by decide⟩

theorem stands_infinity :
    Stands (.real (.infinite false)) infinityName fun n => leaf .identifier n infinityName.length := by
  refine stands_leaf (by decide) fun n source holds => ?_
  have same := holds.text_eq (leaf .identifier n infinityName.length) rfl
  rw [leaf] at same ⊢
  rw [evaluate, same, if_pos (show infinityName = "Infinity".toList from rfl)]

theorem evaluate_unary (source : List Char) (span : Span) (op inner : Node) :
    evaluate source (.mk .unary .plain span [op.as .operator, inner.as .argument]) =
      (evaluate source inner).map fun value => signedValue (op.text source) value
        (.code (String.ofList ((Node.mk .unary .plain span []).text source))) := by
  rw [evaluate]
  simp only [Node.child?, Node.children, valueIn?, evaluateEach, evaluate_as, List.find?_cons,
    Node.role_as, beq_self_eq_true, show (Role.operator == Role.argument) = false from rfl,
    Option.map_some, Node.text_as]
  cases evaluate source inner <;> rfl

/-- A number with a minus in front of it. -/
theorem denotes_minus {value negated : Value} {kind : Kind} {text : List Char} (isToken : IsToken kind text)
    (stands : Stands value text fun n => leaf kind n text.length) (noMinus : text.head? ≠ some '-')
    (sign : ∀ raw, signedValue ['-'] value raw = negated) : Denotes negated ('-' :: text) := by
  refine (Derives.minus isToken noMinus).weaken ?_
  rintro tree rfl
  refine ⟨fun _ => rfl, fun n => ?_, fun _ => ⟨rfl, fun same => by cases same⟩, fun n source holds => ?_⟩
  · refine Node.isInert_mk (by decide) (List.forall_mem_cons.mpr ⟨?_, List.forall_mem_singleton.mpr ?_⟩)
    · exact (Node.isInert_leaf n 1 (by decide)).as .operator
    · exact (stands.inert (n + 1)).as .argument
  · have split : Holds source n (['-'] ++ text) := holds
    rw [evaluate_unary, stands.evaluates (n + 1) source split.right, split.left.text_eq (leaf .token n 1) rfl]
    exact congrArg Except.ok (sign _)

theorem signedValue_infinity (raw : Value) :
    signedValue ['-'] (.real (.infinite false)) raw = .real (.infinite true) := rfl

theorem denotes_isWritten {value : Value} (isWritten : value.IsWritten) :
    Denotes value.normal value.print.toList := by
  obtain ⟨negative, numeral, wellFormed, text, evaluates⟩ := isWritten
  rw [text]
  cases negative with
  | false =>
    rw [← show numberValue numeral.text = value.normal from evaluates .null]
    exact denotes_token (.number wellFormed) (stands_numeral numeral)
  | true =>
    obtain ⟨c, digits, first, digit⟩ := exists_whole wellFormed
    refine denotes_minus (.number wellFormed) (stands_numeral numeral) ?_ evaluates
    rw [Numeral.text, first]
    rintro ⟨⟩
    cases digit

theorem denotes_real {x : Binary64} (literal : (Value.real x).IsLiteral) :
    Denotes (Value.real x).normal (Value.real x).print.toList := by
  rw [Value.IsLiteral] at literal
  cases x with
  | finite negative m e => exact denotes_isWritten (Value.isWritten_real literal.2)
  | infinite negative =>
    rw [Value.normal, Value.print, Value.printReal]
    cases negative with
    | false => exact denotes_token (.name isIdentifier_infinity) stands_infinity
    | true => exact denotes_minus (.name isIdentifier_infinity) stands_infinity (by decide) signedValue_infinity
  | nan => exact absurd rfl literal.1

/-! ### Lists -/

/-- The item that a value is in a list or among arguments. -/
def valueItem (value : Value) : Item := ⟨value.print.toList, Stands value.normal value.print.toList⟩

theorem solid_kept {α : Type} {node : Node} (named : node.kind.isNamed = true ∧ node.kind ≠ .comment)
    (a : α) (rest : List (Node × α)) : solid ((node, a) :: rest) = (node, a) :: solid rest := by
  refine List.filter_cons_of_pos ?_
  rw [named.1, Bool.true_and, bne_iff_ne]
  exact named.2

theorem text_arrayItem (items : List Value) :
    (arrayItem (items.map valueItem)).text = (Value.list items).print.toList := by
  rw [Value.print, Value.printItems_eq_map, String.toList_append, String.toList_append,
    toList_intercalate_comma Value.print valueItem (fun _ => rfl), List.append_assoc]
  rfl

/-- The nodes of items that stand for values have the values. -/
theorem listValues_of_fits {source : List Char} {n : Nat} {items : List Value} {text : List Char}
    (holds : Holds source n text) {nodes : List Node}
    (fits : List.Forall₂ (fun item node => ∃ tree m, item.Fits tree ∧ node = tree m ∧
      (Holds source n text → Holds source m item.text)) (items.map valueItem) nodes) :
    listValues (solid (evaluateEach source nodes)) = .ok (items.map Value.normal) := by
  induction items generalizing nodes with
  | nil =>
    cases fits
    rfl
  | cons item rest ih =>
    obtain ⟨node, others, ⟨tree, m, stands, rfl, place⟩, later, rfl⟩ := List.forall₂_cons_left_iff.mp fits
    rw [evaluateEach, solid_kept (stands.named m), listValues, stands.evaluates m source (place holds),
      ih later]
    rfl

theorem denotes_list {items : List Value} (each : ∀ item ∈ items, Derives .expression (valueItem item)) :
    Denotes (Value.list items).normal (Value.list items).print.toList := by
  rw [← text_arrayItem]
  refine (Derives.array (List.forall_mem_map.mpr each)).weaken ?_
  rintro tree ⟨nodes, laid, rfl⟩
  refine ⟨fun _ => rfl, fun n => ?_, fun _ => ⟨rfl, fun same => by cases same⟩, fun n source holds => ?_⟩
  · refine Node.isInert_mk (by decide) (laid.all (fun item member tree stands m => ?_) (n + 1))
    obtain ⟨value, -, rfl⟩ := List.mem_map.mp member
    exact Stands.inert stands m
  · have split : Holds source n (['['] ++ (commaText (items.map valueItem) ++ [']'])) := holds
    rw [evaluate, listValues_of_fits split.right.left (laid.fits source (n + 1)), Value.normal, Value.normalItems_eq_map]
    rfl

/-! ### Objects -/

/-- An entry stands for a name with a value wherever its text is. -/
structure StandsEntry (name : String) (value : Value) (text : List Char) (tree : Nat → Node) : Prop where
  inert : ∀ n, (tree n).IsInert
  reads : ∀ n source, Holds source n text → ∃ (span : Span) (key inner : Node),
    tree n = .mk .pair .plain span [key.as .key, inner.as .value] ∧
      keyText source (key.as .key) = .ok (some name) ∧ evaluate source inner = .ok value

/-- The text of an entry. -/
def entryText (field : String × Value) : List Char :=
  (Value.printKey field.1).toList ++ (':' :: ' ' :: field.2.print.toList)

/-- The item that an entry is in an object. -/
def entryItem (field : String × Value) : Item :=
  ⟨entryText field, StandsEntry field.1 field.2.normal (entryText field)⟩

theorem isDigit_of_isNameStart {c : Char} (start : Text.isNameStart c = true) : c.isDigit = false := by
  rw [Bool.eq_false_iff]
  intro digit
  rw [Text.isNameStart, Bool.or_eq_true, Bool.or_eq_true] at start
  rcases start with (letter | line) | dollar
  · rw [isDigit_of_isAlpha letter] at digit
    cases digit
  · obtain rfl := beq_iff_eq.mp line
    cases digit
  · obtain rfl := beq_iff_eq.mp dollar
    cases digit

theorem isWord_of_isPlainName {name : List Char} (plain : Text.isPlainName name = true)
    (noFeed : '\n' ∉ name) : IsWord name := by
  have noLast : (name.getLast? == some '\n') = false := by
    rw [beq_eq_false_iff_ne]
    exact fun last => noFeed (List.mem_of_getLast? last)
  rw [Text.isPlainName, Text.isLineOf, noLast, Bool.false_and, Bool.or_false, Bool.and_eq_true] at plain
  obtain ⟨first, others⟩ := plain
  cases name with
  | nil => cases first
  | cons c rest =>
    have start : Text.isNameStart c = true := first
    have part : Text.isNamePart c = true := by
      rw [Text.isNameStart, Bool.or_eq_true, Bool.or_eq_true] at start
      rw [Text.isNamePart, Text.isWord, Char.isAlphanum]
      rcases start with (letter | line) | dollar
      · rw [letter]
        rfl
      · rw [line]
        simp
      · rw [dollar]
        simp
    refine ⟨List.forall_mem_cons.mpr ⟨isNameRest_of_isNamePart part, fun e member => ?_⟩, ?_,
      List.cons_ne_nil c rest⟩
    · exact isNameRest_of_isNamePart (List.all_eq_true.mp others e member)
    · rintro e ⟨⟩
      exact isDigit_of_isNameStart start

/-- The name of an entry as it is written, and what is read there. -/
theorem exists_isKey {name : String} (fits : Value.IsEntryName name) :
    ∃ kind, kind ∉ Node.marked ∧ IsKey kind (Value.printKey name).toList ∧
      ∀ n source role, Holds source n (Value.printKey name).toList →
        keyText source ((leaf kind n (Value.printKey name).toList.length).as role) = .ok (some name) := by
  rw [Value.printKey]
  split
  · rename_i plain
    have isWord := isWord_of_isPlainName plain (fits.2 plain)
    refine ⟨.propertyName, by decide, .word isWord, fun n source role holds => ?_⟩
    have text := holds.text_eq ((leaf .propertyName n name.toList.length).as role) rfl
    have noHash : name.toList.head? ≠ some '#' := by
      obtain ⟨all, -, -⟩ := isWord
      intro hash
      cases found : name.toList with
      | nil =>
        rw [found] at hash
        cases hash
      | cons c rest =>
        rw [found] at hash all
        obtain rfl := Option.some.inj hash
        exact absurd (all '#' List.mem_cons_self) (by decide)
    rw [keyText, Node.kind_as]
    show Except.ok (if _ = some '#' then none else some _) = _
    rw [text, if_neg noHash, String.ofList_toList]
  · refine ⟨.string, by decide, ?_, fun n source role holds => ?_⟩
    · rw [String.toList_ofList]
      exact .string fits.1
    · rw [String.toList_ofList] at holds ⊢
      have text := holds.text_eq ((leaf .string n (Text.quote name.toList).length).as role) rfl
      rw [keyText, Node.kind_as]
      show some <$> unquoted _ = _
      rw [text, unquoted, Text.unquote?_quote]
      show Except.ok (some (String.ofList name.toList)) = _
      rw [String.ofList_toList]

theorem derives_entry {field : String × Value} (fits : Value.IsEntryName field.1)
    (valued : Derives .expression (valueItem field.2)) : Derives .entry (entryItem field) := by
  obtain ⟨name, value⟩ := field
  obtain ⟨kind, unmarked, isKey, readsKey⟩ := exists_isKey fits
  refine (Derives.pair isKey valued).weaken ?_
  rintro tree ⟨inner, stands, rfl⟩
  refine ⟨fun n => ?_, fun n source holds => ⟨_, _, _, rfl, readsKey n source .key holds.left, ?_⟩⟩
  · refine Node.isInert_mk (by decide) (List.forall_mem_cons.mpr ⟨?_, List.forall_mem_singleton.mpr ?_⟩)
    · exact (Node.isInert_leaf n _ unmarked).as .key
    · exact (Stands.inert stands _).as .value
  · exact Stands.evaluates stands _ source (show Holds source _ ([':', ' '] ++ _) from holds.right).right

theorem text_objectItem (fields : List (String × Value)) :
    (objectItem (fields.map entryItem)).text = (Value.object fields).print.toList := by
  rcases eq_or_ne fields [] with rfl | some_
  · rfl
  · have nonempty : fields.isEmpty = false := List.isEmpty_eq_false_iff.mpr some_
    show objectText (fields.map entryItem) = _
    rw [objectText, if_neg (by simpa using some_), Value.print, nonempty, if_neg Bool.false_ne_true,
      Value.printEntries_eq_map, String.toList_append, String.toList_append, toList_intercalate_comma _ entryItem]
    · rfl
    · intro field
      rw [String.toList_append, String.toList_append, List.append_assoc]
      rfl

theorem set_of_fresh {α : Type} {fields : Fields α} {name : String} (fresh : name ∉ Fields.keys fields)
    (value : α) : fields.set name value = fields ++ [(name, value)] := by
  induction fields with
  | nil => rfl
  | cons field rest ih =>
    obtain ⟨key, old⟩ := field
    have apart : key ≠ name := fun same => fresh (by rw [← same]; exact List.mem_cons_self)
    rw [Fields.set, if_neg apart, ih fun member => fresh (List.mem_cons_of_mem _ member)]
    rfl

/-- The fields of entries that stand for them. -/
theorem objectFields_of_fits {source : List Char} {n : Nat} {fields : List (String × Value)}
    (before : List (String × Value)) {text : List Char} (holds : Holds source n text) {nodes : List Node}
    (fits : List.Forall₂ (fun item node => ∃ tree m, item.Fits tree ∧ node = tree m ∧
      (Holds source n text → Holds source m item.text)) (fields.map entryItem) nodes)
    (nodup : (Fields.keys (before ++ fields)).Nodup) :
    objectFields source before (solid (evaluateEntries source nodes)) =
      .ok (some (before ++ Value.normalEntries fields)) := by
  induction fields generalizing nodes before with
  | nil =>
    cases fits
    rw [Value.normalEntries, List.append_nil]
    rfl
  | cons field rest ih =>
    obtain ⟨name, value⟩ := field
    obtain ⟨node, others, ⟨tree, m, stands, rfl, place⟩, later, rfl⟩ := List.forall₂_cons_left_iff.mp fits
    obtain ⟨span, key, inner, pair, readsKey, evaluates⟩ := stands.reads m source (place holds)
    have fresh : name ∉ Fields.keys before := by
      rw [Fields.keys, List.map_append, List.map_cons] at nodup
      exact fun member => (List.nodup_append.mp nodup).2.2 name member name List.mem_cons_self rfl
    have nodupRest : (Fields.keys ((before ++ [(name, value.normal)]) ++ rest)).Nodup := by
      simpa [Fields.keys] using nodup
    have entry_ : valueIn? .value (evaluateEach source [key.as .key, inner.as .value]) =
        some (.ok value.normal) := by
      rw [evaluateEach, evaluateEach, evaluateEach, evaluate_as, evaluate_as, evaluates]
      simp [valueIn?]
    have found : (Node.mk .pair .plain span [key.as .key, inner.as .value]).child? .key =
        some (key.as .key) := by
      simp [Node.child?, Node.children]
    rw [pair, evaluateEntries, solid_kept ⟨rfl, fun same => by cases same⟩, objectFields,
      if_neg (fun other => other rfl), found, entry_]
    dsimp only
    rw [readsKey]
    show objectFields source (Fields.set before name value.normal) _ = _
    rw [set_of_fresh fresh, ih _ later nodupRest, Value.normalEntries, List.append_assoc]
    rfl

/-- The fields of an object that stand where its text is. -/
theorem holds_entries {source : List Char} {n : Nat} {pairs : List Item} (holds : Holds source n (objectText pairs)) :
    Holds source (n + 2) (commaText pairs) := by
  unfold objectText at holds
  rcases eq_or_ne pairs [] with rfl | some_
  · exact List.nil_prefix
  · rw [if_neg (by simpa using some_)] at holds
    exact (show Holds source n (['\x7b', ' '] ++ (commaText pairs ++ [' ', '\x7d'])) from holds).right.left

theorem denotes_object {fields : List (String × Value)} (nodup : (Fields.keys fields).Nodup)
    (each : ∀ field ∈ fields, Value.IsEntryName field.1 ∧ Derives .expression (valueItem field.2)) :
    Denotes (Value.object fields).normal (Value.object fields).print.toList := by
  rw [← text_objectItem]
  have entries : ∀ item ∈ fields.map entryItem, Derives .entry item :=
    List.forall_mem_map.mpr fun field member => derives_entry (each field member).1 (each field member).2
  refine (Derives.object entries).weaken ?_
  rintro tree ⟨nodes, laid, rfl⟩
  refine ⟨fun _ => rfl, fun n => ?_, fun _ => ⟨rfl, fun same => by cases same⟩, fun n source holds => ?_⟩
  · refine Node.isInert_mk (by decide) (laid.all (fun item member tree stands m => ?_) (n + 2))
    obtain ⟨field, -, rfl⟩ := List.mem_map.mp member
    exact StandsEntry.inert stands m
  · rw [evaluate, objectFields_of_fits [] (holds_entries holds) (laid.fits source (n + 2)) nodup, Value.normal]
    rfl

/-! ### Guards -/

/-- The options that end an animation at once. -/
def zeroOptions : Value := .object [("duration", .int 0)]

theorem derives_zeroOptions : Derives .expression (valueItem zeroOptions) := by
  have zero : Derives .expression (valueItem (.int 0)) := denotes_isWritten (Value.isWritten_int (by decide))
  have plain : Value.IsEntryName "duration" := by
    refine ⟨?_, fun _ => ?_⟩
    · rw [Value.IsText]
      decide
    · decide
  exact denotes_object (by decide) (List.forall_mem_singleton.mpr ⟨plain, zero⟩)

theorem text_ternaryItem (value : Value) :
    (ternaryItem guardName (valueItem zeroOptions) (valueItem value)).text = (Value.guarded value).print.toList := by
  rw [Value.print, String.toList_append]
  rfl

theorem evaluate_guard {source : List Char} {span : Span} {test yes no : Node} {value : Value}
    (condition : test.text source = guardName) (zero : evaluate source yes = .ok zeroOptions)
    (evaluates : evaluate source no = .ok value) :
    evaluate source (.mk .ternary .plain span
      [test.as .condition, yes.as .consequence, no.as .alternative]) = .ok (.guarded value) := by
  have named : Text.trim guardName = "prefersReducedMotion".toList := by decide
  rw [evaluate]
  simp only [Node.child?, Node.children, valueIn?, evaluateEach, evaluate_as, List.find?_cons,
    Node.role_as, beq_self_eq_true, show (Role.condition == Role.consequence) = false from rfl,
    show (Role.condition == Role.alternative) = false from rfl,
    show (Role.consequence == Role.alternative) = false from rfl, Option.map_some, Node.text_as,
    condition, named, if_pos, zero, evaluates]
  rfl

theorem denotes_guarded {value : Value} (valued : Derives .expression (valueItem value)) :
    Denotes (Value.guarded value).normal (Value.guarded value).print.toList := by
  rw [← text_ternaryItem]
  refine (Derives.ternary isIdentifier_guardName derives_zeroOptions valued).weaken ?_
  rintro tree ⟨yes, no, zero, stands, rfl⟩
  refine ⟨fun _ => rfl, fun n => ?_, fun _ => ⟨rfl, fun same => by cases same⟩, fun n source holds => ?_⟩
  · refine Node.isInert_mk (by decide) (List.forall_mem_cons.mpr ⟨?_, List.forall_mem_cons.mpr ⟨?_,
      List.forall_mem_singleton.mpr ?_⟩⟩)
    · exact (Node.isInert_leaf n _ (by decide)).as .condition
    · exact (Stands.inert zero _).as .consequence
    · exact (Stands.inert stands _).as .alternative
  · rw [Value.normal]
    exact evaluate_guard (holds.left.text_eq (leaf .identifier n guardName.length) rfl)
      (Stands.evaluates zero _ source holds.right.right.left.right)
      (Stands.evaluates stands _ source holds.right.right.right.right.right)

/-! ### Values -/

mutual

/-- The text of a literal value is an expression with the value. -/
theorem denotes_print (value : Value) (literal : value.IsLiteral) : Derives .expression (valueItem value) := by
  match value with
  | .null => exact denotes_null
  | .bool b => exact denotes_bool b
  | .int n => exact denotes_isWritten (Value.isWritten_int (by rwa [Value.IsLiteral] at literal))
  | .real x => exact denotes_real literal
  | .text content =>
    have text : (valueItem (.text content)).text = Text.quote content.toList := by
      show (Value.text content).print.toList = _
      rw [Value.print, String.toList_ofList]
    have denotes := denotes_text (by rwa [Value.IsLiteral] at literal)
    rw [← text] at denotes
    exact denotes
  | .list items =>
    rw [Value.IsLiteral] at literal
    exact denotes_list (denotes_items items literal)
  | .object fields =>
    rw [Value.IsLiteral] at literal
    exact denotes_object literal.1 (denotes_entries fields literal.2)
  | .guarded inner =>
    rw [Value.IsLiteral] at literal
    exact denotes_guarded (denotes_print inner literal)

theorem denotes_items (items : List Value) (literal : Value.AreLiteral items) :
    ∀ item ∈ items, Derives .expression (valueItem item) := by
  match items with
  | [] => exact List.forall_mem_nil _
  | item :: rest =>
    rw [Value.AreLiteral] at literal
    exact List.forall_mem_cons.mpr ⟨denotes_print item literal.1, denotes_items rest literal.2⟩

theorem denotes_entries (fields : List (String × Value)) (literal : Value.AreEntries fields) :
    ∀ field ∈ fields, Value.IsEntryName field.1 ∧ Derives .expression (valueItem field.2) := by
  match fields with
  | [] => exact List.forall_mem_nil _
  | (name, value) :: rest =>
    rw [Value.AreEntries] at literal
    exact List.forall_mem_cons.mpr ⟨⟨literal.1, denotes_print value literal.2.1⟩, denotes_entries rest literal.2.2⟩

end

end Script

end AnimationCode
