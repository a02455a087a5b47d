/-
**Objects are read.**

* `IsKey`, `takes_propertyKey`: the name of an entry, plain or between quotes;
* `readable_pair`: a name with an expression;
* `readable_object`: such entries between braces.
-/

import AnimationCode.Proofs.Script.Literal

namespace AnimationCode

namespace Script

open Reader Expression

/-! ### Entries -/

/-- The kind and the text of the name of an entry: a word, or a string without the character that ends a source. -/
inductive IsKey : Kind → List Char → Prop where
  | word {name : List Char} (isWord : IsWord name) : IsKey .propertyName name
  | string {content : List Char} (noNull : '\x00' ∉ content) : IsKey .string (Text.quote content)

theorem IsKey.startsPlain {kind : Kind} {key : List Char} (isKey : IsKey kind key) : StartsPlain key := by
  cases isKey with
  | word isWord => exact isWord.startsPlain
  | string noNull => exact startsPlain_quote _

/-- The name of an entry is read where it is written. -/
theorem takes_propertyKey {g : Grammar} {d : Dialect} {kind : Kind} {key : List Char} (isKey : IsKey kind key)
    (after : List Char) : Takes (Binding.propertyKey g) d key (':' :: after) fun n => leaf kind n key.length := by
  cases isKey with
  | word isWord =>
    exact (takes_anyName (s := []) _ blank_nil isWord (endsName_closer (by decide) after)).firstOf _
  | @string content noNull =>
    have solid : Solid (Text.quote content ++ ':' :: after) := solid_cons _ (by decide) (by decide)
    have noName : EndsName (Text.quote content ++ ':' :: after) := by
      rintro e ⟨⟩
      decide
    refine Refuses.takes_firstOf (refuses_anyName (s := []) blank_nil solid noName) ?_
    exact (takes_lexeme (s := []) .string blank_nil solid (stringLength?_quote _ _)).firstOf _

/-- The text of a name with an expression. -/
def pairText (key : List Char) (value : Item) : List Char := key ++ (':' :: ' ' :: value.text)

/-- A name with an expression, as an item among others. -/
def pairItem (kind : Kind) (key : List Char) (value : Item) : Item where
  text := pairText key value
  Fits := fun tree => ∃ inner, value.Fits inner ∧ tree = fun n => .mk .pair .plain ⟨n, n + (pairText key value).length⟩
    [(leaf kind n key.length).as .key, (inner (n + key.length + 2)).as .value]

theorem readable_pair {depth : Nat} {d : Dialect} {kind : Kind} {key : List Char} (isKey : IsKey kind key) {value : Item}
    (readable : Readable (rule depth (.expression false)) d value) :
    Readable (entry (rule depth)) d (pairItem kind key value) := by
  intro space after blank stops
  have colon : Solid (':' :: ' ' :: (value.text ++ after)) := solid_cons _ (by decide) (by decide)
  have takesKey := @takes_propertyKey (rule depth) d kind key isKey (' ' :: (value.text ++ after))
  obtain ⟨tree, fits, takesValue⟩ := readable [' '] after blank_space stops
  have sign_ : Takes (sign ":") d ([] ++ ":".toList) (' ' :: (value.text ++ after)) fun _ => () :=
    takes_sign ":" blank_nil colon
  have later (name : Node) : Takes (do
      sign ":"
      let value ← rule depth (.expression false)
      return [name.as .key, value.as .value]) d ([] ++ ":".toList ++ ([' '] ++ value.text)) after
      fun m => [name.as .key, (tree (m + 2)).as .value] :=
    sign_.bind (b := fun _ m => [name.as .key, (tree (m + 1)).as .value]) fun m =>
      (takesValue.map fun inner => [name.as .key, inner.as .value]).follows
  have parts : Takes (do
      let key ← Binding.propertyKey (rule depth)
      sign ":"
      let value ← rule depth (.expression false)
      return [key.as .key, value.as .value]) d (pairText key value) after fun n =>
        [(leaf kind n key.length).as .key, (tree (n + key.length + 2)).as .value] :=
    takesKey.bind (b := fun n m => [(leaf kind n key.length).as .key, (tree (m + 2)).as .value])
      fun n => (later _).follows
  have starts : StartsPlain (pairText key value) := isKey.startsPlain.append _
  refine ⟨_, ⟨tree, fits, rfl⟩, (refuses_spread blank starts).takes_firstOf (Takes.firstOf ?_ _)⟩
  exact parts.construct .pair blank (starts.solid after)

theorem refuses_propertyKey {rule : Grammar} {d : Dialect} {c : Char} (closer : c ∈ closers)
    (after : List Char) : Refuses (Binding.propertyKey rule) d (c :: after) := by
  have solid := solid_closer closer after
  have signs : ∀ e ∈ closers, '#' ≠ e ∧ '[' ≠ e := by decide
  have strings : stringLength? (c :: after) = none := by
    simp only [closers, List.mem_cons, List.not_mem_nil, or_false] at closer
    rcases closer with rfl | rfl | rfl | rfl | rfl | rfl <;> rfl
  have numbers : numberLength? (c :: after) = none := by
    simp only [closers, List.mem_cons, List.not_mem_nil, or_false] at closer
    rcases closer with rfl | rfl | rfl | rfl | rfl | rfl <;> rfl
  have hash : Refuses (sign "#") d (c :: after) :=
    refuses_sign (s := []) blank_nil solid (startsWith_cons_of_ne _ _ (signs c closer).1)
  have bracket : Refuses (sign "[") d (c :: after) :=
    refuses_sign (s := []) blank_nil solid (startsWith_cons_of_ne _ _ (signs c closer).2)
  refine Refuses.firstOf (refuses_anyName (s := []) blank_nil solid (endsName_closer closer after)) ?_
  refine Refuses.firstOf (refuses_lexeme (s := []) blank_nil solid strings) ?_
  refine Refuses.firstOf (refuses_lexeme (s := []) blank_nil solid numbers) ?_
  refine Refuses.firstOf (Refuses.construct (s := []) hash.seqRight.seqRight _ blank_nil solid) ?_
  exact (Refuses.construct (s := []) bracket.bind _ blank_nil solid).last

theorem refuses_memberModifier {d : Dialect} {words : List String} {c : Char} (closer : c ∈ closers)
    (after : List Char) (some_ : words.contains "" = false) :
    Refuses (Class.memberModifier words) d (c :: after) := by
  have next := sees_nextWord (s := []) (d := d) blank_nil (solid_closer closer after)
  rw [wordOf_of_ends (endsName_closer closer after)] at next
  exact next.refuses_bind (Refuses.bind (refuses_guarded some_))

/-- No entry begins where an object ends. -/
theorem refuses_entry {rule : Grammar} {d : Dialect} {c : Char} (closer : c ∈ closers)
    (after : List Char) : Refuses (entry rule) d (c :: after) := by
  have solid := solid_closer closer after
  have key : Refuses (Binding.propertyKey rule) d (c :: after) := refuses_propertyKey closer after
  have signs : ∀ e ∈ closers, '.' ≠ e ∧ '*' ≠ e := by decide
  have points : Refuses (sign "...") d (c :: after) :=
    refuses_sign (s := []) blank_nil solid (startsWith_cons_of_ne _ _ (signs c closer).1)
  have star : Refuses (sign "*") d (c :: after) :=
    refuses_sign (s := []) blank_nil solid (startsWith_cons_of_ne _ _ (signs c closer).2)
  refine Refuses.firstOf (Refuses.construct (s := []) points.bind _ blank_nil solid) ?_
  refine Refuses.firstOf (Refuses.construct (s := []) key.bind _ blank_nil solid) ?_
  refine Refuses.firstOf (Refuses.construct (s := []) ?_ _ blank_nil solid) ?_
  · refine Sees.refuses_bind (refuses_memberModifier closer after rfl).opt.discard ?_
    refine Sees.refuses_bind (a := ()) ?_ key.bind
    refine Sees.bind (refuses_memberModifier closer after rfl).opt.discard ?_
    exact ((refuses_memberModifier closer after rfl).orElse star).opt.discard
  · exact (refuses_name (s := []) blank_nil solid (Or.inr (endsName_closer closer after))).last

/-! ### Objects -/

/-- The text of entries between braces: blanks stand around them, if there are any. -/
def objectText (pairs : List Item) : List Char :=
  if pairs.isEmpty then ['\x7b', '\x7d'] else '\x7b' :: ([' '] ++ commaText pairs ++ [' ', '\x7d'])

/-- Entries between braces, as an item among others. -/
def objectItem (pairs : List Item) : Item where
  text := objectText pairs
  Fits := fun tree => ∃ nodes, Lays pairs nodes ∧
    tree = fun n => .mk .object .plain ⟨n, n + (objectText pairs).length⟩ (nodes (n + 2))

theorem exists_objectText (pairs : List Item) : ∃ inner, objectText pairs = '\x7b' :: inner := by
  unfold objectText
  split
  · exact ⟨_, rfl⟩
  · exact ⟨_, rfl⟩

theorem takes_object {depth : Nat} {d : Dialect} {pairs : List Item}
    (readable : ∀ item ∈ pairs, Readable (entry (rule depth)) d item) {space : List Char} (blank : Blank space)
    (after : List Char) :
    ∃ nodes, Lays pairs nodes ∧ Takes (object (rule depth)) d (space ++ objectText pairs) after fun n =>
      .mk .object .plain ⟨n + space.length, n + space.length + (objectText pairs).length⟩
        (nodes (n + space.length + 2)) := by
  have solid (rest : List Char) : Solid ("\x7b".toList ++ rest) := solid_cons rest (by decide) (by decide)
  unfold objectText
  rcases eq_or_ne pairs [] with rfl | some_
  · exact ⟨fun _ => [], fun _ => rfl, takes_enclosed_nil .object (refuses_entry (by decide) after) rfl
      (by decide) (by decide) blank solid⟩
  · rw [if_neg (by simpa using some_)]
    exact takes_enclosed .object some_ readable rfl (by decide) (by decide) blank blank_space solid after

theorem readable_object {depth : Nat} {d : Dialect} {pairs : List Item}
    (readable : ∀ item ∈ pairs, Readable (entry (rule depth)) d item) :
    Readable (rule (depth + 1) (.expression false)) d (objectItem pairs) := by
  intro space after blank stops
  obtain ⟨nodes, laid, takes⟩ := takes_object readable blank after
  obtain ⟨inner, text⟩ := exists_objectText pairs
  refine ⟨_, ⟨nodes, laid, rfl⟩, ?_⟩
  have same : (objectItem pairs).text = '\x7b' :: inner := text
  rw [text] at takes
  rw [same]
  have ahead : Sees upcoming d (space ++ '\x7b' :: inner ++ after) ('\x7b' :: inner ++ after) := by
    rw [List.append_assoc]
    exact sees_upcoming blank (solid_cons _ (by decide) (by decide))
  rw [text]
  exact takes_single_of_primary blank ⟨Or.inl (by decide), by decide, by decide⟩ (ahead.takes_bind takes) stops

end Script

end AnimationCode
