/-
**What readers yield.**

Often it is enough to know a property of the result of a reader and not the result itself. A reader yields
what fits: it takes a text and its result has a property, given the offset of the text.

* `Yields`: a reader takes a text, and its result fits;
* `Yields.bind`: one reader after another;
* `Yields.construct`: a node of what a reader takes;
* `Iterates`: a reader that is repeated, and what fits each of its results.
-/

import AnimationCode.Proofs.Script.Token

namespace AnimationCode

namespace Script

/-- The cursor after a text was taken; it does not move for an empty text. -/
def Cursor.past (c : Cursor) (text : List Char) : Cursor :=
  if text = [] then c else c.advance text.length

namespace Cursor

variable {c : Cursor} {text after : List Char}

@[simp] theorem past_nil (c : Cursor) : c.past [] = c := if_pos rfl

theorem past_of_ne (c : Cursor) (moves : text ≠ []) : c.past text = c.advance text.length := if_neg moves

@[simp] theorem dialect_past (c : Cursor) (text : List Char) : (c.past text).dialect = c.dialect := by
  unfold past
  split <;> rfl

@[simp] theorem offset_past (c : Cursor) (text : List Char) :
    (c.past text).offset = c.offset + text.length := by
  unfold past
  split
  · subst text
    rfl
  · rfl

theorem rest_past (rest : c.rest = text ++ after) : (c.past text).rest = after := by
  unfold past
  split
  · subst text
    exact rest
  · exact rest_advance rest

theorem past_past (c : Cursor) (text m : List Char) :
    (c.past text).past m = c.past (text ++ m) := by
  by_cases first : text = []
  · rw [first, past_nil, List.nil_append]
  · by_cases second : m = []
    · rw [second, past_nil, List.append_nil]
    · rw [past_of_ne c first, past_of_ne _ second, past_of_ne c (by simp [first]), advance_advance,
        List.length_append]

end Cursor

namespace Reader

variable {α β : Type} {d : Dialect} {s text m after : List Char}

/-- A reader takes a text before what comes after it, and its result fits the offset of the text. -/
def Yields (reader : Reader α) (d : Dialect) (text after : List Char) (P : Nat → α → Prop) : Prop :=
  ∀ c : Cursor, c.dialect = d → c.rest = text ++ after →
    ∃ a, reader c = some (a, c.past text) ∧ P c.offset a

/-- What a reader of no value yields. -/
def Anything (_ : Nat) (_ : α) : Prop := True

/-! ### Taking and seeing -/

theorem Takes.yields {reader : Reader α} {result : Nat → α} {P : Nat → α → Prop}
    (takes : Takes reader d text after result) (moves : text ≠ []) (fits : ∀ n, P n (result n)) :
    Yields reader d text after P := by
  intro c dialect rest
  refine ⟨result c.offset, ?_, fits c.offset⟩
  rw [takes c dialect rest, Cursor.past_of_ne c moves]

theorem Sees.yields {reader : Reader α} {a : α} {P : Nat → α → Prop} (sees : Sees reader d after a)
    (fits : ∀ n, P n a) : Yields reader d [] after P := by
  intro c dialect rest
  refine ⟨a, ?_, fits c.offset⟩
  rw [sees c dialect rest, Cursor.past_nil]

theorem yields_pure {a : α} {P : Nat → α → Prop} (fits : ∀ n, P n a) :
    Yields (pure a : Reader α) d [] after P := (sees_pure a).yields fits

variable {reader : Reader α} {P : Nat → α → Prop}

theorem Yields.mono {Q : Nat → α → Prop} (yields : Yields reader d text after P)
    (weaker : ∀ n a, P n a → Q n a) : Yields reader d text after Q := by
  intro c dialect rest
  obtain ⟨a, takes, fits⟩ := yields c dialect rest
  exact ⟨a, takes, weaker _ a fits⟩

/-- What is read after a text that was seen before. -/
theorem Sees.yields_bind {first : Reader β} {next : β → Reader α} {b : β}
    (sees : Sees first d (text ++ after) b) (yields : Yields (next b) d text after P) :
    Yields (first >>= next) d text after P := by
  intro c dialect rest
  rw [bind_of_some (sees c dialect rest)]
  exact yields c dialect rest

/-! ### One reader after another -/

theorem Yields.bind {next : α → Reader β} {Q : Nat → β → Prop}
    (first : Yields reader d text (m ++ after) P)
    (second : ∀ n a, P n a →
      Yields (next a) d m after fun k b => k = n + text.length → Q n b) :
    Yields (reader >>= next) d (text ++ m) after Q := by
  intro c dialect rest
  rw [List.append_assoc] at rest
  obtain ⟨a, takes, fits⟩ := first c dialect rest
  obtain ⟨b, takesNext, others⟩ := second c.offset a fits (c.past text)
    ((Cursor.dialect_past c text).trans dialect) (Cursor.rest_past rest)
  refine ⟨b, ?_, others (Cursor.offset_past c text)⟩
  rw [bind_of_some takes, takesNext, Cursor.past_past]

/-- A reader whose result counts after one whose result does not. -/
theorem Yields.then {first : Reader β} {next : Reader α} {R : Nat → β → Prop}
    {Q : Nat → α → Prop} (yields : Yields first d text (m ++ after) R)
    (second : Yields next d m after P) (fits : ∀ n a, P (n + text.length) a → Q n a) :
    Yields (first >>= fun _ => next) d (text ++ m) after Q :=
  yields.bind fun n _ _ => second.mono fun _ a fit same => fits n a (same ▸ fit)

/-- A result that is changed at the end. -/
theorem Yields.map {Q : Nat → β → Prop} (yields : Yields reader d text after P)
    (change : α → β) (fits : ∀ n a, P n a → Q n (change a)) :
    Yields (reader >>= fun a => pure (change a)) d text after Q := by
  intro c dialect rest
  obtain ⟨a, takes, fit⟩ := yields c dialect rest
  refine ⟨change a, ?_, fits _ a fit⟩
  rw [bind_of_some takes]
  rfl

/-- A result that what follows leaves as it is. -/
theorem Yields.seen {next : α → Reader α} (yields : Yields reader d text after P)
    (sees : ∀ result, Sees (next result) d after result) : Yields (reader >>= next) d text after P := by
  intro c dialect rest
  obtain ⟨a, takes, fits⟩ := yields c dialect rest
  refine ⟨a, ?_, fits⟩
  rw [bind_of_some takes]
  exact sees a _ ((Cursor.dialect_past c text).trans dialect) (Cursor.rest_past rest)

/-- What is refused after a text whose result does not matter. -/
theorem Yields.refuses_bind {next : α → Reader β} (yields : Yields reader d text after P)
    (refuses : ∀ a, Refuses (next a) d after) : Refuses (reader >>= next) d (text ++ after) := by
  intro c dialect rest
  obtain ⟨a, first, -⟩ := yields c dialect rest
  rw [bind_of_some first]
  exact refuses a _ ((Cursor.dialect_past c text).trans dialect) (Cursor.rest_past rest)

theorem Yields.congr {other : List Char} (yields : Yields reader d text after P) (same : text = other) :
    Yields reader d other after P := same ▸ yields

theorem Yields.discard (yields : Yields reader d text after P) :
    Yields (discard reader) d text after Anything :=
  yields.map (fun _ => ()) fun _ _ _ => trivial

/-- What is refused after a text whose result does not count. -/
theorem Takes.refuses_seqRight {first : Reader β} {next : Reader α} {b : Nat → β}
    (takes : Takes first d text after b) (refuses : Refuses next d after) :
    Refuses (first *> next) d (text ++ after) :=
  show Refuses (first >>= fun _ => next) d (text ++ after) from takes.refuses_bind fun _ => refuses

/-! ### Choices -/

theorem Yields.firstOf (yields : Yields reader d text after P) (others : List (Reader α)) :
    Yields (Reader.firstOf (reader :: others)) d text after P := by
  intro c dialect rest
  obtain ⟨a, takes, fits⟩ := yields c dialect rest
  refine ⟨a, ?_, fits⟩
  rw [Reader.firstOf]
  dsimp only
  rw [takes]

theorem Refuses.yields_firstOf {others : List (Reader α)} (refuses : Refuses reader d (text ++ after))
    (yields : Yields (Reader.firstOf others) d text after P) :
    Yields (Reader.firstOf (reader :: others)) d text after P := by
  intro c dialect rest
  obtain ⟨a, takes, fits⟩ := yields c dialect rest
  refine ⟨a, ?_, fits⟩
  rw [Reader.firstOf]
  dsimp only
  rw [refuses c dialect rest]
  exact takes

theorem Yields.opt (yields : Yields reader d text after P) :
    Yields (Reader.opt reader) d text after fun n found => ∃ a, found = some a ∧ P n a := by
  intro c dialect rest
  obtain ⟨a, takes, fits⟩ := yields c dialect rest
  refine ⟨some a, ?_, a, rfl, fits⟩
  rw [Reader.opt, takes]

theorem Yields.maybe {reader : Reader Node} {P : Nat → Node → Prop}
    (yields : Yields reader d text after P) :
    Yields (Reader.maybe reader) d text after fun n found => ∃ a, found = [a] ∧ P n a := by
  intro c dialect rest
  obtain ⟨a, takes, fits⟩ := yields c dialect rest
  refine ⟨[a], ?_, a, rfl, fits⟩
  rw [Reader.maybe, takes]

/-! ### Tokens and nodes -/

theorem endsName_of_head? {c : Char} (head : text.head? = some c)
    (plain : (!isNameRest c && c != '\\') = true) : EndsName text := by
  simp only [Bool.and_eq_true, Bool.not_eq_true', bne_iff_ne, ne_eq] at plain
  intro e here
  obtain rfl : c = e := Option.some.inj (head.symm.trans here)
  exact plain

theorem yields_sign (mark : String) (blank : Blank s) (solid : Solid (mark.toList ++ after))
    (some_ : mark.toList ≠ []) : Yields (sign mark) d (s ++ mark.toList) after Anything :=
  (takes_sign mark blank solid).yields (List.append_ne_nil_of_right_ne_nil _ some_) fun _ => trivial

theorem yields_word (expected : String) (blank : Blank s) (isWord : IsWord expected.toList)
    (ends : EndsName after) : Yields (word expected) d (s ++ expected.toList) after Anything :=
  (takes_word expected blank isWord ends).yields
    (List.append_ne_nil_of_right_ne_nil _ isWord.nonempty) fun _ => trivial

/-- A node of some kind that covers a text, and what fits its children. -/
def Covers (kind : Kind) (text : List Char) (P : Nat → List Node → Prop) (n : Nat) (node : Node) : Prop :=
  ∃ children, node = .mk kind .plain ⟨n, n + text.length⟩ children ∧ P n children

theorem Yields.start {next : Nat → Reader α} (P : Nat → Nat → α → Prop) (blank : Blank s)
    (solid : Solid (text ++ after)) (yields : ∀ first, Yields (next first) d text after (P first))
    (moves : text ≠ []) :
    Yields (start >>= next) d (s ++ text) after fun n => P (n + s.length) (n + s.length) := by
  intro c dialect rest
  rw [List.append_assoc] at rest
  obtain ⟨a, takes, fits⟩ := yields (c.offset + s.length) (c.skip s.length) dialect
    (Cursor.rest_skip rest)
  refine ⟨a, ?_, fits⟩
  rw [bind_of_some (start_skip blank solid rest), takes, Cursor.past_of_ne _ moves, Cursor.skip_advance,
    Cursor.past_of_ne _ (List.append_ne_nil_of_right_ne_nil _ moves), List.length_append]

/-- The end of what was read, after a text was taken. -/
theorem Yields.last {next : α → Nat → Reader β} {Q : Nat → β → Prop} (moves : text ≠ [])
    (yields : Yields reader d text after P)
    (fits : ∀ n a, P n a → ∀ c, ∃ b, next a (n + text.length) c = some (b, c) ∧ Q n b) :
    Yields (reader >>= fun a => Reader.last >>= next a) d text after Q := by
  intro c dialect rest
  obtain ⟨a, takes, fit⟩ := yields c dialect rest
  obtain ⟨b, same, others⟩ := fits _ a fit (c.past text)
  refine ⟨b, ?_, others⟩
  have stop : (c.past text).last = c.offset + text.length := by
    rw [Cursor.past_of_ne c moves]
    rfl
  rw [bind_of_some takes, ← same, ← stop]
  rfl

/-- What does not depend on the end of the token before it. -/
theorem Yields.pastLast {next : Nat → Reader α} (yields : ∀ stop, Yields (next stop) d text after P) :
    Yields (Reader.last >>= next) d text after P := fun c => yields c.last c

/-- What is seen right after a token. -/
theorem Yields.settled {next : α → Reader β} {Q : Nat → β → Prop} (moves : text ≠ [])
    (yields : Yields reader d text after P)
    (sees : ∀ n a, P n a → ∀ c : Cursor, c.dialect = d → c.rest = after → c.last = n + text.length →
      ∃ b, next a c = some (b, c) ∧ Q n b) :
    Yields (reader >>= next) d text after Q := by
  intro c dialect rest
  obtain ⟨a, takes, fit⟩ := yields c dialect rest
  have stop : (c.past text).last = c.offset + text.length := by
    rw [Cursor.past_of_ne c moves]
    rfl
  obtain ⟨b, same, others⟩ := sees _ a fit (c.past text) ((Cursor.dialect_past c text).trans dialect)
    (Cursor.rest_past rest) stop
  exact ⟨b, (bind_of_some takes).trans same, others⟩

theorem Yields.construct {reader : Reader (List Node)} {P : Nat → List Node → Prop}
    (yields : Yields reader d text after P) (kind : Kind) (blank : Blank s)
    (solid : Solid (text ++ after)) (moves : text ≠ []) :
    Yields (construct kind reader) d (s ++ text) after fun n =>
      Covers kind text P (n + s.length) :=
  (Yields.start (fun first n node => n = first → Covers kind text P first node) blank solid
    (fun _ => Yields.last moves yields fun _ children fits _ =>
      ⟨_, rfl, fun same => ⟨children, same ▸ rfl, same ▸ fits⟩⟩) moves).mono fun _ _ covers => covers rfl

/-! ### Repetitions -/

/-- A reader, repeated, takes a text, however often it may be repeated, and its results fit. -/
def Iterates (reader : Reader α) (d : Dialect) (text after : List Char) (P : Nat → List α → Prop) : Prop :=
  ∀ (c : Cursor) (steps : Nat), c.dialect = d → c.rest = text ++ after → c.rest.length ≤ steps →
    ∃ as, manyUpTo reader steps c = some (as, c.past text) ∧ P c.offset as

theorem Refuses.iterates {P : Nat → List α → Prop} (refuses : Refuses reader d after)
    (fits : ∀ n, P n []) : Iterates reader d [] after P := by
  intro c steps dialect rest _
  refine ⟨[], ?_, fits c.offset⟩
  rw [Cursor.past_nil]
  cases steps with
  | zero => rfl
  | succ steps =>
    rw [manyUpTo]
    dsimp only
    rw [refuses c dialect rest]

theorem Yields.iterates {Q : Nat → List α → Prop} (first : Yields reader d text (m ++ after) P)
    (moves : text ≠ []) (second : Iterates reader d m after Q) :
    Iterates reader d (text ++ m) after fun n found =>
      ∃ a rest, found = a :: rest ∧ P n a ∧ Q (n + text.length) rest := by
  intro c steps dialect rest enough
  rw [List.append_assoc] at rest
  have positive : 0 < text.length := List.length_pos_iff.mpr moves
  have length : c.rest.length = text.length + (m ++ after).length := by
    rw [rest, List.length_append]
  obtain ⟨fewer, rfl⟩ : ∃ fewer, steps = fewer + 1 := ⟨steps - 1, by omega⟩
  obtain ⟨a, takes, fits⟩ := first c dialect rest
  have onward := Cursor.rest_past rest
  have within : (c.past text).rest.length ≤ fewer := by
    rw [onward]
    omega
  obtain ⟨found, again, others⟩ := second (c.past text) fewer
    ((Cursor.dialect_past c text).trans dialect) onward within
  have further : ¬ (c.past text).offset ≤ c.offset := by
    rw [Cursor.offset_past]
    omega
  refine ⟨a :: found, ?_, a, found, rfl, fits, Cursor.offset_past c text ▸ others⟩
  rw [manyUpTo]
  dsimp only
  rw [takes]
  dsimp only
  rw [if_neg further, again, Cursor.past_past]
  rfl

theorem Iterates.many {P : Nat → List α → Prop} (iterates : Iterates reader d text after P) :
    Yields (many reader) d text after P := fun c dialect rest =>
  iterates c c.rest.length dialect rest (Nat.le_refl _)

end Reader

end Script

end AnimationCode
