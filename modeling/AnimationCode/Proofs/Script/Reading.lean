/-
**What readers take.**

A reader is described by what it does on a text: it takes a part and yields a result for the offset of
that part, it sees the text without moving, or it refuses. The readers of a grammar are put together
from others, and so are these facts.

* `Takes`, `Follows`: a reader takes a text, from any cursor or right after a token;
* `Sees`, `Refuses`: a reader yields without moving, or fails;
* `Takes.bind`, `Follows.bind`: one reader after another;
* `Repeats`, `Grows`: a reader that is repeated, and one that builds on what it yielded.
-/

import AnimationCode.Script.Cursor

namespace AnimationCode

namespace Script

/-- The cursor after some characters were taken. -/
def Cursor.advance (c : Cursor) (count : Nat) : Cursor :=
  { c with rest := c.rest.drop count, offset := c.offset + count, last := c.offset + count }

/-- A cursor right after a token. -/
def Cursor.IsSettled (c : Cursor) : Prop := c.last = c.offset

namespace Cursor

theorem advance_advance (c : Cursor) (count m : Nat) :
    (c.advance count).advance m = c.advance (count + m) := by
  simp [advance, Nat.add_assoc]

theorem advance_zero {c : Cursor} (settled : c.IsSettled) : c.advance 0 = c := by
  obtain ⟨dialect, rest, offset, last, remarks⟩ := c
  obtain rfl : last = offset := settled
  simp [advance]

theorem isSettled_advance (c : Cursor) (count : Nat) : (c.advance count).IsSettled := rfl

theorem rest_advance {c : Cursor} {text after : List Char} (rest : c.rest = text ++ after) :
    (c.advance text.length).rest = after := by
  rw [advance, rest]
  exact List.drop_left

end Cursor

namespace Reader

variable {α β : Type} {d : Dialect} {text m after : List Char}

/-- A reader takes a text before what comes after it, and yields a result for the offset of the text. -/
def Takes (reader : Reader α) (d : Dialect) (text after : List Char) (result : Nat → α) : Prop :=
  ∀ c : Cursor, c.dialect = d → c.rest = text ++ after →
    reader c = some (result c.offset, c.advance text.length)

/-- A reader takes a text right after a token. -/
def Follows (reader : Reader α) (d : Dialect) (text after : List Char) (result : Nat → α) : Prop :=
  ∀ c : Cursor, c.IsSettled → c.dialect = d → c.rest = text ++ after →
    reader c = some (result c.offset, c.advance text.length)

/-- A reader yields a result without moving. -/
def Sees (reader : Reader α) (d : Dialect) (text : List Char) (result : α) : Prop :=
  ∀ c : Cursor, c.dialect = d → c.rest = text → reader c = some (result, c)

/-- A reader fails. -/
def Refuses (reader : Reader α) (d : Dialect) (text : List Char) : Prop :=
  ∀ c : Cursor, c.dialect = d → c.rest = text → reader c = none

/-! ### One reader after another -/

theorem bind_of_some {reader : Reader α} {next : α → Reader β} {c c' : Cursor} {a : α}
    (first : reader c = some (a, c')) : (reader >>= next) c = next a c' := by
  show (reader c).bind (fun found => next found.1 found.2) = _
  rw [first]
  rfl

theorem bind_of_none {reader : Reader α} {next : α → Reader β} {c : Cursor}
    (first : reader c = none) : (reader >>= next) c = none := by
  show (reader c).bind (fun found => next found.1 found.2) = _
  rw [first]
  rfl

theorem Takes.follows {reader : Reader α} {result : Nat → α} (takes : Takes reader d text after result) :
    Follows reader d text after result := fun c _ dialect rest => takes c dialect rest

theorem Sees.follows {reader : Reader α} {result : α} (sees : Sees reader d after result) :
    Follows reader d [] after (fun _ => result) := by
  intro c settled dialect rest
  rw [sees c dialect rest]
  exact congrArg (fun c' => some (result, c')) (Cursor.advance_zero settled).symm

theorem Takes.bind {reader : Reader α} {next : α → Reader β} {a : Nat → α} {b : Nat → Nat → β}
    (first : Takes reader d text (m ++ after) a)
    (second : ∀ n, Follows (next (a n)) d m after (b n)) :
    Takes (reader >>= next) d (text ++ m) after fun n => b n (n + text.length) := by
  intro c dialect rest
  rw [List.append_assoc] at rest
  rw [bind_of_some (first c dialect rest),
    second c.offset _ (Cursor.isSettled_advance c text.length) dialect (Cursor.rest_advance rest),
    Cursor.advance_advance, List.length_append]
  rfl

theorem Follows.bind {reader : Reader α} {next : α → Reader β} {a : Nat → α} {b : Nat → Nat → β}
    (first : Follows reader d text (m ++ after) a)
    (second : ∀ n, Follows (next (a n)) d m after (b n)) :
    Follows (reader >>= next) d (text ++ m) after fun n => b n (n + text.length) := by
  intro c settled dialect rest
  rw [List.append_assoc] at rest
  rw [bind_of_some (first c settled dialect rest),
    second c.offset _ (Cursor.isSettled_advance c text.length) dialect (Cursor.rest_advance rest),
    Cursor.advance_advance, List.length_append]
  rfl

theorem Sees.takes_bind {reader : Reader α} {next : α → Reader β} {a : α} {b : Nat → β}
    (first : Sees reader d (text ++ after) a) (second : Takes (next a) d text after b) :
    Takes (reader >>= next) d text after b := by
  intro c dialect rest
  rw [bind_of_some (first c dialect rest)]
  exact second c dialect rest

theorem Sees.follows_bind {reader : Reader α} {next : α → Reader β} {a : α} {b : Nat → β}
    (first : Sees reader d (text ++ after) a) (second : Follows (next a) d text after b) :
    Follows (reader >>= next) d text after b := by
  intro c settled dialect rest
  rw [bind_of_some (first c dialect rest)]
  exact second c settled dialect rest

theorem Sees.bind {reader : Reader α} {next : α → Reader β} {a : α} {b : β}
    (first : Sees reader d text a) (second : Sees (next a) d text b) :
    Sees (reader >>= next) d text b := by
  intro c dialect rest
  rw [bind_of_some (first c dialect rest)]
  exact second c dialect rest

theorem Sees.refuses_bind {reader : Reader α} {next : α → Reader β} {a : α}
    (first : Sees reader d text a) (second : Refuses (next a) d text) :
    Refuses (reader >>= next) d text := by
  intro c dialect rest
  rw [bind_of_some (first c dialect rest)]
  exact second c dialect rest

theorem Refuses.bind {reader : Reader α} {next : α → Reader β} (first : Refuses reader d text) :
    Refuses (reader >>= next) d text := fun c dialect rest => bind_of_none (first c dialect rest)

theorem Refuses.seqRight {reader : Reader α} {next : Reader β} (first : Refuses reader d text) :
    Refuses (reader *> next) d text :=
  show Refuses (reader >>= fun _ => next) d text from first.bind

theorem Takes.refuses_bind {reader : Reader α} {next : α → Reader β} {a : Nat → α}
    (first : Takes reader d text after a) (second : ∀ n, Refuses (next (a n)) d after) :
    Refuses (reader >>= next) d (text ++ after) := by
  intro c dialect rest
  rw [bind_of_some (first c dialect rest)]
  exact second c.offset _ dialect (Cursor.rest_advance rest)

theorem sees_pure (a : α) : Sees (pure a : Reader α) d text a := fun _ _ _ => rfl

/-- A result that is changed at the end. -/
theorem Takes.map {reader : Reader α} {a : Nat → α} (first : Takes reader d text after a)
    (change : α → β) : Takes (reader >>= fun x => pure (change x)) d text after
      fun n => change (a n) := by
  intro c dialect rest
  rw [bind_of_some (first c dialect rest)]
  rfl

theorem Follows.map {reader : Reader α} {a : Nat → α} (first : Follows reader d text after a)
    (change : α → β) : Follows (reader >>= fun x => pure (change x)) d text after
      fun n => change (a n) := by
  intro c settled dialect rest
  rw [bind_of_some (first c settled dialect rest)]
  rfl

/-- A result that what follows leaves as it is. -/
theorem Takes.seen {reader : Reader α} {next : α → Reader α} {a : Nat → α}
    (takes : Takes reader d text after a) (sees : ∀ result, Sees (next result) d after result) :
    Takes (reader >>= next) d text after a := by
  intro c dialect rest
  rw [bind_of_some (takes c dialect rest)]
  exact sees _ _ dialect (Cursor.rest_advance rest)

theorem Takes.congr {reader : Reader α} {a b : Nat → α} {other : List Char}
    (takes : Takes reader d text after a) (same : text = other) (results : ∀ n, a n = b n) :
    Takes reader d other after b := by
  subst same
  rwa [← funext results]

theorem Follows.congr {reader : Reader α} {a b : Nat → α} {other : List Char}
    (follows : Follows reader d text after a) (same : text = other) (results : ∀ n, a n = b n) :
    Follows reader d other after b := by
  subst same
  rwa [← funext results]

/-! ### Choices -/

theorem Takes.firstOf {reader : Reader α} {a : Nat → α} (takes : Takes reader d text after a)
    (others : List (Reader α)) : Takes (firstOf (reader :: others)) d text after a := by
  intro c dialect rest
  rw [Reader.firstOf]
  dsimp only
  rw [takes c dialect rest]

theorem Refuses.takes_firstOf {reader : Reader α} {others : List (Reader α)} {a : Nat → α}
    (refuses : Refuses reader d (text ++ after))
    (takes : Takes (Reader.firstOf others) d text after a) :
    Takes (Reader.firstOf (reader :: others)) d text after a := by
  intro c dialect rest
  rw [Reader.firstOf]
  dsimp only
  rw [refuses c dialect rest]
  exact takes c dialect rest

theorem refuses_failure : Refuses (failure : Reader α) d text := fun _ _ _ => rfl

theorem Refuses.firstOf {reader : Reader α} {others : List (Reader α)}
    (refuses : Refuses reader d text) (rest : Refuses (Reader.firstOf others) d text) :
    Refuses (Reader.firstOf (reader :: others)) d text := by
  intro c dialect same
  rw [Reader.firstOf]
  dsimp only
  rw [refuses c dialect same]
  exact rest c dialect same

/-- The last of several readers refuses. -/
theorem Refuses.last {reader : Reader α} (refuses : Refuses reader d text) :
    Refuses (Reader.firstOf [reader]) d text := refuses.firstOf refuses_failure

theorem refuses_firstOf {readers : List (Reader α)}
    (refuse : ∀ reader ∈ readers, Refuses reader d text) : Refuses (firstOf readers) d text := by
  induction readers with
  | nil => exact refuses_failure
  | cons reader others ih =>
    refine (refuse reader List.mem_cons_self).firstOf ?_
    exact ih fun other member => refuse other (List.mem_cons_of_mem reader member)

/-- The readers before one that takes the text refuse. -/
theorem Takes.firstOf_append {before readers : List (Reader α)} {a : Nat → α}
    (takes : Takes (Reader.firstOf readers) d text after a)
    (refuse : ∀ reader ∈ before, Refuses reader d (text ++ after)) :
    Takes (Reader.firstOf (before ++ readers)) d text after a := by
  induction before with
  | nil => exact takes
  | cons reader others ih =>
    refine (refuse reader List.mem_cons_self).takes_firstOf ?_
    exact ih fun other member => refuse other (List.mem_cons_of_mem reader member)

theorem Refuses.opt {reader : Reader α} (refuses : Refuses reader d text) :
    Sees (opt reader) d text none := by
  intro c dialect rest
  rw [Reader.opt, refuses c dialect rest]

theorem Takes.opt {reader : Reader α} {a : Nat → α} (takes : Takes reader d text after a) :
    Takes (Reader.opt reader) d text after fun n => some (a n) := by
  intro c dialect rest
  rw [Reader.opt, takes c dialect rest]

theorem Refuses.maybe {reader : Reader Node} (refuses : Refuses reader d text) :
    Sees (maybe reader) d text [] := by
  intro c dialect rest
  rw [Reader.maybe, refuses c dialect rest]

theorem Takes.maybe {reader : Reader Node} {a : Nat → Node} (takes : Takes reader d text after a) :
    Takes (Reader.maybe reader) d text after fun n => [a n] := by
  intro c dialect rest
  rw [Reader.maybe, takes c dialect rest]

theorem Sees.discard {reader : Reader α} {a : α} (sees : Sees reader d text a) :
    Sees (discard reader) d text () :=
  show Sees (reader >>= fun _ => pure ()) d text () from sees.bind (sees_pure ())

theorem Takes.discard {reader : Reader α} {a : Nat → α} (takes : Takes reader d text after a) :
    Takes (discard reader) d text after fun _ => () :=
  show Takes (reader >>= fun _ => pure ()) d text after fun _ => () from takes.map fun _ => ()

theorem Refuses.discard {reader : Reader α} (refuses : Refuses reader d text) :
    Refuses (discard reader) d text :=
  show Refuses (reader >>= fun _ => pure ()) d text from refuses.bind

theorem Refuses.orElse {first second : Reader α} (refusesFirst : Refuses first d text)
    (refusesSecond : Refuses second d text) : Refuses (first <|> second) d text := by
  intro c dialect same
  show (first c <|> second c) = none
  rw [refusesFirst c dialect same, refusesSecond c dialect same]
  rfl

theorem sees_rest : Sees rest d text text := by
  intro c _ rest
  rw [Reader.rest, rest]

theorem sees_typed : Sees typed d text d.typed := by
  intro c dialect _
  rw [Reader.typed, dialect]

theorem sees_markup : Sees markup d text d.markup := by
  intro c dialect _
  rw [Reader.markup, dialect]

theorem sees_guarded {condition : Bool} (holds : condition = true) :
    Sees (guarded condition) d text () := by
  subst holds
  exact sees_pure ()

theorem refuses_guarded {condition : Bool} (fails : condition = false) :
    Refuses (guarded condition) d text := by
  subst fails
  exact refuses_failure

theorem refuses_guarded_bind {condition : Bool} {next : Unit → Reader β}
    (refuses : Refuses (next ()) d text) : Refuses (guarded condition >>= next) d text := by
  cases condition with
  | false => exact Refuses.bind (refuses_guarded rfl)
  | true => exact Sees.refuses_bind (sees_guarded rfl) refuses

/-! ### Repetitions -/

/-- A reader, repeated, takes a text right after a token, however often it may be repeated. -/
def Repeats (reader : Reader α) (d : Dialect) (text after : List Char) (result : Nat → List α) :
    Prop :=
  ∀ (c : Cursor) (steps : Nat), c.IsSettled → c.dialect = d → c.rest = text ++ after →
    c.rest.length ≤ steps →
      manyUpTo reader steps c = some (result c.offset, c.advance text.length)

theorem Refuses.repeats {reader : Reader α} (refuses : Refuses reader d after) :
    Repeats reader d [] after fun _ => [] := by
  intro c steps settled dialect rest _
  have still : (some ([], c) : Option (List α × Cursor)) = some ([], c.advance ([] : List Char).length) :=
    congrArg (fun c' => some ([], c')) (Cursor.advance_zero settled).symm
  cases steps with
  | zero => exact still
  | succ steps =>
    rw [manyUpTo]
    dsimp only
    rw [refuses c dialect rest]
    exact still

theorem Follows.repeats {reader : Reader α} {a : Nat → α} {others : Nat → List α}
    (first : Follows reader d text (m ++ after) a) (moves : text ≠ [])
    (second : Repeats reader d m after others) :
    Repeats reader d (text ++ m) after fun n => a n :: others (n + text.length) := by
  intro c steps settled dialect rest enough
  rw [List.append_assoc] at rest
  have positive : 0 < text.length := List.length_pos_iff.mpr moves
  have length : c.rest.length = text.length + (m ++ after).length := by
    rw [rest, List.length_append]
  obtain ⟨fewer, rfl⟩ : ∃ fewer, steps = fewer + 1 := ⟨steps - 1, by omega⟩
  have onward := Cursor.rest_advance rest
  have further : ¬ (c.advance text.length).offset ≤ c.offset := by
    simp only [Cursor.advance]
    omega
  have within : (c.advance text.length).rest.length ≤ fewer := by
    rw [onward]
    omega
  rw [manyUpTo]
  dsimp only
  rw [first c settled dialect rest]
  dsimp only
  rw [if_neg further, second _ fewer (Cursor.isSettled_advance c text.length) dialect onward within,
    Cursor.advance_advance, List.length_append]
  rfl

theorem Repeats.congr {reader : Reader α} {a b : Nat → List α} {other : List Char}
    (repeats : Repeats reader d text after a) (same : text = other) (results : ∀ n, a n = b n) :
    Repeats reader d other after b := by
  subst same
  rwa [← funext results]

theorem Repeats.many {reader : Reader α} {result : Nat → List α}
    (repeats : Repeats reader d text after result) : Follows (many reader) d text after result :=
  fun c settled dialect rest => repeats c c.rest.length settled dialect rest (Nat.le_refl _)

/-- A reader that refuses is repeated no time. -/
theorem Refuses.many {reader : Reader α} (refuses : Refuses reader d text) :
    Sees (many reader) d text [] := by
  intro c dialect rest
  rw [Reader.many]
  cases c.rest.length with
  | zero => rfl
  | succ steps =>
    rw [manyUpTo]
    dsimp only
    rw [refuses c dialect rest]

/-- A builder takes a text right after a token, however often it may build. -/
def Grows (builder : Node → Reader Node) (d : Dialect) (text after : List Char) (node : Node)
    (result : Nat → Node) : Prop :=
  ∀ (c : Cursor) (steps : Nat), c.IsSettled → c.dialect = d → c.rest = text ++ after →
    c.rest.length ≤ steps →
      growUpTo builder steps node c = some (result c.offset, c.advance text.length)

theorem Refuses.grows {builder : Node → Reader Node} {node : Node}
    (refuses : Refuses (builder node) d after) : Grows builder d [] after node fun _ => node := by
  intro c steps settled dialect rest _
  have still : (some (node, c) : Option (Node × Cursor)) = some (node, c.advance ([] : List Char).length) :=
    congrArg (fun c' => some (node, c')) (Cursor.advance_zero settled).symm
  cases steps with
  | zero => exact still
  | succ steps =>
    rw [growUpTo]
    dsimp only
    rw [refuses c dialect rest]
    exact still

theorem Follows.grows {builder : Node → Reader Node} {node : Node} {a : Nat → Node}
    {b : Nat → Nat → Node} (first : Follows (builder node) d text (m ++ after) a)
    (moves : text ≠ []) (second : ∀ n, Grows builder d m after (a n) (b n)) :
    Grows builder d (text ++ m) after node fun n => b n (n + text.length) := by
  intro c steps settled dialect rest enough
  rw [List.append_assoc] at rest
  have positive : 0 < text.length := List.length_pos_iff.mpr moves
  have length : c.rest.length = text.length + (m ++ after).length := by
    rw [rest, List.length_append]
  obtain ⟨fewer, rfl⟩ : ∃ fewer, steps = fewer + 1 := ⟨steps - 1, by omega⟩
  have onward := Cursor.rest_advance rest
  have further : ¬ (c.advance text.length).offset ≤ c.offset := by
    simp only [Cursor.advance]
    omega
  have within : (c.advance text.length).rest.length ≤ fewer := by
    rw [onward]
    omega
  rw [growUpTo]
  dsimp only
  rw [first c settled dialect rest]
  dsimp only
  rw [if_neg further,
    second c.offset _ fewer (Cursor.isSettled_advance c text.length) dialect onward within,
    Cursor.advance_advance, List.length_append]
  rfl

theorem Grows.grow {builder : Node → Reader Node} {node : Node} {result : Nat → Node}
    (grows : Grows builder d text after node result) :
    Follows (grow builder node) d text after result :=
  fun c settled dialect rest => grows c c.rest.length settled dialect rest (Nat.le_refl _)

theorem Refuses.grow {builder : Node → Reader Node} {node : Node}
    (refuses : Refuses (builder node) d text) : Sees (grow builder node) d text node := by
  intro c dialect rest
  rw [Reader.grow]
  cases c.rest.length with
  | zero => rfl
  | succ steps =>
    rw [growUpTo]
    dsimp only
    rw [refuses c dialect rest]

end Reader

end Script

end AnimationCode
