/-
**What a replacement leaves alone.**

A replacement goes through a text once, from left to right. Whatever its finder does not take stays, in its order.

* `Text.Rewrites`: a text with some of its spots written anew;
* `Text.rewrites_replaceEach`: a replacement writes only the spots anew that its finder takes;
* `Text.Silent`, `Text.replaceEach_of_silent`: a text in which nothing is found;
* `Text.Settles`, `Text.Settles.silent_replaceFrom`: finders that find nothing in what they have written;
* `Text.replaceFrom_take`, `Text.replaceFrom_pass`, `Text.findFrom_take`, `Text.findFrom_pass`: one step at a time.
-/

import AnimationCode.Text.Replace

namespace AnimationCode

namespace Text

variable {find : Finder (List Char)} {spot : List Char → List Char → Prop}

theorem lastBefore_append (found rest : List Char) : lastBefore (found ++ rest) rest = found.getLast? := by
  rw [lastBefore, List.length_append, Nat.add_sub_cancel, List.take_left]

/-- Steps that are enough for a text are enough for its rest once one of them is done. -/
theorem exists_fewer {c : Char} {cs : List Char} {steps : Nat} (enough : (c :: cs).length ≤ steps) :
    ∃ fewer, steps = fewer + 1 ∧ cs.length ≤ fewer := by
  rw [List.length_cons] at enough
  exact ⟨steps - 1, by omega, by omega⟩

/-- A spot is taken, and what is written there stands before what becomes of the rest. -/
theorem replaceFrom_take {before : Option Char} {c : Char} {cs written rest : List Char}
    (taken : find before (c :: cs) = some (written, rest)) (steps : Nat) :
    (replaceFrom find (steps + 1) before (c :: cs)).1 =
      written ++ (replaceFrom find steps (lastBefore (c :: cs) rest) rest).1 := by
  rw [replaceFrom, taken]

/-- A character that is not taken stays where it is. -/
theorem replaceFrom_pass {before : Option Char} {c : Char} {cs : List Char} (passed : find before (c :: cs) = none)
    (steps : Nat) : (replaceFrom find (steps + 1) before (c :: cs)).1 = c :: (replaceFrom find steps (some c) cs).1 := by
  rw [replaceFrom, passed]

theorem findFrom_take {α : Type} {find : Finder α} {before : Option Char} {c : Char} {cs rest : List Char} {found : α}
    (taken : find before (c :: cs) = some (found, rest)) (steps : Nat) :
    findFrom find (steps + 1) before (c :: cs) = found :: findFrom find steps (lastBefore (c :: cs) rest) rest := by
  rw [findFrom, taken]

theorem findFrom_pass {α : Type} {find : Finder α} {before : Option Char} {c : Char} {cs : List Char}
    (passed : find before (c :: cs) = none) (steps : Nat) :
    findFrom find (steps + 1) before (c :: cs) = findFrom find steps (some c) cs := by
  rw [findFrom, passed]

/-- A text with some of its spots written anew, and all else kept in order. -/
inductive Rewrites (spot : List Char → List Char → Prop) : List Char → List Char → Prop
  | nil : Rewrites spot [] []
  | keep (c : Char) {text after : List Char} (rest : Rewrites spot text after) : Rewrites spot (c :: text) (c :: after)
  | write {found written text after : List Char} (here : spot found written) (rest : Rewrites spot text after) :
    Rewrites spot (found ++ text) (written ++ after)

/-- A text beside itself. -/
theorem Rewrites.refl (text : List Char) : Rewrites spot text text := by
  induction text with
  | nil => exact .nil
  | cons c rest ih => exact ih.keep c

/-- The texts that a finder takes are spots, with what it writes in their place. -/
def Takes (find : Finder (List Char)) (spot : List Char → List Char → Prop) : Prop :=
  ∀ before cs written rest, find before cs = some (written, rest) → ∃ found, cs = found ++ rest ∧ spot found written

theorem rewrites_replaceFrom (takes : Takes find spot) (steps : Nat) :
    ∀ (before : Option Char) (text : List Char), Rewrites spot text (replaceFrom find steps before text).1 := by
  induction steps with
  | zero => exact fun _ text => .refl text
  | succ steps ih =>
    intro before text
    cases text with
    | nil => exact .nil
    | cons c cs =>
      unfold replaceFrom
      cases here : find before (c :: cs) with
      | none => exact (ih (some c) cs).keep c
      | some match_ =>
        obtain ⟨written, rest⟩ := match_
        obtain ⟨found, same, taken⟩ := takes before (c :: cs) written rest here
        rw [same]
        exact .write taken (ih _ rest)

/-- A replacement writes only the spots anew that its finder takes. -/
theorem rewrites_replaceEach (takes : Takes find spot) (text : List Char) : Rewrites spot text (replaceEach find text).1 :=
  rewrites_replaceFrom takes text.length none text

/-! ### Replacing again -/

variable {text out : List Char} {before other : Option Char}

/-- Nothing is found in a text, whatever stands before it. -/
def Silent (find : Finder (List Char)) (before : Option Char) (text : List Char) : Prop :=
  ∀ front c back, text = front ++ c :: back → find (front.getLast?.or before) (c :: back) = none

theorem silent_nil (before : Option Char) : Silent find before [] := fun front c back same => by simp at same

theorem silent_cons {c : Char} {cs : List Char} :
    Silent find before (c :: cs) ↔ find before (c :: cs) = none ∧ Silent find (some c) cs := by
  constructor
  · intro silent
    refine ⟨silent [] c cs rfl, fun front d back same => ?_⟩
    have here := silent (c :: front) d back (congrArg (List.cons c) same)
    rw [List.getLast?_cons, Option.some_or] at here
    cases last : front.getLast? with
    | none => rwa [last] at here
    | some e => rwa [last] at here
  · rintro ⟨none_, silent⟩ front d back same
    cases front with
    | nil =>
      obtain ⟨rfl, rfl⟩ := List.cons.inj same
      exact none_
    | cons e front =>
      obtain ⟨rfl, rfl⟩ := List.cons.inj same
      have here := silent front d back rfl
      rw [List.getLast?_cons, Option.some_or]
      cases last : front.getLast? with
      | none => rwa [last] at here
      | some e => rwa [last] at here

theorem silent_append {first : List Char} (here : ∀ front c back, first = front ++ c :: back →
    find (front.getLast?.or before) (c :: back ++ text) = none) (later : Silent find (first.getLast?.or before) text) :
    Silent find before (first ++ text) := by
  induction first generalizing before with
  | nil => exact later
  | cons d first ih =>
    refine silent_cons.mpr ⟨here [] d first rfl, ih (fun front c back same => ?_) ?_⟩
    · have found := here (d :: front) c back (congrArg (List.cons d) same)
      rw [List.getLast?_cons, Option.some_or] at found
      cases last : front.getLast? with
      | none => rwa [last] at found
      | some e => rwa [last] at found
    · rw [List.getLast?_cons, Option.some_or] at later
      cases last : first.getLast? with
      | none => rwa [last] at later
      | some e => rwa [last] at later

/-- A text in which nothing is found stays as it is. -/
theorem replaceFrom_of_silent (steps : Nat) (silent : Silent find before text) : replaceFrom find steps before text = (text, 0) := by
  induction steps generalizing before text with
  | zero => rfl
  | succ steps ih =>
    cases text with
    | nil => rfl
    | cons c cs =>
      obtain ⟨none_, later⟩ := silent_cons.mp silent
      rw [replaceFrom, none_, ih later]

theorem replaceEach_of_silent (silent : Silent find none text) : replaceEach find text = (text, 0) :=
  replaceFrom_of_silent text.length silent

/-- What becomes of a text: up to the next find it is kept, and there stands what is written for the find. -/
inductive Follows (find : Finder (List Char)) : List Char → List Char → Prop
  | ends : Follows find [] []
  | keeps (c : Char) {text out : List Char} (later : Follows find text out) : Follows find (c :: text) (c :: out)
  | writes {before : Option Char} {text written left more : List Char} (found : find before text = some (written, left)) :
    Follows find text (written ++ more)

theorem follows_replaceFrom (steps : Nat) (enough : text.length ≤ steps) (before : Option Char) :
    Follows find text (replaceFrom find steps before text).1 := by
  induction steps generalizing before text with
  | zero =>
    obtain rfl := List.length_eq_zero_iff.mp (Nat.le_zero.mp enough)
    exact .ends
  | succ steps ih =>
    cases text with
    | nil => exact .ends
    | cons c cs =>
      unfold replaceFrom
      cases here : find before (c :: cs) with
      | none => exact .keeps c (ih (by simpa using enough) (some c))
      | some match_ =>
        obtain ⟨written, rest⟩ := match_
        exact .writes here

/-- What is kept before the next find, and what is written there. -/
theorem Follows.exists_kept (follows : Follows find text out) : ∃ kept rest more, text = kept ++ rest ∧ out = kept ++ more ∧
    (rest = [] ∧ more = [] ∨ ∃ before written left tail, find before rest = some (written, left) ∧ more = written ++ tail) := by
  induction follows with
  | ends => exact ⟨[], [], [], rfl, rfl, .inl ⟨rfl, rfl⟩⟩
  | keeps c later ih =>
    obtain ⟨kept, rest, more, rfl, rfl, next⟩ := ih
    exact ⟨c :: kept, rest, more, rfl, rfl, next⟩
  | writes found => exact ⟨[], _, _, rfl, rfl, .inr ⟨_, _, _, _, found, rfl⟩⟩

/-- What stands in what becomes of a text stands in the text, before the same or before the next find, or it ends in what is
written for the next find. -/
theorem Follows.exists_of_append {c : Char} {found back : List Char} (follows : Follows find text out)
    (split : c :: out = found ++ back) :
    (∃ left, c :: text = found ++ left ∧ (left.head? = back.head? ∨
      ∃ before written rest tail, find before left = some (written, rest) ∧ back = written ++ tail)) ∨
    ∃ kept d beyond before rest written left tail, found = kept ++ d :: beyond ∧ kept ≠ [] ∧
      find before rest = some (written, left) ∧ d :: beyond ++ back = written ++ tail := by
  obtain ⟨kept, rest, more, rfl, rfl, next⟩ := follows.exists_kept
  rcases List.append_eq_append_iff.mp (show (c :: kept) ++ more = found ++ back from split) with ⟨beyond, rfl, ends⟩ | ⟨beyond, whole, ends⟩
  · cases beyond with
    | nil =>
      refine .inl ⟨rest, by simp, ?_⟩
      rcases next with ⟨rfl, rfl⟩ | ⟨before, written, left, tail, taken, rfl⟩
      · exact .inl (by rw [show back = [] from ends.symm])
      · exact .inr ⟨before, written, left, tail, taken, ends.symm⟩
    | cons d beyond =>
      rcases next with ⟨-, rfl⟩ | ⟨before, written, left, tail, taken, rfl⟩
      · cases ends
      · exact .inr ⟨c :: kept, d, beyond, before, rest, written, left, tail, rfl, List.cons_ne_nil _ _, taken, ends.symm⟩
  · refine .inl ⟨beyond ++ rest, by rw [← List.cons_append, whole, List.append_assoc], ?_⟩
    cases beyond with
    | cons d beyond => exact .inl (by rw [ends]; rfl)
    | nil =>
      rcases next with ⟨rfl, rfl⟩ | ⟨before, written, left, tail, taken, rfl⟩
      · exact .inl (by rw [ends])
      · exact .inr ⟨before, written, left, tail, taken, ends⟩

/-- A finder that finds nothing in what it has written, nor on the border of it. -/
structure Settles (find : Finder (List Char)) (spot : List Char → List Char → Prop) (Same : Option Char → Option Char → Prop) : Prop where
  takes : Takes find spot
  nonempty : ∀ {found written}, spot found written → found ≠ []
  refl : ∀ c, Same (some c) (some c)
  last : ∀ {found written}, spot found written → ∃ c, written.getLast? = some c ∧ Same found.getLast? (some c)
  within : ∀ {found written}, spot found written → ∀ {before other}, Same before other → ∀ front c back out,
    written = front ++ c :: back → find (front.getLast?.or other) (c :: back ++ out) = none
  kept : ∀ {before other c text out}, Same before other → Follows find text out → find before (c :: text) = none →
    find other (c :: out) = none

/-- **Nothing is found in what a replacement has written.** -/
theorem Settles.silent_replaceFrom {spot : List Char → List Char → Prop} {Same : Option Char → Option Char → Prop}
    (settles : Settles find spot Same) (steps : Nat) (enough : text.length ≤ steps) (same : Same before other) :
    Silent find other (replaceFrom find steps before text).1 := by
  induction steps generalizing before other text with
  | zero =>
    obtain rfl := List.length_eq_zero_iff.mp (Nat.le_zero.mp enough)
    exact silent_nil other
  | succ steps ih =>
    cases text with
    | nil => exact silent_nil other
    | cons c cs =>
      unfold replaceFrom
      have shorter : cs.length ≤ steps := by simpa using enough
      cases here : find before (c :: cs) with
      | none =>
        exact silent_cons.mpr ⟨settles.kept same (follows_replaceFrom steps shorter _) here, ih shorter (settles.refl c)⟩
      | some match_ =>
        obtain ⟨written, rest⟩ := match_
        obtain ⟨found, split, isSpot⟩ := settles.takes before (c :: cs) written rest here
        obtain ⟨d, last, sameLast⟩ := settles.last isSpot
        have fewer : rest.length ≤ steps := by
          have some_ := List.length_pos_iff.mpr (settles.nonempty isSpot)
          have width := congrArg List.length split
          rw [List.length_append, List.length_cons] at width
          omega
        dsimp only
        refine silent_append (fun front e back same_ => settles.within isSpot same front e back _ same_) ?_
        rw [last, split, lastBefore_append]
        exact ih fewer sameLast

end Text

end AnimationCode
