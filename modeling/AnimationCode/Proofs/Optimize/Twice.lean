/-
**A pass over its own text.**

A second pass finds nothing to replace in what the first one has written: a shift is no position, and what stops for reduced
motion is no repetition without end. What is put in for the stops, the declaration of the wish, is no such repetition either,
and makes none of what stands around it.

* `TextPass.settles_position`, `TextPass.settles_repetition`: nothing is found in what was written, nor on its borders;
* `TextPass.performance_performance`: positions are replaced once;
* `TextPass.silent_ensure`: the declaration makes no repetition without end;
* `TextPass.accessibility_accessibility`: repetitions are stopped once;
* `optimizeText_optimizeText`: the passes for one area leave their own text as it is.
-/

import AnimationCode.Proofs.Import.Unused
import AnimationCode.Proofs.Optimize.Text
import AnimationCode.Proofs.ReducedMotion

namespace AnimationCode

namespace TextPass

open Text (isBlank isWord isDecimalDigit stripStart? stripStart?_append eq_append_of_stripStart? Silent Follows Settles EndsRun
  takeWhile_run)

variable {before other : Option Char} {text out cs rest between number written : List Char} {c : Char}

/-! ### Positions -/

theorem mem_shifts {property shift : String} (member : (property, shift) ∈ shifts) :
    (property = "top" ∧ shift = "y") ∨ (property = "left" ∧ shift = "x") := by
  simpa [shifts] using member

theorem isColon_head (isColon : IsColon between) : ∃ c more, between = c :: more ∧ (isBlank c = true ∨ c = ':') := by
  cases between with
  | nil =>
    obtain ⟨front, back, -, -, same⟩ := isColon
    simp at same
  | cons c more => exact ⟨c, more, rfl, isColon_chars isColon c List.mem_cons_self⟩

/-- No character that is written for a position begins one. -/
theorem mem_shifted {found : List Char} (isShifted : IsShifted found written) (member : c ∈ written) : c ≠ 't' ∧ c ≠ 'l' := by
  obtain ⟨property, shift, between, value, number, known, isColon, isPixels, -, rfl⟩ := isShifted
  rcases List.mem_append.mp member with member | member
  · rcases List.mem_append.mp member with among | among
    · rcases mem_shifts known with ⟨-, rfl⟩ | ⟨-, rfl⟩ <;>
      · obtain rfl := List.mem_singleton.mp among
        decide
    · rcases isColon_chars isColon c among with blank | rfl
      · exact ⟨fun same => absurd blank (same ▸ by decide), fun same => absurd blank (same ▸ by decide)⟩
      · decide
  · rcases isNumber_chars isPixels.1 c member with digit | rfl | rfl
    · exact ⟨fun same => absurd digit (same ▸ by decide), fun same => absurd digit (same ▸ by decide)⟩
    · decide
    · decide

theorem position_of_other (first : ∀ c ∈ cs.head?, c ≠ 't' ∧ c ≠ 'l') (before : Option Char) : position before cs = none := by
  cases found : position before cs with
  | none => rfl
  | some match_ =>
    obtain ⟨written, rest⟩ := match_
    obtain ⟨-, property, shift, between, value, number, known, -, -, rfl, -⟩ := position_eq_some_iff.mp found
    rcases mem_shifts known with ⟨rfl, -⟩ | ⟨rfl, -⟩
    · exact absurd rfl (first 't' rfl).1
    · exact absurd rfl (first 'l' rfl).2

/-- The letters of shifts are not among what stands before a unit. -/
theorem not_shift_of_mem {property shift : String} (known : (property, shift) ∈ shifts) (isColon : IsColon between)
    (isNumber : IsNumber number) (member : c ∈ property.toList ++ (between ++ number)) : c ≠ 'x' ∧ c ≠ 'y' := by
  rcases List.mem_append.mp member with among | among
  · rcases mem_shifts known with ⟨rfl, -⟩ | ⟨rfl, -⟩
    · exact (by decide : ∀ c ∈ "top".toList, c ≠ 'x' ∧ c ≠ 'y') c among
    · exact (by decide : ∀ c ∈ "left".toList, c ≠ 'x' ∧ c ≠ 'y') c among
  · rcases List.mem_append.mp among with among | among
    · rcases isColon_chars isColon c among with blank | rfl
      · exact ⟨fun same => absurd blank (same ▸ by decide), fun same => absurd blank (same ▸ by decide)⟩
      · decide
    · rcases isNumber_chars isNumber c among with digit | rfl | rfl
      · exact ⟨fun same => absurd digit (same ▸ by decide), fun same => absurd digit (same ▸ by decide)⟩
      · decide
      · decide

/-- In what stands for a position the letter of a shift is that of a unit, before the quote that closes it. -/
theorem exists_quote_of_shift {property shift : String} {value front back : List Char} (known : (property, shift) ∈ shifts)
    (isColon : IsColon between) (isPixels : IsPixelsBefore value number rest) (letter : c = 'x' ∨ c = 'y')
    (split : property.toList ++ (between ++ value) = front ++ c :: back) : ∃ quote, (quote = '\'' ∨ quote = '"') ∧ back = [quote] := by
  obtain ⟨isNumber, form⟩ := isPixels
  have other {d : Char} (member : d ∈ property.toList ++ (between ++ number)) : c ≠ d := by
    have apart := not_shift_of_mem known isColon isNumber member
    rintro rfl
    exact letter.elim apart.1 apart.2
  rcases form with ⟨rfl, -⟩ | ⟨quote, quoted, rfl⟩
  · exact absurd rfl (other (split ▸ List.mem_append_right _ List.mem_cons_self))
  · have unquoted : c ≠ quote := by rcases letter with rfl | rfl <;> rcases quoted with rfl | rfl <;> decide
    have unlettered : c ≠ 'p' := by rcases letter with rfl | rfl <;> decide
    have absent : c ∉ property.toList ++ (between ++ (quote :: (number ++ ['p']))) := by
      intro member
      simp only [List.mem_append, List.mem_cons, List.not_mem_nil, or_false] at member
      rcases member with among | among | same | among | same
      · exact other (by simp [among]) rfl
      · exact other (by simp [among]) rfl
      · exact unquoted same
      · exact other (by simp [among]) rfl
      · exact unlettered same
    have parts : (property.toList ++ (between ++ (quote :: (number ++ ['p'])))) ++ ['x', quote] = front ++ c :: back := by
      rw [← split]
      simp
    rcases List.append_eq_append_iff.mp parts with ⟨more, -, same⟩ | ⟨more, same, tail⟩
    · rcases more with _ | ⟨d, _ | ⟨e, more⟩⟩
      · exact ⟨quote, quoted, (List.cons.inj same).2.symm⟩
      · exact absurd (List.cons.inj (List.cons.inj same).2).1.symm unquoted
      · simp at same
    · cases more with
      | nil => exact ⟨quote, quoted, (List.cons.inj tail).2⟩
      | cons d more =>
        obtain rfl : c = d := (List.cons.inj tail).1
        exact absurd (same ▸ List.mem_append_right _ List.mem_cons_self) absent

/-- Two characters before a place that count as the same there, as no property begins behind the second one. -/
def SameStart (before other : Option Char) : Prop := other = before ∨ propertyStart other = false

theorem position_of_follows (same : SameStart before other) (follows : Follows position text out)
    (none_ : position before (c :: text) = none) : position other (c :: out) = none := by
  cases found : position other (c :: out) with
  | none => rfl
  | some match_ =>
    obtain ⟨written, back⟩ := match_
    obtain ⟨starts, property, shift, between, value, number, known, isColon, isPixels, split, -⟩ := position_eq_some_iff.mp found
    obtain rfl : other = before := same.resolve_right (by simp [starts])
    have line : c :: out = property.toList ++ (between ++ value) ++ back := by
      rw [split]
      simp
    rcases follows.exists_of_append line with ⟨left, whole, next⟩ | ⟨kept, d, beyond, before, rest, written, left, tail, whole, -, taken, ends⟩
    · -- it would have been found before
      have again : IsPixelsBefore value number left := by
        refine ⟨isPixels.1, isPixels.2.imp_left fun bare => ⟨bare.1, ?_⟩⟩
        rcases next with same | ⟨before, written, rest, tail, taken, rfl⟩
        · rw [same]
          exact bare.2
        · -- the number would go on with the letter of a shift
          obtain ⟨-, property', shift', between', value', number', known', -, -, -, rfl⟩ := position_eq_some_iff.mp taken
          rcases mem_shifts known' with ⟨-, rfl⟩ | ⟨-, rfl⟩
          · exact absurd (bare.2 'y' rfl) (by decide)
          · exact absurd (bare.2 'x' rfl) (by decide)
      have read := position_eq_some_iff.mpr ⟨starts, property, shift, between, value, number, known, isColon, again, rfl, rfl⟩
      rw [← List.append_assoc between, ← List.append_assoc property.toList, ← whole, none_] at read
      cases read
    · obtain ⟨-, property', shift', between', value', number', known', isColon', -, -, rfl⟩ := position_eq_some_iff.mp taken
      obtain ⟨e, more, rfl, second⟩ := isColon_head isColon'
      have letter : (d = 'x' ∨ d = 'y') ∧ ∃ tail, beyond ++ back = e :: tail := by
        rcases mem_shifts known' with ⟨-, rfl⟩ | ⟨-, rfl⟩
        · exact ⟨.inr (List.cons.inj ends).1, _, (List.cons.inj ends).2⟩
        · exact ⟨.inl (List.cons.inj ends).1, _, (List.cons.inj ends).2⟩
      obtain ⟨quote, quoted, rfl⟩ := exists_quote_of_shift known isColon isPixels letter.1 whole
      obtain ⟨tail, follows⟩ := letter.2
      obtain rfl : quote = e := (List.cons.inj follows).1
      rcases quoted with rfl | rfl <;> exact absurd second (by decide)

/-- Nothing is found in what was written for positions. -/
theorem settles_position : Settles position IsShifted SameStart where
  takes := takes_position
  nonempty := by
    rintro found written ⟨property, shift, between, value, number, known, -, -, rfl, -⟩ nothing
    rcases mem_shifts known with ⟨rfl, -⟩ | ⟨rfl, -⟩ <;> cases nothing
  refl _ := .inl rfl
  last := by
    rintro found written ⟨property, shift, between, value, number, -, -, isPixels, -, rfl⟩
    obtain ⟨c, last, digit⟩ := isNumber_last isPixels.1
    refine ⟨c, by rw [List.getLast?_append, last, Option.some_or], .inr ?_⟩
    rw [propertyStart, Option.any_some, isWord_of_isDecimalDigit digit]
    rfl
  within isShifted _ _ _ front c back out split :=
    position_of_other (fun d member => by
      obtain rfl := Option.some.inj member
      exact mem_shifted isShifted (split ▸ List.mem_append_right _ List.mem_cons_self)) _
  kept := position_of_follows

/-- **Positions are replaced once.** -/
theorem performance_performance (code : List Char) : (performance (performance code).1).1 = (performance code).1 := by
  have silent : Silent position none (Text.replaceEach position code).1 :=
    settles_position.silent_replaceFrom code.length (Nat.le_refl _) (.inl rfl)
  change (Text.replaceEach position (Text.replaceEach position code).1).1 = (Text.replaceEach position code).1
  rw [Text.replaceEach_of_silent silent]

/-! ### Repetitions without end -/

/-- Nothing but its first character in a repetition without end is the letter that it begins with. -/
theorem not_mem_tail (isColon : IsColon between) : 'r' ∉ "epeat".toList ++ (between ++ "Infinity".toList) := by
  intro member
  rcases List.mem_append.mp member with among | among
  · exact absurd among (by decide)
  · rcases List.mem_append.mp among with among | among
    · rcases isColon_chars isColon _ among with blank | same
      · exact absurd blank (by decide)
      · exact absurd same (by decide)
    · exact absurd among (by decide)

theorem repetition_of_follows (same : before = other) (follows : Follows repetition text out)
    (none_ : repetition before (c :: text) = none) : repetition other (c :: out) = none := by
  subst same
  cases found : repetition before (c :: out) with
  | none => rfl
  | some match_ =>
    obtain ⟨written, back⟩ := match_
    obtain ⟨free, between, isColon, split, ends, -⟩ := repetition_eq_some_iff.mp found
    have line : c :: out = "repeat".toList ++ (between ++ "Infinity".toList) ++ back := by
      rw [split]
      simp
    rcases follows.exists_of_append line with ⟨left, whole, next⟩ | ⟨kept, d, beyond, before, rest, written, left, tail, whole, some_, taken, ends_⟩
    · -- it would have been found before
      have again : ∀ d ∈ left.head?, isWord d = false := by
        rcases next with same | ⟨before, written, rest, tail, taken, rfl⟩
        · rw [same]
          exact ends
        · -- behind it a word would begin
          obtain ⟨-, between', -, -, -, rfl⟩ := repetition_eq_some_iff.mp taken
          exact absurd (ends 'r' rfl) (by decide)
      have read := repetition_eq_some_iff.mpr ⟨free, between, isColon, rfl, again, rfl⟩
      rw [← List.append_assoc between, ← List.append_assoc "repeat".toList, ← whole, none_] at read
      cases read
    · obtain ⟨-, between', -, -, -, rfl⟩ := repetition_eq_some_iff.mp taken
      obtain rfl : d = 'r' := (List.cons.inj ends_).1
      obtain ⟨e, kept, rfl⟩ := List.exists_cons_of_ne_nil some_
      have tail_ : "epeat".toList ++ (between ++ "Infinity".toList) = kept ++ 'r' :: beyond := (List.cons.inj whole).2
      exact absurd (tail_ ▸ List.mem_append_right _ List.mem_cons_self) (not_mem_tail isColon)

/-- In the guard that stops a repetition no other one begins. -/
theorem not_repeat_of_drop : ∀ count < "prefersReducedMotion ? 0 : Infinity".toList.length,
    ("prefersReducedMotion ? 0 : Infinity".toList.drop count).head? = some 'r' →
      3 ≤ ("prefersReducedMotion ? 0 : Infinity".toList.drop count).length ∧
        ("prefersReducedMotion ? 0 : Infinity".toList.drop count).take 3 ≠ "rep".toList := by
  decide

theorem repetition_within {found : List Char} (isStopped : IsStopped found written) (front : List Char) (c : Char) (back out : List Char)
    (split : written = front ++ c :: back) (before : Option Char) : repetition before (c :: back ++ out) = none := by
  obtain ⟨between, isColon, -, rfl⟩ := isStopped
  cases again : repetition before (c :: back ++ out) with
  | none => rfl
  | some match_ =>
    obtain ⟨written, rest⟩ := match_
    obtain ⟨-, between', isColon', whole, -, -⟩ := repetition_eq_some_iff.mp again
    obtain rfl : c = 'r' := (List.cons.inj whole).1
    cases front with
    | nil =>
      -- at the beginning the guard stands where the number would have to
      have same : between ++ ("prefersReducedMotion ? 0 : Infinity".toList ++ out) = between' ++ ("Infinity".toList ++ rest) := by
        have line : "repeat".toList ++ (between ++ ("prefersReducedMotion ? 0 : Infinity".toList ++ out)) =
            "repeat".toList ++ (between' ++ ("Infinity".toList ++ rest)) := by
          rw [← whole]
          have written_ : 'r' :: back = "repeat".toList ++ between ++ "prefersReducedMotion ? 0 : Infinity".toList := split.symm
          rw [written_]
          simp
        exact List.append_cancel_left line
      have first : colon? (between ++ ("prefersReducedMotion ? 0 : Infinity".toList ++ out)) =
          some (between, "prefersReducedMotion ? 0 : Infinity".toList ++ out) :=
        colon?_append isColon fun d member => by obtain rfl := Option.some.inj member; decide
      rw [same, colon?_append isColon' fun d member => by obtain rfl := Option.some.inj member; decide] at first
      cases congrArg List.head? (congrArg Prod.snd (Option.some.inj first))
    | cons d front =>
      obtain ⟨more, guard⟩ : ∃ more, "prefersReducedMotion ? 0 : Infinity".toList = more ++ 'r' :: back := by
        have tail_ : ("epeat".toList ++ between) ++ "prefersReducedMotion ? 0 : Infinity".toList = front ++ 'r' :: back :=
          (List.cons.inj split).2
        have absent : 'r' ∉ "epeat".toList ++ between := fun member => not_mem_tail isColon (by simp only [List.mem_append] at member ⊢; tauto)
        rcases List.append_eq_append_iff.mp tail_ with ⟨more, -, same⟩ | ⟨more, same, tail⟩
        · exact ⟨more, same⟩
        · cases more with
          | nil => exact ⟨[], by simpa using tail.symm⟩
          | cons e more =>
            obtain rfl : 'r' = e := (List.cons.inj tail).1
            exact absurd (same ▸ List.mem_append_right _ List.mem_cons_self) absent
      have dropped : "prefersReducedMotion ? 0 : Infinity".toList.drop more.length = 'r' :: back := by rw [guard, List.drop_left]
      have short : more.length < "prefersReducedMotion ? 0 : Infinity".toList.length := by
        rw [guard, List.length_append, List.length_cons]
        omega
      obtain ⟨long, other⟩ := not_repeat_of_drop more.length short (by rw [dropped]; rfl)
      rw [dropped] at long other
      have begins : ('r' :: back ++ out).take 3 = "rep".toList := by
        rw [whole]
        rfl
      rw [List.take_append_of_le_length long] at begins
      exact absurd begins other

/-- Nothing is found in what stops a repetition. -/
theorem settles_repetition : Settles repetition IsStopped Eq where
  takes := takes_repetition
  nonempty := by
    rintro found written ⟨between, -, rfl, -⟩ nothing
    cases nothing
  refl _ := rfl
  last := by
    rintro found written ⟨between, -, rfl, rfl⟩
    exact ⟨'y', by rw [List.getLast?_append]; rfl, by rw [List.getLast?_append]; rfl⟩
  within isStopped _ _ _ front c back out split := repetition_within isStopped front c back out split _
  kept := repetition_of_follows

/-! ### The declaration of the wish -/

/-- **A text without repetitions without end**: each that stands in it is part of a longer name. -/
theorem silent_repetition_iff : Silent repetition before text ↔ ∀ front found back, text = front ++ (found ++ back) → IsEndless found →
    (∀ c ∈ front.getLast?.or before, goesOn c = false) → ∃ c ∈ back.head?, isWord c = true := by
  constructor
  · rintro silent front found back rfl ⟨between, isColon, rfl⟩ free
    have none_ := silent front 'r' ("epeat".toList ++ (between ++ "Infinity".toList) ++ back) rfl
    by_contra ends
    have found := repetition_eq_some_iff.mpr ⟨free, between, isColon, rfl, fun c member => by
      cases word : isWord c with
      | false => rfl
      | true => exact absurd ⟨c, member, word⟩ ends, rfl⟩
    have line : "repeat".toList ++ (between ++ ("Infinity".toList ++ back)) =
        'r' :: ("epeat".toList ++ (between ++ "Infinity".toList) ++ back) := by
      change 'r' :: ("epeat".toList ++ (between ++ ("Infinity".toList ++ back))) = _
      rw [List.append_assoc, List.append_assoc]
    rw [line, none_] at found
    cases found
  · intro only front c back split
    cases found : repetition (front.getLast?.or before) (c :: back) with
    | none => rfl
    | some match_ =>
      obtain ⟨written, rest⟩ := match_
      obtain ⟨free, between, isColon, same, ends, -⟩ := repetition_eq_some_iff.mp found
      obtain ⟨d, member, word⟩ := only front ("repeat".toList ++ (between ++ "Infinity".toList)) rest
        (by rw [split, same]; simp) ⟨between, isColon, rfl⟩ free
      rw [ends d member] at word
      cases word

/-- A character that no name goes on with, and that stands in no repetition without end. -/
structure IsWall (c : Char) : Prop where
  free : goesOn c = false
  outside : ∀ {found}, IsEndless found → c ∉ found

theorem isWall_of_ne (free : goesOn c = false) (solid : isBlank c = false) (other : c ≠ ':') : IsWall c where
  free := free
  outside := by
    rintro found ⟨between, isColon, rfl⟩ member
    have word : isWord c = true := by
      rcases List.mem_append.mp member with among | among
      · exact (by decide : ∀ c ∈ "repeat".toList, isWord c = true) c among
      · rcases List.mem_append.mp among with among | among
        · rcases isColon_chars isColon c among with blank | same
          · rw [blank] at solid
            cases solid
          · exact absurd same other
        · exact (by decide : ∀ c ∈ "Infinity".toList, isWord c = true) c among
    rw [goesOn, word] at free
    cases free

theorem isWord_of_goesOn (free : goesOn c = false) : isWord c = false := by
  unfold goesOn at free
  exact (Bool.or_eq_false_iff.mp (Bool.or_eq_false_iff.mp free).1).1

/-- On both sides of such a character the text is looked at alone. -/
theorem silent_wall (isWall : IsWall c) {front back : List Char} :
    Silent repetition none (front ++ c :: back) ↔ Silent repetition none front ∧ Silent repetition none back := by
  simp only [silent_repetition_iff, Option.or_none]
  constructor
  · intro silent
    constructor
    · rintro before found after rfl isEndless free
      obtain ⟨d, member, word⟩ := silent before found (after ++ c :: back) (by simp) isEndless free
      cases after with
      | nil =>
        obtain rfl := Option.some.inj member
        rw [isWord_of_goesOn isWall.free] at word
        cases word
      | cons e after => exact ⟨d, member, word⟩
    · rintro before found after rfl isEndless free
      refine silent (front ++ c :: before) found after (by simp) isEndless fun d member => ?_
      rw [List.getLast?_append, List.getLast?_cons, Option.some_or] at member
      cases last : before.getLast? with
      | none =>
        rw [last] at member
        obtain rfl := Option.some.inj member
        exact isWall.free
      | some e =>
        rw [last] at member
        exact free d (last ▸ member)
  · rintro ⟨first, second⟩ before found after split isEndless free
    rcases List.append_eq_append_iff.mp split with ⟨more, rfl, right⟩ | ⟨more, rfl, right⟩
    · cases more with
      | nil =>
        obtain ⟨between, isColon, rfl⟩ := isEndless
        obtain rfl : c = 'r' := (List.cons.inj right).1
        exact absurd (List.mem_append_left _ List.mem_cons_self) (isWall.outside ⟨between, isColon, rfl⟩)
      | cons d more =>
        obtain ⟨rfl, rfl⟩ := List.cons.inj right
        refine second more found after rfl isEndless fun e member => ?_
        refine free e ?_
        rw [List.getLast?_append, List.getLast?_cons, Option.some_or, member]
        rfl
    · rcases List.append_eq_append_iff.mp right with ⟨beyond, rfl, rfl⟩ | ⟨beyond, rfl, same⟩
      · obtain ⟨d, member, word⟩ := first before found beyond rfl isEndless free
        refine ⟨d, ?_, word⟩
        rw [List.head?_append, member]
        rfl
      · cases beyond with
        | nil =>
          obtain ⟨d, member, word⟩ := first before more [] (by simp) (by simpa using isEndless) free
          cases member
        | cons d beyond =>
          obtain rfl : c = d := (List.cons.inj same).1
          exact absurd (List.mem_append_right _ List.mem_cons_self) (isWall.outside isEndless)

theorem silent_of_free {first : Option Char} (free : ∀ c ∈ first, goesOn c = false) :
    Silent repetition first text ↔ Silent repetition none text := by
  simp only [silent_repetition_iff, Option.or_none]
  refine forall_congr' fun front => forall_congr' fun found => forall_congr' fun back => forall_congr' fun _ => forall_congr' fun _ => ?_
  cases last : front.getLast? with
  | none => exact ⟨fun here _ => here free, fun here _ => here fun c member => by cases member⟩
  | some d => exact Iff.rfl

theorem goesOn_of_isBlank (blank : isBlank c = true) : goesOn c = false := by
  cases goes : goesOn c with
  | false => rfl
  | true =>
    simp only [goesOn, Bool.or_eq_true, beq_iff_eq] at goes
    rcases goes with (word | rfl) | rfl
    · rw [isBlank_of_isWord word] at blank
      cases blank
    · exact absurd blank (by decide)
    · exact absurd blank (by decide)

/-- Blanks before a text do not matter. -/
theorem silent_blanks {blanks : List Char} (all : ∀ c ∈ blanks, isBlank c = true) :
    Silent repetition none (blanks ++ text) ↔ Silent repetition none text := by
  induction blanks with
  | nil => exact Iff.rfl
  | cons c blanks ih =>
    have blank := all c List.mem_cons_self
    have none_ : repetition none (c :: (blanks ++ text)) = none := by
      cases found : repetition none (c :: (blanks ++ text)) with
      | none => rfl
      | some match_ =>
        obtain ⟨written, rest⟩ := match_
        obtain ⟨-, between, -, same, -⟩ := repetition_eq_some_iff.mp found
        obtain rfl : c = 'r' := (List.cons.inj same).1
        exact absurd blank (by decide)
    rw [List.cons_append, Text.silent_cons, silent_of_free fun d member => by
      obtain rfl := Option.some.inj member
      exact goesOn_of_isBlank blank]
    exact ⟨fun both => (ih fun d member => all d (List.mem_cons_of_mem c member)).mp both.2,
      fun silent => ⟨none_, (ih fun d member => all d (List.mem_cons_of_mem c member)).mpr silent⟩⟩

/-- Nor do blanks behind it. -/
theorem silent_append_blanks {blanks : List Char} (all : ∀ c ∈ blanks, isBlank c = true) :
    Silent repetition none (text ++ blanks) ↔ Silent repetition none text := by
  simp only [silent_repetition_iff, Option.or_none]
  constructor
  · rintro silent front found back rfl isEndless free
    obtain ⟨c, member, word⟩ := silent front found (back ++ blanks) (by simp) isEndless free
    cases back with
    | nil =>
      have blank := all c (List.mem_of_mem_head? member)
      rw [isBlank_of_isWord word] at blank
      cases blank
    | cons d back => exact ⟨c, member, word⟩
  · rintro silent front found back split isEndless free
    rw [← List.append_assoc] at split
    rcases List.append_eq_append_iff.mp split with ⟨more, same, rfl⟩ | ⟨more, rfl, rfl⟩
    · -- the last letter is no blank
      cases more.eq_nil_or_concat with
      | inl nothing =>
        subst nothing
        obtain ⟨c, member, word⟩ := silent front found [] (by simpa using same.symm) isEndless free
        cases member
      | inr last =>
        obtain ⟨less, c, rfl⟩ := last
        rw [List.concat_eq_append] at same all
        obtain ⟨between, isColon, rfl⟩ := isEndless
        have ended : (front ++ ("repeat".toList ++ (between ++ "Infinity".toList))).getLast? = some 'y' := by
          rw [List.getLast?_append, List.getLast?_append, List.getLast?_append]
          rfl
        rw [same, ← List.append_assoc, List.getLast?_concat] at ended
        obtain rfl := Option.some.inj ended
        exact absurd (all 'y' (by simp)) (by decide)
    · obtain ⟨c, member, word⟩ := silent front found more (by simp) isEndless free
      refine ⟨c, ?_, word⟩
      rw [List.head?_append, member]
      rfl

/-- Whether nothing is found is decided by looking. -/
theorem silent_of_anySuffix (nowhere : Text.anySuffix (fun before rest => (repetition before rest).isSome) none text = false) :
    Silent repetition none text := by
  rintro front c back rfl
  cases found : repetition (front.getLast?.or none) (c :: back) with
  | none => rfl
  | some match_ =>
    have somewhere : Text.anySuffix (fun before rest => (repetition before rest).isSome) none (front ++ c :: back) = true :=
      Text.anySuffix_append (congrArg Option.isSome found)
    rw [nowhere] at somewhere
    cases somewhere

open ReducedMotion (lineOf afterImports ensure ensureInComponent setupBlockOf stripped bodyOf)

/-- The declaration is no repetition without end, and ends with a sign behind which a text is looked at alone. -/
theorem exists_silent_lineOf (typescript : Bool) : ∃ line, (lineOf typescript).toList = line ++ [';'] ∧ Silent repetition none line :=
  ⟨(lineOf typescript).toList.dropLast, by cases typescript <;> decide +kernel,
    silent_of_anySuffix (by cases typescript <;> decide +kernel)⟩

/-- An import line ends with its quote or its semicolon, blanks behind it aside. -/
theorem exists_wall_of_spells {chars : List Char} {line : ImportLine} (spells : ImportLine.Spells chars line) :
    ∃ front wall blanks, chars = front ++ wall :: blanks ∧ IsWall wall ∧ ∀ c ∈ blanks, isBlank c = true := by
  obtain ⟨indent, head, quoted, -, rfl, -, -, -, ⟨opens, closes, -, signed, indented⟩, -⟩ := spells
  rename_i opening closing sign blanks
  have blank : ∀ c ∈ blanks, isBlank c = true := fun c member => ImportLine.isBlank_of_isIndent (indented c member)
  rcases signed with rfl | rfl
  · refine ⟨indent ++ ("import".toList ++ (head ++ opening :: line.source.toList)), closing, blanks, by simp, ?_, blank⟩
    simp only [ImportLine.isQuote, Bool.or_eq_true, beq_iff_eq] at closes
    rcases closes with rfl | rfl <;> exact isWall_of_ne (by decide) (by decide) (by decide)
  · exact ⟨indent ++ ("import".toList ++ (head ++ opening :: (line.source.toList ++ [closing]))), ';', blanks, by simp,
      isWall_of_ne (by decide) (by decide) (by decide), blank⟩

theorem silent_afterImports (silent : Silent repetition none text) (typescript : Bool) :
    Silent repetition none (afterImports text (lineOf typescript).toList) := by
  obtain ⟨line, same, quiet⟩ := exists_silent_lineOf typescript
  have semicolon : IsWall ';' := isWall_of_ne (by decide) (by decide) (by decide)
  rw [same]
  unfold afterImports
  cases lines : (ImportLine.readAll text).getLast? with
  | some last =>
    obtain ⟨stretches, rfl, read⟩ := Stretch.exists_areRead true text
    have member := List.mem_of_getLast? lines
    rw [Stretch.readAll_whole read] at member
    obtain ⟨before, chars, found, after, rfl, rfl⟩ := (Stretch.mem_placed_iff 0).mp member
    obtain ⟨front, wall, blanks, rfl, isWall, blank⟩ := exists_wall_of_spells read.of_append.1
    have whole : Stretch.whole (before ++ .statement (front ++ wall :: blanks) found :: after) =
        (Stretch.whole before ++ (front ++ wall :: blanks)) ++ Stretch.whole after := by simp
    dsimp only
    rw [whole, Nat.zero_add, ← List.length_append, List.take_left, List.drop_left]
    have parts (behind : List Char) : Stretch.whole before ++ (front ++ wall :: blanks) ++ behind =
        (Stretch.whole before ++ front) ++ wall :: (blanks ++ behind) := by simp
    rw [whole, parts, silent_wall isWall, silent_blanks blank] at silent
    have written : Stretch.whole before ++ (front ++ wall :: blanks) ++ '\n' :: '\n' :: (line ++ [';']) ++ Stretch.whole after =
        (Stretch.whole before ++ front) ++ wall :: ((blanks ++ ['\n', '\n']) ++ (line ++ ';' :: Stretch.whole after)) := by simp
    have blank' : ∀ c ∈ blanks ++ ['\n', '\n'], isBlank c = true :=
      List.forall_mem_append.mpr ⟨blank, by decide⟩
    rw [written, silent_wall isWall, silent_blanks blank', silent_wall semicolon]
    exact ⟨silent.1, quiet, silent.2⟩
  | none =>
    have lead : ∀ c ∈ text.takeWhile (· == '\n'), isBlank c = true := fun c member => by
      obtain rfl : c = '\n' := by simpa using Text.all_takeWhile (· == '\n') text c member
      decide
    have split : text.takeWhile (· == '\n') ++ text.drop (text.takeWhile (· == '\n')).length = text :=
      Text.takeWhile_append_drop (· == '\n') text
    have till : text.take (text.takeWhile (· == '\n')).length = text.takeWhile (· == '\n') :=
      (List.prefix_iff_eq_take.mp (List.takeWhile_prefix _)).symm
    dsimp only
    rw [till]
    rw [← split, silent_blanks lead] at silent
    have written (behind : List Char) : text.takeWhile (· == '\n') ++ (line ++ [';']) ++ '\n' :: '\n' :: behind =
        text.takeWhile (· == '\n') ++ (line ++ ';' :: (['\n', '\n'] ++ behind)) := by simp
    have breaks : ∀ c ∈ ['\n', '\n'], isBlank c = true := by decide
    rw [written, silent_blanks lead, silent_wall semicolon, silent_blanks breaks]
    exact ⟨quiet, silent⟩

theorem silent_stripped (silent : Silent repetition none text) : Silent repetition none (stripped text) := by
  obtain ⟨above, below, same, breaks⟩ := ReducedMotion.exists_stripped text
  have blank {c : Char} (member : c ∈ above ++ below) : isBlank c = true := by
    rw [breaks c member]
    decide
  rw [same, silent_blanks fun c member => blank (List.mem_append_left _ member),
    silent_append_blanks fun c member => blank (List.mem_append_right _ member)] at silent
  exact silent

/-- The content of a block and its end are looked at alone. -/
theorem silent_bodyOf {left : List Char} (split : rest = bodyOf rest ++ left) (front : List Char) :
    Silent repetition none (front ++ left) ↔ Silent repetition none front ∧ Silent repetition none left := by
  have bracket : IsWall '<' := isWall_of_ne (by decide) (by decide) (by decide)
  obtain rfl | ⟨after, rfl⟩ : left = [] ∨ ∃ after, left = '<' :: after := by
    unfold bodyOf at split
    cases cut : Text.cut? ReducedMotion.closing rest with
    | none =>
      rw [cut] at split
      exact .inl (List.append_right_eq_self.mp split.symm)
    | some parts =>
      obtain ⟨body, after⟩ := parts
      rw [cut] at split
      have whole := Text.eq_append_of_cut? cut
      rw [whole] at split
      exact .inr ⟨_, (List.append_cancel_left split).symm⟩
  · rw [List.append_nil]
    exact ⟨fun silent => ⟨silent, Text.silent_nil none⟩, And.left⟩
  · have alone : Silent repetition none ([] ++ '<' :: after) ↔ Silent repetition none [] ∧ Silent repetition none after :=
      silent_wall bracket
    rw [silent_wall bracket]
    exact and_congr_right fun _ => (alone.trans ⟨And.right, fun silent => ⟨Text.silent_nil none, silent⟩⟩).symm

theorem silent_ensureInComponent {code : List Char} (silent : Silent repetition none code) (typescript : Bool) :
    Silent repetition none (ensureInComponent code typescript) := by
  cases found : ReducedMotion.setupBlock? code with
  | none =>
    have bracket : IsWall '<' := isWall_of_ne (by decide) (by decide) (by decide)
    obtain ⟨tail, same, quiet⟩ : ∃ tail, setupBlockOf typescript = '<' :: tail ∧ Silent repetition none tail :=
      ⟨(setupBlockOf typescript).tail, by cases typescript <;> decide +kernel,
        silent_of_anySuffix (by cases typescript <;> decide +kernel)⟩
    obtain ⟨breaks, split, all⟩ := Text.exists_dropTrailing code
    have blank : ∀ c ∈ breaks, isBlank c = true := fun c member => by rw [all c member]; decide
    have break_ : ∀ c ∈ ['\n'], isBlank c = true := by decide
    have breaks_ : ∀ c ∈ ['\n', '\n'], isBlank c = true := by decide
    rw [split, silent_append_blanks blank] at silent
    rw [ReducedMotion.ensureInComponent_of_none found, same, List.cons_append, silent_wall bracket, silent_append_blanks breaks_,
      silent_append_blanks break_]
    exact ⟨silent, quiet⟩
  | some parts =>
    obtain ⟨before, rest⟩ := parts
    obtain ⟨front, tag, rfl, rfl, isFirst⟩ := ReducedMotion.exists_of_setupBlock? found
    obtain ⟨left, split⟩ := ReducedMotion.exists_bodyOf rest
    obtain ⟨body, rfl, -⟩ := isFirst.isTag.ends
    have bracket : IsWall '>' := isWall_of_ne (by decide) (by decide) (by decide)
    have tagged (behind : List Char) : front ++ (body ++ ['>'] ++ behind) = (front ++ body) ++ '>' :: behind := by simp
    have dropped : rest.drop (bodyOf rest).length = left := (congrArg (List.drop (bodyOf rest).length) split).trans List.drop_left
    rw [tagged, silent_wall bracket] at silent
    obtain ⟨first, second⟩ := silent
    have parts : Silent repetition none (bodyOf rest) ∧ Silent repetition none left :=
      (silent_bodyOf split (bodyOf rest)).mp (split ▸ second)
    have written : front ++ (body ++ ['>']) ++ '\n' :: afterImports (stripped (bodyOf rest)) (lineOf typescript).toList ++ '\n' :: left =
        (front ++ body) ++ '>' :: (['\n'] ++ (afterImports (stripped (bodyOf rest)) (lineOf typescript).toList ++ ['\n'] ++ left)) := by
      simp
    have break_ : ∀ c ∈ ['\n'], isBlank c = true := by decide
    rw [ReducedMotion.ensureInComponent_of_first isFirst, dropped, written, silent_wall bracket, silent_blanks break_,
      silent_bodyOf split, silent_append_blanks break_]
    exact ⟨first, silent_afterImports (silent_stripped parts.1) typescript, parts.2⟩

/-- **The declaration makes no repetition without end.** -/
theorem silent_ensure {code : List Char} (silent : Silent repetition none code) (framework : Framework) (typescript : Bool) :
    Silent repetition none (ensure code framework typescript) := by
  unfold ensure
  split
  · exact silent
  · split
    · exact silent_ensureInComponent silent typescript
    · exact silent_afterImports silent false

/-- **Repetitions are stopped once**, and the wish is declared once. -/
theorem accessibility_accessibility (code : List Char) (framework : Framework) (typescript : Bool) :
    accessibility (accessibility code framework typescript).1 framework typescript =
      ((accessibility code framework typescript).1, []) := by
  have stopped : Silent repetition none (Text.replaceEach repetition code).1 :=
    settles_repetition.silent_replaceFrom code.length (Nat.le_refl _) rfl
  have silent : Silent repetition none (accessibility code framework typescript).1 := by
    unfold accessibility
    dsimp only
    split
    · exact stopped
    · exact silent_ensure stopped framework typescript
  generalize (accessibility code framework typescript).1 = result at silent
  unfold accessibility
  rw [Text.replaceEach_of_silent silent]
  rfl

end TextPass

namespace Focus

/-- One aim. -/
inductive IsSingle : Focus → Prop
  | performance : IsSingle ⟨true, false, false⟩
  | accessibility : IsSingle ⟨false, true, false⟩
  | bundleSize : IsSingle ⟨false, false, true⟩

/-- An area names one aim, or none. -/
theorem ofAreas_singleton (area : String) : ofAreas [area] = none ∨ IsSingle (ofAreas [area]) := by
  unfold ofAreas none
  rw [List.map_singleton]
  by_cases performance : areaName area = "performance"
  · rw [performance]
    exact .inr .performance
  · by_cases accessibility : areaName area = "accessibility"
    · rw [accessibility]
      exact .inr .accessibility
    · have others : [areaName area].contains "performance" = false ∧ [areaName area].contains "accessibility" = false := by
        simp [Ne.symm performance, Ne.symm accessibility]
      dsimp only
      rw [others.1, others.2]
      cases ["bundle-size", "bundle", "bundlesize"].any [areaName area].contains with
      | false => exact .inl rfl
      | true => exact .inr .bundleSize

end Focus

open ImportLine (readAll LeavesOpen)

/-- **The passes for one area leave their own text as it is.** For the imports, if the defaults of the lines are sound and no text
before a line leaves a quote open. -/
theorem optimizeText_optimizeText {code : List Char} {framework : Framework} {typescript : Bool} {area : String}
    (orderly : (Focus.ofAreas [area]).bundleSize = true → (∀ line ∈ readAll code, line.IsSound) ∧
      ∀ line ∈ readAll code, ¬ LeavesOpen true (code.take line.start)) :
    (optimizeText (optimizeText code framework typescript (Focus.ofAreas [area])).1 framework typescript (Focus.ofAreas [area])).1 =
      (optimizeText code framework typescript (Focus.ofAreas [area])).1 := by
  rcases Focus.ofAreas_singleton area with none_ | single
  · rw [none_]
    rfl
  · generalize Focus.ofAreas [area] = focus at orderly single ⊢
    cases single with
    | performance => exact TextPass.performance_performance code
    | accessibility =>
      have same := congrArg Prod.fst (TextPass.accessibility_accessibility code framework typescript)
      exact same
    | bundleSize =>
      obtain ⟨sound, closed⟩ := orderly rfl
      have same := congrArg Prod.fst (TextPass.bundleSize_bundleSize sound closed)
      exact same

/-- An unused name is removed, and then there is none. -/
theorem optimizeText_optimizeText_box :
    (optimizeText (optimizeText "import \x7b motion, animate \x7d from 'motion';\n\nanimate(box);\n".toList .js false
      (Focus.ofAreas ["bundle-size"])).1 .js false (Focus.ofAreas ["bundle-size"])).1 =
        "import \x7b animate \x7d from 'motion';\n\nanimate(box);\n".toList := by
  have lines : readAll "import \x7b motion, animate \x7d from 'motion';\n\nanimate(box);\n".toList =
      [⟨0, 41, "motion", none, ["motion", "animate"], false⟩] := by decide +kernel
  refine (optimizeText_optimizeText fun _ => ?_).trans (by decide +kernel)
  rw [lines]
  refine ⟨List.forall_mem_singleton.mpr fun name known => ?_,
    List.forall_mem_singleton.mpr (ImportLine.not_leavesOpen (List.forall_mem_nil _) true)⟩
  cases known

end AnimationCode
