/-
**What the text passes may touch.**

The passes over the text of generated code look for spots of a fixed form. Everything outside these spots stays as it is,
in its order.

* `TextPass.IsShifted`: a position in pixels, and the shift that it becomes;
* `TextPass.position_eq_some_iff`, `TextPass.repetition_eq_some_iff`: where a spot is found;
* `TextPass.rewrites_performance`: nothing but positions in pixels is written anew;
* `TextPass.takes_repetition`: nothing but repetitions without end is written anew.
-/

import AnimationCode.Optimize.Text
import AnimationCode.Proofs.Script.Lexeme
import AnimationCode.Proofs.Text.Replace
import AnimationCode.Proofs.Text.Split

namespace AnimationCode

namespace TextPass

open Text (isBlank isWord isDecimalDigit stripStart? Rewrites stripStart?_append eq_append_of_stripStart? takeWhile_append_drop
  all_takeWhile EndsRun takeWhile_run)

variable {before : Option Char} {cs rest between number written : List Char} {c : Char}

/-! ### The parts of a position -/

/-- A colon with blanks around it. -/
def IsColon (between : List Char) : Prop :=
  ∃ before after, (∀ c ∈ before, isBlank c = true) ∧ (∀ c ∈ after, isBlank c = true) ∧ between = before ++ ':' :: after

/-- Decimal digits, with a sign before them and a fraction after them, or without. -/
def IsNumber (number : List Char) : Prop :=
  ∃ sign whole fraction, (sign = [] ∨ sign = ['-']) ∧ whole ≠ [] ∧ (∀ c ∈ whole, isDecimalDigit c = true) ∧
    (∀ c ∈ fraction, isDecimalDigit c = true) ∧
    (number = sign ++ whole ∨ fraction ≠ [] ∧ number = sign ++ whole ++ '.' :: fraction)

/-- A number of pixels, bare or quoted with its unit. -/
def IsPixels (value number : List Char) : Prop :=
  IsNumber number ∧ (value = number ∨ ∃ quote, (quote = '\'' ∨ quote = '"') ∧ value = quote :: number ++ ['p', 'x', quote])

/-- A position in pixels, and the shift that it becomes: another property with the same number. -/
def IsShifted (found written : List Char) : Prop :=
  ∃ property shift between value number, (property, shift) ∈ shifts ∧ IsColon between ∧ IsPixels value number ∧
    found = property.toList ++ between ++ value ∧ written = shift.toList ++ between ++ number

theorem of_colon? {text between rest : List Char} (read : colon? text = some (between, rest)) :
    IsColon between ∧ text = between ++ rest := by
  unfold colon? at read
  dsimp only at read
  split at read
  · rename_i after opens
    cases read
    refine ⟨⟨_, _, all_takeWhile isBlank _, all_takeWhile isBlank _, rfl⟩, ?_⟩
    rw [List.append_assoc, List.cons_append, takeWhile_append_drop, ← opens, takeWhile_append_drop]
  · cases read

theorem colon?_append (isColon : IsColon between) (ends : EndsRun isBlank rest) : colon? (between ++ rest) = some (between, rest) := by
  obtain ⟨front, back, blank, blank', rfl⟩ := isColon
  have first : (front ++ ':' :: back ++ rest).takeWhile isBlank = front := by
    rw [List.append_assoc]
    exact takeWhile_run blank fun c member => by obtain rfl := Option.some.inj member; decide
  have second : (back ++ rest).takeWhile isBlank = back := takeWhile_run blank' ends
  unfold colon?
  dsimp only
  rw [first, List.append_assoc, List.drop_left]
  change some (front ++ ':' :: (back ++ rest).takeWhile isBlank, (back ++ rest).drop ((back ++ rest).takeWhile isBlank).length) = _
  rw [second, List.drop_left]

theorem isColon_chars (isColon : IsColon between) : ∀ c ∈ between, isBlank c = true ∨ c = ':' := by
  obtain ⟨front, back, blank, blank', rfl⟩ := isColon
  intro c member
  rcases List.mem_append.mp member with among | among
  · exact .inl (blank c among)
  · rcases List.mem_cons.mp among with rfl | among
    · exact .inr rfl
    · exact .inl (blank' c among)

/-- The digits of a number after its sign, and the text after them. -/
def digits? (sign body : List Char) : Option (List Char × List Char) :=
  let whole := body.takeWhile isDecimalDigit
  let rest := body.drop whole.length
  if whole = [] then none
  else match rest with
    | '.' :: more =>
      let fraction := more.takeWhile isDecimalDigit
      if fraction = [] then some (sign ++ whole, rest)
      else some (sign ++ whole ++ '.' :: fraction, more.drop fraction.length)
    | _ => some (sign ++ whole, rest)

theorem of_digits? {sign body number rest : List Char} (signed : sign = [] ∨ sign = ['-'])
    (read : digits? sign body = some (number, rest)) : IsNumber number ∧ sign ++ body = number ++ rest := by
  unfold digits? at read
  dsimp only at read
  split at read
  · cases read
  · rename_i whole
    have bare : IsNumber (sign ++ body.takeWhile isDecimalDigit) :=
      ⟨sign, _, [], signed, whole, all_takeWhile _ _, List.forall_mem_nil _, .inl rfl⟩
    have split_ : sign ++ body = sign ++ body.takeWhile isDecimalDigit ++ body.drop (body.takeWhile isDecimalDigit).length := by
      rw [List.append_assoc, takeWhile_append_drop]
    split at read
    · rename_i more opens
      split at read
      · cases read
        exact ⟨bare, split_⟩
      · rename_i fraction
        cases read
        refine ⟨⟨sign, _, _, signed, whole, all_takeWhile _ _, all_takeWhile _ _, .inr ⟨fraction, rfl⟩⟩, ?_⟩
        rw [split_, opens, List.append_assoc, List.append_assoc, List.cons_append, takeWhile_append_drop, List.append_assoc]
    · cases read
      exact ⟨bare, split_⟩

theorem of_number? {text number rest : List Char} (read : number? text = some (number, rest)) :
    IsNumber number ∧ text = number ++ rest := by
  by_cases signed : ∃ body, text = '-' :: body
  · obtain ⟨body, rfl⟩ := signed
    exact of_digits? (.inr rfl) read
  · have bare : number? text = digits? [] text := by
      unfold number?
      split
      rename_i opened
      split at opened
      · exact absurd ⟨_, rfl⟩ signed
      · cases opened
        rfl
    exact of_digits? (.inl rfl) (bare ▸ read)

/-! ### Characters of numbers -/

/-- Every set of digits lies in an interval of words. -/
theorem exists_wordIntervals : ∀ digits ∈ Text.digitIntervals, 128 ≤ digits.1 ∧
    ∃ words ∈ Text.wordIntervals, words.1 ≤ digits.1 ∧ digits.2 ≤ words.2 := by
  decide +kernel

theorem isWord_of_isDecimalDigit (digit : isDecimalDigit c = true) : isWord c = true := by
  unfold isDecimalDigit Text.digitValue? at digit
  split at digit
  · rename_i plain
    have letter : c.isAlphanum = true := by rw [Char.isAlphanum, plain, Bool.or_true]
    rw [isWord, letter]
    rfl
  · split at digit
    · cases digit
    · rename_i wide
      rw [Option.isSome_map] at digit
      obtain ⟨⟨low, high⟩, found⟩ := Option.isSome_iff_exists.mp digit
      obtain ⟨-, words, member, below, above⟩ := exists_wordIntervals _ (List.mem_of_find?_eq_some found)
      have within := List.find?_some found
      simp only [Bool.and_eq_true, decide_eq_true_eq] at within below above
      have listed : Text.inIntervals Text.wordIntervals c.toNat = true :=
        List.any_eq_true.mpr ⟨words, member, by simp only [Bool.and_eq_true, decide_eq_true_eq]; omega⟩
      rw [isWord, listed, Bool.and_true, Bool.or_eq_true]
      exact .inr (by simpa using Nat.le_of_not_lt wide)

/-- The blanks that are no ASCII characters. -/
def wideBlanks : List Nat :=
  [0x85, 0xa0, 0x1680, 0x2000, 0x2001, 0x2002, 0x2003, 0x2004, 0x2005, 0x2006, 0x2007, 0x2008, 0x2009, 0x200a, 0x2028, 0x2029, 0x202f,
    0x205f, 0x3000]

theorem inIntervals_wideBlanks : ∀ n ∈ wideBlanks, Text.inIntervals Text.wordIntervals n = false := by
  decide +kernel

/-- No character of a word is a blank. -/
theorem isBlank_of_isWord (word : isWord c = true) : isBlank c = false := by
  rw [Bool.eq_false_iff]
  intro blank
  simp only [isBlank, Bool.or_eq_true, Bool.and_eq_true, decide_eq_true_eq, beq_iff_eq] at blank
  simp only [isWord, Bool.or_eq_true, Bool.and_eq_true, decide_eq_true_eq, beq_iff_eq] at word
  rcases word with (letter | rfl) | ⟨wide, listed⟩
  · have range := Script.toNat_of_isAlphanum letter
    omega
  · revert blank
    decide
  · have among : c.toNat ∈ wideBlanks := by
      simp only [wideBlanks, List.mem_cons, List.not_mem_nil, or_false]
      omega
    rw [inIntervals_wideBlanks _ among] at listed
    cases listed

/-! ### A number before a text that goes on -/

/-- A text that a number does not go on with. -/
def EndsNumber (rest : List Char) : Prop := ∀ c ∈ rest.head?, isDecimalDigit c = false ∧ c ≠ '.'

theorem EndsNumber.endsRun (ends : EndsNumber rest) : EndsRun isDecimalDigit rest := fun c member => (ends c member).1

theorem digits?_append {sign whole fraction : List Char} (some_ : whole ≠ []) (digits : ∀ c ∈ whole, isDecimalDigit c = true)
    (digits' : ∀ c ∈ fraction, isDecimalDigit c = true) (ends : EndsNumber rest) {tail : List Char}
    (form : tail = [] ∨ fraction ≠ [] ∧ tail = '.' :: fraction) :
    digits? sign (whole ++ (tail ++ rest)) = some (sign ++ whole ++ tail, rest) := by
  have point : isDecimalDigit '.' = false := by decide
  rcases form with rfl | ⟨filled, rfl⟩
  · have first : (whole ++ ([] ++ rest)).takeWhile isDecimalDigit = whole := takeWhile_run digits ends.endsRun
    unfold digits?
    dsimp only
    rw [first, if_neg some_, List.drop_left, List.nil_append, List.append_nil]
    split
    · exact absurd rfl (ends '.' rfl).2
    · rfl
  · have first : (whole ++ ('.' :: fraction ++ rest)).takeWhile isDecimalDigit = whole :=
      takeWhile_run digits fun c member => by obtain rfl := Option.some.inj member; exact point
    have second : (fraction ++ rest).takeWhile isDecimalDigit = fraction := takeWhile_run digits' ends.endsRun
    unfold digits?
    dsimp only
    rw [first, if_neg some_, List.drop_left]
    change (if (fraction ++ rest).takeWhile isDecimalDigit = [] then _ else some (sign ++ whole ++ '.' ::
      (fraction ++ rest).takeWhile isDecimalDigit, (fraction ++ rest).drop ((fraction ++ rest).takeWhile isDecimalDigit).length)) = _
    rw [second, if_neg filled, List.drop_left]

theorem number?_append (isNumber : IsNumber number) (ends : EndsNumber rest) : number? (number ++ rest) = some (number, rest) := by
  obtain ⟨sign, whole, fraction, signed, some_, digits, digits', form⟩ := isNumber
  obtain ⟨tail, rfl, tailed⟩ : ∃ tail, number = sign ++ whole ++ tail ∧ (tail = [] ∨ fraction ≠ [] ∧ tail = '.' :: fraction) := by
    rcases form with rfl | ⟨filled, rfl⟩
    · exact ⟨[], by simp, .inl rfl⟩
    · exact ⟨'.' :: fraction, rfl, .inr ⟨filled, rfl⟩⟩
  have read : digits? sign (whole ++ (tail ++ rest)) = some (sign ++ whole ++ tail, rest) :=
    digits?_append some_ digits digits' ends tailed
  rw [List.append_assoc, List.append_assoc]
  rcases signed with rfl | rfl
  · obtain ⟨c, whole, rfl⟩ := List.exists_cons_of_ne_nil some_
    have unsigned : c ≠ '-' := fun same => absurd (digits c List.mem_cons_self) (same ▸ by decide)
    refine Eq.trans ?_ read
    unfold number?
    split
    rename_i opened
    split at opened
    · exact absurd (List.cons.inj ‹_›).1 unsigned
    · cases opened
      rfl
  · exact read

theorem isNumber_chars (isNumber : IsNumber number) : ∀ c ∈ number, isDecimalDigit c = true ∨ c = '-' ∨ c = '.' := by
  obtain ⟨sign, whole, fraction, signed, -, digits, digits', form⟩ := isNumber
  intro c member
  have parts : c ∈ sign ∨ c ∈ whole ∨ c = '.' ∨ c ∈ fraction := by
    rcases form with rfl | ⟨-, rfl⟩
    · rcases List.mem_append.mp member with member | member
      · exact .inl member
      · exact .inr (.inl member)
    · simpa [or_assoc] using member
  rcases parts with among | among | rfl | among
  · rcases signed with rfl | rfl
    · cases among
    · exact .inr (.inl (List.mem_singleton.mp among))
  · exact .inl (digits c among)
  · exact .inr (.inr rfl)
  · exact .inl (digits' c among)

/-- A number ends with a digit. -/
theorem isNumber_last (isNumber : IsNumber number) : ∃ c, number.getLast? = some c ∧ isDecimalDigit c = true := by
  obtain ⟨sign, whole, fraction, -, some_, digits, digits', form⟩ := isNumber
  have last {run : List Char} (filled : run ≠ []) (front : List Char) : (front ++ run).getLast? = some (run.getLast filled) := by
    rw [List.getLast?_append, List.getLast?_eq_some_getLast filled, Option.some_or]
  rcases form with rfl | ⟨filled, rfl⟩
  · exact ⟨_, last some_ sign, digits _ (List.getLast_mem some_)⟩
  · refine ⟨_, ?_, digits' _ (List.getLast_mem filled)⟩
    rw [show sign ++ whole ++ '.' :: fraction = (sign ++ whole ++ ['.']) ++ fraction by simp]
    exact last filled _

/-! ### Positions in pixels -/

/-- What stands for a number of pixels before a text that goes on. -/
def IsPixelsBefore (value number rest : List Char) : Prop :=
  IsNumber number ∧ (value = number ∧ (∀ c ∈ rest.head?, (isWord c || c == '.' || c == '%') = false) ∨
    ∃ quote, (quote = '\'' ∨ quote = '"') ∧ value = quote :: number ++ ['p', 'x', quote])

theorem pixels?_eq_some_iff : pixels? cs = some (number, rest) ↔ ∃ value, IsPixelsBefore value number rest ∧ cs = value ++ rest := by
  constructor
  · intro read
    unfold pixels? at read
    split at read
    · cases read
    · rename_i c body
      split at read
      · rename_i quoted
        split at read
        · rename_i digits after numbered
          obtain ⟨unit, stripped, same⟩ := Option.map_eq_some_iff.mp read
          cases same
          obtain ⟨isNumber, rfl⟩ := of_number? numbered
          refine ⟨c :: number ++ ['p', 'x', c], ⟨isNumber, .inr ⟨c, quoted, rfl⟩⟩, ?_⟩
          rw [eq_append_of_stripStart? stripped]
          simp
        · cases read
      · split at read
        · rename_i digits after numbered
          split at read
          · cases read
          · rename_i ends
            cases read
            obtain ⟨isNumber, same⟩ := of_number? numbered
            refine ⟨number, ⟨isNumber, .inl ⟨rfl, fun d member => ?_⟩⟩, same⟩
            rw [member] at ends
            simpa using ends
        · cases read
  · rintro ⟨value, ⟨isNumber, bare | ⟨quote, quoted, rfl⟩⟩, rfl⟩
    · obtain ⟨rfl, ends⟩ := bare
      have endsNumber : EndsNumber rest := fun c member => by
        have other := ends c member
        simp only [Bool.or_eq_false_iff, beq_eq_false_iff_ne] at other
        refine ⟨?_, other.1.2⟩
        rw [Bool.eq_false_iff]
        intro digit
        rw [isWord_of_isDecimalDigit digit] at other
        cases other.1.1
      have read := number?_append isNumber endsNumber
      obtain ⟨c, more, rfl⟩ : ∃ c more, value = c :: more := by
        obtain ⟨c, last, -⟩ := isNumber_last isNumber
        cases value with
        | nil => cases last
        | cons c more => exact ⟨c, more, rfl⟩
      have unquoted : ¬ (c = '\'' ∨ c = '"') := by
        rintro (rfl | rfl) <;>
        · rcases isNumber_chars isNumber _ List.mem_cons_self with digit | same | same
          · exact absurd digit (by decide)
          · exact absurd same (by decide)
          · exact absurd same (by decide)
      rw [List.cons_append] at read ⊢
      unfold pixels?
      dsimp only
      rw [if_neg unquoted, read]
      dsimp only
      rw [if_neg]
      cases first : rest.head? with
      | none => exact Bool.false_ne_true
      | some d =>
        rw [Option.any_some, ends d first]
        exact Bool.false_ne_true
    · have read : number? (number ++ ('p' :: 'x' :: quote :: rest)) = some (number, 'p' :: 'x' :: quote :: rest) :=
        number?_append isNumber fun c member => by obtain rfl := Option.some.inj member; decide
      have whole : quote :: number ++ ['p', 'x', quote] ++ rest = quote :: (number ++ ('p' :: 'x' :: quote :: rest)) := by simp
      rw [whole]
      unfold pixels?
      dsimp only
      rw [if_pos quoted, read]
      dsimp only
      rw [show 'p' :: 'x' :: quote :: rest = ['p', 'x', quote] ++ rest from rfl, stripStart?_append]
      rfl

theorem endsRun_value {value : List Char} (isPixels : IsPixelsBefore value number rest) (more : List Char) :
    EndsRun isBlank (value ++ more) := by
  obtain ⟨isNumber, form⟩ := isPixels
  have digits {d : Char} (among : d ∈ number) : isBlank d = false := by
    rcases isNumber_chars isNumber d among with digit | rfl | rfl
    · exact isBlank_of_isWord (isWord_of_isDecimalDigit digit)
    · decide
    · decide
  obtain ⟨d, last, -⟩ := isNumber_last isNumber
  obtain ⟨e, tail, rfl⟩ : ∃ e tail, number = e :: tail := by
    cases number with
    | nil => cases last
    | cons e tail => exact ⟨e, tail, rfl⟩
  rcases form with ⟨rfl, -⟩ | ⟨quote, quoted, rfl⟩
  · intro c member
    obtain rfl := Option.some.inj member
    exact digits List.mem_cons_self
  · intro c member
    obtain rfl := Option.some.inj member
    rcases quoted with rfl | rfl <;> decide

/-- **A position in pixels is found** where no name goes on, before what its number does not go on with. -/
theorem position_eq_some_iff : position before cs = some (written, rest) ↔ propertyStart before = true ∧
    ∃ property shift between value number, (property, shift) ∈ shifts ∧ IsColon between ∧ IsPixelsBefore value number rest ∧
      cs = property.toList ++ (between ++ (value ++ rest)) ∧ written = shift.toList ++ between ++ number := by
  unfold position
  constructor
  · intro found
    split at found
    · cases found
    · rename_i starts
      obtain ⟨⟨property, shift⟩, member, here⟩ := List.exists_of_findSome?_eq_some found
      obtain ⟨afterName, stripped, here⟩ := Option.bind_eq_some_iff.mp here
      obtain ⟨⟨between, afterColon⟩, colon, here⟩ := Option.bind_eq_some_iff.mp here
      obtain ⟨⟨number, last⟩, pixels, same⟩ := Option.map_eq_some_iff.mp here
      cases same
      obtain ⟨isColon, rfl⟩ := of_colon? colon
      obtain ⟨value, isPixels, rfl⟩ := pixels?_eq_some_iff.mp pixels
      exact ⟨by simpa using starts, property, shift, between, value, number, member, isColon, isPixels,
        eq_append_of_stripStart? stripped, rfl⟩
  · rintro ⟨starts, property, shift, between, value, number, member, isColon, isPixels, rfl, rfl⟩
    have colon : colon? (between ++ (value ++ rest)) = some (between, value ++ rest) := colon?_append isColon (endsRun_value isPixels rest)
    have pixels : pixels? (value ++ rest) = some (number, rest) := pixels?_eq_some_iff.mpr ⟨value, isPixels, rfl⟩
    rw [starts, if_neg (by decide)]
    simp only [shifts, List.mem_cons, Prod.mk.injEq, List.not_mem_nil, or_false] at member
    rcases member with ⟨rfl, rfl⟩ | ⟨rfl, rfl⟩
    · rw [shifts, List.findSome?_cons]
      dsimp only
      rw [stripStart?_append, Option.bind_some, colon, Option.bind_some]
      dsimp only
      rw [pixels]
      rfl
    · have other : stripStart? "top".toList ("left".toList ++ (between ++ (value ++ rest))) = none := rfl
      rw [shifts, List.findSome?_cons, List.findSome?_cons]
      dsimp only
      rw [other, Option.bind_none]
      dsimp only
      rw [stripStart?_append, Option.bind_some, colon, Option.bind_some]
      dsimp only
      rw [pixels]
      rfl

/-- Nothing but a position in pixels is taken. -/
theorem takes_position : Text.Takes position IsShifted := by
  intro before cs written rest found
  obtain ⟨-, property, shift, between, value, number, known, isColon, ⟨isNumber, form⟩, rfl, rfl⟩ := position_eq_some_iff.mp found
  exact ⟨property.toList ++ between ++ value, by simp, property, shift, between, value, number, known, isColon,
    ⟨isNumber, form.imp_left And.left⟩, rfl, rfl⟩

/-- Nothing but positions in pixels is written anew. -/
theorem rewrites_performance (code : List Char) : Rewrites IsShifted code (performance code).1 :=
  Text.rewrites_replaceEach takes_position code

/-! ### Repetitions without end -/

/-- A repetition without end, and what stops it for reduced motion. -/
def IsStopped (found written : List Char) : Prop :=
  ∃ between, IsColon between ∧ found = "repeat".toList ++ between ++ "Infinity".toList ∧
    written = "repeat".toList ++ between ++ "prefersReducedMotion ? 0 : Infinity".toList

/-- Whether a name or a property would go on behind a character. -/
def goesOn (c : Char) : Bool := isWord c || c == '$' || c == '.'

/-- A repetition without end, as it stands in a text. -/
def IsEndless (found : List Char) : Prop := ∃ between, IsColon between ∧ found = "repeat".toList ++ (between ++ "Infinity".toList)

/-- **A repetition without end is found** where no name goes on, and before none that does. -/
theorem repetition_eq_some_iff : repetition before cs = some (written, rest) ↔ (∀ c ∈ before, goesOn c = false) ∧
    ∃ between, IsColon between ∧ cs = "repeat".toList ++ (between ++ ("Infinity".toList ++ rest)) ∧ (∀ c ∈ rest.head?, isWord c = false) ∧
      written = "repeat".toList ++ between ++ "prefersReducedMotion ? 0 : Infinity".toList := by
  unfold repetition
  constructor
  · intro found
    split at found
    · cases found
    · rename_i free
      obtain ⟨afterName, stripped, here⟩ := Option.bind_eq_some_iff.mp found
      obtain ⟨⟨between, afterColon⟩, colon, here⟩ := Option.bind_eq_some_iff.mp here
      obtain ⟨last, endless, here⟩ := Option.bind_eq_some_iff.mp here
      split at here
      · cases here
      · rename_i ends
        cases here
        obtain ⟨isColon, rfl⟩ := of_colon? colon
        obtain rfl := eq_append_of_stripStart? endless
        refine ⟨fun c member => ?_, between, isColon, eq_append_of_stripStart? stripped, fun c member => ?_, rfl⟩
        · rw [member] at free
          simpa [goesOn] using free
        · rw [member] at ends
          simpa using ends
  · rintro ⟨free, between, isColon, rfl, ends, rfl⟩
    have colon : colon? (between ++ ("Infinity".toList ++ rest)) = some (between, "Infinity".toList ++ rest) :=
      colon?_append isColon fun c member => by obtain rfl := Option.some.inj member; decide
    have unnamed : (before.any fun c => isWord c || c == '$' || c == '.') = false := by
      cases before with
      | none => rfl
      | some c => exact free c rfl
    have ended : rest.head?.any isWord = false := by
      cases first : rest.head? with
      | none => rfl
      | some c => exact ends c first
    rw [unnamed, if_neg Bool.false_ne_true, stripStart?_append, Option.bind_some, colon, Option.bind_some]
    dsimp only
    rw [stripStart?_append, Option.bind_some, ended, if_neg Bool.false_ne_true]

/-- Nothing but repetitions without end is written anew. -/
theorem takes_repetition : Text.Takes repetition IsStopped := by
  intro before cs written rest found
  obtain ⟨-, between, isColon, rfl, -, rfl⟩ := repetition_eq_some_iff.mp found
  exact ⟨"repeat".toList ++ between ++ "Infinity".toList, by simp, between, isColon, rfl, rfl⟩

end TextPass

end AnimationCode
