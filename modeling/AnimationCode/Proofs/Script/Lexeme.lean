/-
**Where names and numbers end.**

A name ends before a character that is none of a name, and a number before one that could not go on with
it.

* `Script.nameLength_append`: the length of a name;
* `Script.numberLength?_numeral`: the length of a numeral.
-/

import AnimationCode.Proofs.Number.Numeral
import AnimationCode.Script.Lexeme
import AnimationCode.Value.Printer

namespace AnimationCode

namespace Script

/-! ### Characters of names -/

/-- A statement about the characters of a text is decided along the text, not by a look at all characters. -/
instance (priority := 2000) decidableForallMemText {P : Char → Prop} [DecidablePred P] (text : List Char) :
    Decidable (∀ c ∈ text, P c) := List.decidableBAll P text

/-- Whether a character is in a range of the basic alphabet. -/
theorem inRange_iff {c first last : Char} :
    (decide (first.val ≤ c.val) && decide (c.val ≤ last.val)) = true ↔ first.toNat ≤ c.toNat ∧ c.toNat ≤ last.toNat := by
  rw [Bool.and_eq_true, decide_eq_true_eq, decide_eq_true_eq, UInt32.le_iff_toNat_le, UInt32.le_iff_toNat_le]
  rfl

theorem isUpper_iff {c : Char} : c.isUpper = true ↔ 65 ≤ c.toNat ∧ c.toNat ≤ 90 :=
  decide_eq_true_iff.trans (and_congr UInt32.le_iff_toNat_le UInt32.le_iff_toNat_le)

theorem isLower_iff {c : Char} : c.isLower = true ↔ 97 ≤ c.toNat ∧ c.toNat ≤ 122 := @inRange_iff c 'a' 'z'

theorem isDigit_iff {c : Char} : c.isDigit = true ↔ 48 ≤ c.toNat ∧ c.toNat ≤ 57 := @inRange_iff c '0' '9'

theorem isAlpha_iff {c : Char} : c.isAlpha = true ↔ c.isUpper = true ∨ c.isLower = true := Bool.or_eq_true _ _ ▸ Iff.rfl

theorem isDigit_of_isAlpha {c : Char} (letter : c.isAlpha = true) : c.isDigit = false := by
  rw [isAlpha_iff, isUpper_iff, isLower_iff] at letter
  rw [Bool.eq_false_iff, ne_eq, isDigit_iff]
  omega

theorem toNat_of_isAlphanum {c : Char} (letter : c.isAlphanum = true) :
    48 ≤ c.toNat ∧ c.toNat ≤ 122 := by
  rw [Char.isAlphanum, Bool.or_eq_true, isAlpha_iff, isUpper_iff, isLower_iff, isDigit_iff] at letter
  omega

/-- A sign that ends a name is a sign of the basic alphabet, and no letter. -/
theorem nameSigns_fit : ∀ c ∈ nameSigns, c.toNat < 128 ∧ c.isAlphanum = false ∧ c ≠ '_' := by
  decide

theorem isNameRest_iff {c : Char} :
    isNameRest c = true ↔ 32 ≤ c.toNat ∧ isSpace c = false ∧ c ∉ nameSigns := by
  simp only [isNameRest, Bool.not_eq_true', Bool.or_eq_false_iff, decide_eq_false_iff_not,
    List.contains_eq_mem, Nat.not_lt, and_assoc]

theorem isSpace_of_ascii {c : Char} (ascii : c.toNat < 128) :
    isSpace c = true ↔ 9 ≤ c.toNat ∧ c.toNat ≤ 13 ∨ c.toNat = 32 := by
  simp only [isSpace, Bool.or_eq_true, Bool.and_eq_true, decide_eq_true_eq, beq_iff_eq]
  omega

theorem isNameRest_of_isAlphanum {c : Char} (letter : c.isAlphanum = true) :
    isNameRest c = true := by
  have range := toNat_of_isAlphanum letter
  refine isNameRest_iff.mpr ⟨by omega, ?_, ?_⟩
  · rw [Bool.eq_false_iff, ne_eq, isSpace_of_ascii (by omega)]
    omega
  · intro member
    rw [(nameSigns_fit c member).2.1] at letter
    cases letter

theorem isNameRest_of_isDigit {c : Char} (digit : c.isDigit = true) : isNameRest c = true := by
  refine isNameRest_of_isAlphanum ?_
  rw [Char.isAlphanum, digit, Bool.or_true]

/-- The blanks past the basic alphabet. -/
def wideSpaces : List Nat :=
  [0xa0, 0x1680, 0x2000, 0x2001, 0x2002, 0x2003, 0x2004, 0x2005, 0x2006, 0x2007, 0x2008, 0x2009,
    0x200a, 0x200b, 0x2028, 0x2029, 0x202f, 0x205f, 0x2060, 0x3000, 0xfeff]

theorem mem_wideSpaces {c : Char} (space : isSpace c = true) (wide : 128 ≤ c.toNat) :
    c.toNat ∈ wideSpaces := by
  simp only [isSpace, Bool.or_eq_true, Bool.and_eq_true, decide_eq_true_eq, beq_iff_eq] at space
  simp only [wideSpaces, List.mem_cons, List.not_mem_nil, or_false]
  omega

/-- No blank is a letter. -/
theorem inIntervals_wideSpaces :
    ∀ n ∈ wideSpaces, Text.inIntervals Text.wordIntervals n = false := by
  decide +kernel

theorem isNameRest_of_isWord {c : Char} (word : Text.isWord c = true) : isNameRest c = true := by
  simp only [Text.isWord, Bool.or_eq_true, Bool.and_eq_true, decide_eq_true_eq, beq_iff_eq] at word
  rcases word with (letter | rfl) | ⟨wide, table⟩
  · exact isNameRest_of_isAlphanum letter
  · decide
  · refine isNameRest_iff.mpr ⟨by omega, ?_, ?_⟩
    · rw [Bool.eq_false_iff]
      intro space
      rw [inIntervals_wideSpaces _ (mem_wideSpaces space wide)] at table
      cases table
    · intro member
      have := (nameSigns_fit c member).1
      omega

theorem isNameRest_of_isNamePart {c : Char} (part : Text.isNamePart c = true) :
    isNameRest c = true := by
  simp only [Text.isNamePart, Bool.or_eq_true, beq_iff_eq] at part
  rcases part with word | rfl
  · exact isNameRest_of_isWord word
  · decide

/-! ### Names -/

/-- A text that no name goes on with. -/
def EndsName (after : List Char) : Prop :=
  ∀ c, after.head? = some c → isNameRest c = false ∧ c ≠ '\\'

theorem nameRestLength_append {steps : Nat} {name after : List Char}
    (all : ∀ c ∈ name, isNameRest c = true) (ends : EndsName after)
    (enough : name.length ≤ steps) : nameRestLength steps (name ++ after) = name.length := by
  induction name generalizing steps with
  | nil =>
    match steps, after with
    | 0, _ => rfl
    | _ + 1, [] => rfl
    | _ + 1, c :: rest =>
      obtain ⟨other, slash⟩ := ends c rfl
      simp [nameRestLength, other, slash]
  | cons c name ih =>
    match steps with
    | 0 => exact absurd enough (by simp)
    | steps + 1 =>
      have fewer : name.length ≤ steps := by simpa using enough
      rw [List.cons_append, nameRestLength, if_pos (all c List.mem_cons_self),
        ih (fun d member => all d (List.mem_cons_of_mem c member)) fewer]
      rfl

/-- The length of a name. -/
theorem nameLength_append {name after : List Char} (all : ∀ c ∈ name, isNameRest c = true)
    (first : ∀ c, name.head? = some c → c.isDigit = false) (some : name ≠ [])
    (ends : EndsName after) : nameLength (name ++ after) = name.length := by
  match name with
  | [] => exact absurd rfl some
  | c :: rest =>
    have letter := first c rfl
    have whole : nameRestLength (c :: rest ++ after).length (c :: rest ++ after) =
        (c :: rest).length := nameRestLength_append all ends (by simp)
    rw [← whole]
    simp [nameLength, letter]

/-- No name begins with another character. -/
theorem nameLength_of_ends {after : List Char} (ends : EndsName after) : nameLength after = 0 := by
  match after with
  | [] => rfl
  | c :: rest =>
    have whole : nameRestLength (c :: rest).length ([] ++ c :: rest) = 0 :=
      nameRestLength_append (by simp) ends (Nat.zero_le _)
    rw [List.nil_append] at whole
    rw [nameLength, whole]
    split <;> rfl

/-! ### Numbers -/

/-- A text that no number goes on with. -/
def EndsNumber (after : List Char) : Prop :=
  ∀ c, after.head? = some c → isNameRest c = false ∧ c ≠ '.'

theorem digitsLength_go_cons {c : Char} (line : c ≠ '_') (rest : List Char) :
    digitsLength.go Char.isDigit (c :: rest) =
      if c.isDigit then digitsLength.go Char.isDigit rest + 1 else 0 :=
  digitsLength.go.eq_4 _ _ _ (fun same => absurd same line) fun _ _ same => absurd same line

theorem digitsLength_go_append {digits after : List Char}
    (all : digits.all Char.isDigit = true)
    (stop : ∀ c, after.head? = some c → c.isDigit = false ∧ c ≠ '_') :
    digitsLength.go Char.isDigit (digits ++ after) = digits.length := by
  induction digits with
  | nil =>
    match after with
    | [] => rfl
    | c :: rest =>
      obtain ⟨other, line⟩ := stop c rfl
      rw [List.nil_append, digitsLength_go_cons line, other]
      rfl
  | cons d digits ih =>
    rw [List.all_cons, Bool.and_eq_true] at all
    have line : d ≠ '_' := by
      rintro rfl
      exact absurd all.1 (by decide)
    rw [List.cons_append, digitsLength_go_cons line, if_pos all.1, ih all.2]
    rfl

theorem digitsLength_append {digits after : List Char} (all : digits.all Char.isDigit = true)
    (stop : ∀ c, after.head? = some c → c.isDigit = false ∧ c ≠ '_') :
    digitsLength Char.isDigit (digits ++ after) = digits.length := by
  match digits with
  | [] =>
    match after with
    | [] => rfl
    | c :: rest => simp [digitsLength, (stop c rfl).1]
  | d :: digits =>
    rw [List.all_cons, Bool.and_eq_true] at all
    rw [List.cons_append, digitsLength, if_pos all.1, digitsLength_go_append all.2 stop]
    rfl

theorem EndsNumber.stop {after : List Char} (ends : EndsNumber after) :
    ∀ c, after.head? = some c → c.isDigit = false ∧ c ≠ '_' := by
  intro c first
  have other := (ends c first).1
  refine ⟨?_, ?_⟩
  · by_contra digit
    rw [isNameRest_of_isDigit (Bool.not_eq_false _ ▸ digit)] at other
    cases other
  · rintro rfl
    exact absurd other (by decide)

theorem exponentLength_of_ends {after : List Char} (ends : EndsNumber after) :
    exponentLength after = 0 := by
  match after with
  | [] => rfl
  | c :: rest =>
    have other := (ends c rfl).1
    have neither : ¬ (c = 'e' ∨ c = 'E') := by
      rintro (rfl | rfl) <;> exact absurd other (by decide)
    simp only [exponentLength, if_neg neither]

variable {numeral : Numeral}

theorem exponentLength_exponentText (wellFormed : numeral.IsWellFormed) {after : List Char}
    (ends : EndsNumber after) :
    exponentLength (numeral.exponentText ++ after) = numeral.exponentText.length := by
  unfold Numeral.exponentText
  cases found : numeral.exponent? with
  | none => exact exponentLength_of_ends ends
  | some exponent =>
    obtain ⟨negative, digits⟩ := exponent
    have fit := wellFormed.exponent negative digits found
    have some : ¬ digits.length = 0 := fun none => fit.1 (List.eq_nil_of_length_eq_zero none)
    have length := digitsLength_append fit.2 ends.stop
    cases negative <;> simp [exponentLength, length, some]

/-- A point or an exponent ends the digits before it. -/
theorem stop_exponentText {after : List Char} (ends : EndsNumber after) :
    ∀ c, (numeral.exponentText ++ after).head? = some c → c.isDigit = false ∧ c ≠ '_' := by
  intro c first
  cases found : numeral.exponentText with
  | nil =>
    rw [found] at first
    exact ends.stop c first
  | cons d rest =>
    have letter := numeral.head?_exponentText d (by rw [found]; rfl)
    rw [found] at first
    obtain rfl := Option.some.inj first
    subst letter
    decide

theorem stop_pointText {after : List Char} (ends : EndsNumber after) :
    ∀ c, (numeral.pointText ++ (numeral.exponentText ++ after)).head? = some c →
      c.isDigit = false ∧ c ≠ '_' := by
  intro c first
  unfold Numeral.pointText at first
  split at first
  · obtain rfl := Option.some.inj first
    decide
  · exact stop_exponentText ends c first

theorem wholeLength_append (wellFormed : numeral.IsWellFormed) {after : List Char}
    (stop : ∀ c, after.head? = some c → c.isDigit = false ∧ c ≠ '_') :
    wholeLength (numeral.whole ++ after) = numeral.whole.length := by
  rcases wellFormed.leading with zero | nonzero
  · rw [zero]
    match after with
    | [] => rfl
    | c :: rest =>
      have none : ¬ ('1' ≤ c ∧ c ≤ '9') := by
        rintro ⟨low, high⟩
        have digit : c.isDigit = true := by
          simp only [Char.isDigit, Bool.and_eq_true, decide_eq_true_eq]
          exact ⟨Char.le_trans (by decide) low, high⟩
        rw [(stop c rfl).1] at digit
        cases digit
      simp [wholeLength, none]
  · have length := digitsLength_append wellFormed.whole.2 stop
    match found : numeral.whole with
    | [] => exact absurd found wellFormed.whole.1
    | d :: digits =>
      rw [found] at nonzero length
      have other : d ≠ '0' := fun same => nonzero (congrArg some same)
      unfold wholeLength
      split
      · rename_i same
        exact absurd (List.cons.inj same).1 other
      · rw [if_neg (by simpa using other), length]

/-- A numeral begins with a digit. -/
theorem exists_whole (wellFormed : numeral.IsWellFormed) :
    ∃ d digits, numeral.whole = d :: digits ∧ d.isDigit = true := by
  match found : numeral.whole with
  | [] => exact absurd found wellFormed.whole.1
  | d :: digits =>
    refine ⟨d, digits, rfl, ?_⟩
    have all := wellFormed.whole.2
    rw [found, List.all_cons, Bool.and_eq_true] at all
    exact all.1

theorem text_append (numeral : Numeral) (after : List Char) :
    numeral.text ++ after =
      numeral.whole ++ (numeral.pointText ++ (numeral.exponentText ++ after)) := by
  simp only [Numeral.text, List.append_assoc]

theorem fractionalLength_numeral (wellFormed : numeral.IsWellFormed) {after : List Char}
    (ends : EndsNumber after) :
    fractionalLength numeral.whole.length (numeral.pointText ++ (numeral.exponentText ++ after)) =
      if numeral.pointText ++ numeral.exponentText = [] then 0 else numeral.text.length := by
  have power := exponentLength_exponentText wellFormed ends
  cases found : numeral.fraction? with
  | some fraction =>
    have fit := wellFormed.fraction fraction found
    have length : digitsLength Char.isDigit (fraction ++ (numeral.exponentText ++ after)) =
        fraction.length := digitsLength_append fit.2 (stop_exponentText ends)
    have point : numeral.pointText = '.' :: fraction := by rw [Numeral.pointText, found]
    have total : numeral.text.length =
        numeral.whole.length + 1 + fraction.length + numeral.exponentText.length := by
      rw [Numeral.text, point]
      simp only [List.length_append, List.length_cons]
      omega
    rw [point, List.cons_append, fractionalLength, length, List.drop_left, power, if_neg (by simp),
      total]
  | none =>
    have point : numeral.pointText = [] := by rw [Numeral.pointText, found]
    have total : numeral.text.length = numeral.whole.length + numeral.exponentText.length := by
      rw [Numeral.text, point, List.nil_append, List.length_append]
    have notPoint : ∀ rest, numeral.exponentText ++ after ≠ '.' :: rest := by
      intro rest same
      cases letter : numeral.exponentText with
      | nil =>
        rw [letter, List.nil_append] at same
        exact (ends '.' (by rw [same]; rfl)).2 rfl
      | cons c others =>
        have exponent := numeral.head?_exponentText c (by rw [letter]; rfl)
        rw [letter, List.cons_append] at same
        rw [(List.cons.inj same).1] at exponent
        exact absurd exponent (by decide)
    rw [point, List.nil_append, List.nil_append, fractionalLength.eq_2 _ _ notPoint, power, total]
    simp only [List.length_eq_zero_iff]

theorem decimalLength_numeral (wellFormed : numeral.IsWellFormed) {after : List Char}
    (ends : EndsNumber after) :
    decimalLength (numeral.text ++ after) = max numeral.whole.length
      (if numeral.pointText ++ numeral.exponentText = [] then 0 else numeral.text.length) := by
  obtain ⟨d, digits, first, digit⟩ := exists_whole wellFormed
  have notPoint : ∀ rest, numeral.text ++ after ≠ '.' :: rest := by
    intro rest same
    rw [text_append, first] at same
    obtain rfl := (List.cons.inj same).1
    exact absurd digit (by decide)
  have plain : digitsLength Char.isDigit (numeral.text ++ after) = numeral.whole.length := by
    rw [text_append]
    exact digitsLength_append wellFormed.whole.2 (stop_pointText ends)
  have whole : wholeLength (numeral.text ++ after) = numeral.whole.length := by
    rw [text_append]
    exact wholeLength_append wellFormed (stop_pointText ends)
  have some : numeral.whole.length ≠ 0 := by simp [first]
  have dropped : (numeral.text ++ after).drop numeral.whole.length =
      numeral.pointText ++ (numeral.exponentText ++ after) := by
    rw [text_append, List.drop_left]
  rw [decimalLength.eq_2 _ notPoint, plain, whole, if_neg some, dropped, fractionalLength_numeral wellFormed ends]

theorem radixLength_numeral (wellFormed : numeral.IsWellFormed) {after : List Char}
    (ends : EndsNumber after) : radixLength (numeral.text ++ after) = 0 := by
  rw [text_append]
  rcases wellFormed.leading with zero | nonzero
  · rw [zero]
    match found : numeral.pointText ++ (numeral.exponentText ++ after) with
    | [] => rfl
    | x :: rest =>
      have other : x ∉ ['x', 'X', 'b', 'B', 'o', 'O'] := by
        intro member
        have table : ∀ y ∈ ['x', 'X', 'b', 'B', 'o', 'O'],
            y ≠ '.' ∧ y ≠ 'e' ∧ isNameRest y = true := by decide
        obtain ⟨point, letter, part⟩ := table x member
        have first : (numeral.pointText ++ (numeral.exponentText ++ after)).head? = some x := by
          rw [found]
          rfl
        rw [← List.append_assoc] at first
        cases inside : numeral.pointText ++ numeral.exponentText with
        | nil =>
          rw [inside] at first
          rw [(ends x first).1] at part
          cases part
        | cons y others =>
          rw [inside] at first
          obtain rfl := Option.some.inj first
          rcases numeral.head?_pointText y (by rw [inside]; rfl) with same | same
          · exact point same
          · exact letter same
      simp only [List.mem_cons, List.not_mem_nil, or_false, not_or] at other
      obtain ⟨x1, x2, b1, b2, o1, o2⟩ := other
      simp [radixLength, x1, x2, b1, b2, o1, o2]
  · obtain ⟨d, digits, first, digit⟩ := exists_whole wellFormed
    rw [first] at nonzero
    have other : d ≠ '0' := fun same => nonzero (congrArg some same)
    rw [first]
    unfold radixLength
    split
    · rename_i same
      exact absurd (List.cons.inj same).1 other
    · rfl

/-- The length of a numeral. -/
theorem numberLength?_numeral (wellFormed : numeral.IsWellFormed) {after : List Char}
    (ends : EndsNumber after) :
    numberLength? (numeral.text ++ after) = some numeral.text.length := by
  obtain ⟨d, digits, first, -⟩ := exists_whole wellFormed
  have plain : digitsLength Char.isDigit (numeral.text ++ after) = numeral.whole.length := by
    rw [text_append]
    exact digitsLength_append wellFormed.whole.2 (stop_pointText ends)
  have some : numeral.whole.length ≠ 0 := by simp [first]
  have notBig : ((numeral.text ++ after).drop numeral.whole.length).head? ≠ Option.some 'n' := by
    rw [text_append, List.drop_left, ← List.append_assoc]
    intro big
    cases inside : numeral.pointText ++ numeral.exponentText with
    | nil =>
      rw [inside] at big
      exact absurd (ends 'n' big).1 (by decide)
    | cons y others =>
      rw [inside] at big
      obtain rfl := Option.some.inj big
      rcases numeral.head?_pointText 'n' (by rw [inside]; rfl) with same | same
      · exact absurd same (by decide)
      · exact absurd same (by decide)
  have length : numeral.text.length =
      numeral.whole.length + (numeral.pointText ++ numeral.exponentText).length := by
    rw [Numeral.text, List.length_append]
  have noRadix : ¬ ((0 : Nat) ≠ 0 ∧
      ((numeral.text ++ after).drop 0).head? = Option.some 'n') := fun big => big.1 rfl
  have noBig : ¬ (numeral.whole.length ≠ 0 ∧
      ((numeral.text ++ after).drop numeral.whole.length).head? = Option.some 'n') :=
    fun big => notBig big.2
  have longest : max (max 0 0) (max (max numeral.whole.length
      (if numeral.pointText ++ numeral.exponentText = [] then 0 else numeral.text.length))
      0) = numeral.text.length := by
    split
    · rename_i none
      rw [none, List.length_nil] at length
      omega
    · omega
  simp only [numberLength?, radixLength_numeral wellFormed ends,
    decimalLength_numeral wellFormed ends, plain, if_neg noRadix, if_neg noBig, longest]
  exact if_neg (by omega)

end Script

end AnimationCode
