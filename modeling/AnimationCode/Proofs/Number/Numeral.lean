/-
**Numbers as they are written.**

A numeral is digits, perhaps a fraction, perhaps an exponent. It is what a number is written as, and
what a number is read from.

* `Numeral.read?_text`: the number that a numeral gives;
* `Decimal.exists_numeral`: the shortest text of a positive number is a numeral that gives it.
-/

import AnimationCode.Proofs.Number.Shortest

namespace AnimationCode

namespace Decimal

open Binary64 (IsCanonical ofDecimal ratio)

/-! ### Digits -/

theorem natOf_append (whole fraction : List Char) :
    natOf (whole ++ fraction) = 10 ^ fraction.length * natOf whole + natOf fraction := by
  have split : natOf (whole ++ fraction) = Nat.ofDigitChars 10 fraction (natOf whole) :=
    List.foldl_append
  rw [split, Nat.ofDigitChars_eq_ofDigitChars_zero]
  rfl

theorem natOf_digitsOf (n : Nat) : natOf (digitsOf n) = n := Nat.ofDigitChars_ten_toDigits

theorem natOf_replicate (count : Nat) : natOf (List.replicate count '0') = 0 :=
  Nat.ofDigitChars_replicate_zero.trans (Nat.mul_zero _)

theorem isDigit_digitsOf (n : Nat) : (digitsOf n).all Char.isDigit = true :=
  List.all_eq_true.mpr fun _ member => Nat.isDigit_of_mem_toDigits (by norm_num) (by norm_num) member

theorem digitsOf_ne_nil (n : Nat) : digitsOf n ≠ [] := Nat.toDigits_ne_nil

theorem digitCount_le {n count : Nat} (positive : 0 < count) :
    digitCount n ≤ count ↔ n < 10 ^ count := Nat.length_toDigits_le_iff (by norm_num) positive

/-- A positive number is not written with a zero in front. -/
theorem head?_digitsOf {n : Nat} (positive : 0 < n) : (digitsOf n).head? ≠ some '0' := by
  induction n using Nat.strongRecOn with
  | ind n ih =>
    rw [digitsOf, Nat.toDigits_eq_if (by norm_num)]
    split
    · rename_i small
      have table : ∀ m < 10, 0 < m → ([Nat.digitChar m] : List Char).head? ≠ some '0' := by decide
      exact table n small positive
    · rw [List.head?_append_of_ne_nil _ Nat.toDigits_ne_nil]
      exact ih (n / 10) (by omega) (by omega)

end Decimal

/-! ### Numerals -/

/-- Digits, perhaps a fraction, perhaps an exponent with its sign. -/
structure Numeral where
  whole : List Char
  fraction? : Option (List Char)
  exponent? : Option (Bool × List Char)

namespace Numeral

/-- The fraction with its point. -/
def pointText (numeral : Numeral) : List Char :=
  match numeral.fraction? with
  | some digits => '.' :: digits
  | none => []

/-- The exponent with its letter and its sign. -/
def exponentText (numeral : Numeral) : List Char :=
  match numeral.exponent? with
  | some (negative, digits) => 'e' :: (if negative then '-' else '+') :: digits
  | none => []

/-- The text of a numeral. -/
def text (numeral : Numeral) : List Char :=
  numeral.whole ++ (numeral.pointText ++ numeral.exponentText)

/-- The digits as a natural number. -/
def digits (numeral : Numeral) : Nat :=
  Decimal.natOf (numeral.whole ++ numeral.fraction?.getD [])

/-- The power of ten of the last digit. -/
def power (numeral : Numeral) : Int :=
  (match numeral.exponent? with
    | some (negative, digits) => if negative then -(Decimal.natOf digits : Int) else Decimal.natOf digits
    | none => 0) - (numeral.fraction?.getD []).length

/-- There are digits wherever there may be some, and no zero stands in front of others. -/
structure IsWellFormed (numeral : Numeral) : Prop where
  whole : numeral.whole ≠ [] ∧ numeral.whole.all Char.isDigit = true
  leading : numeral.whole = ['0'] ∨ numeral.whole.head? ≠ some '0'
  fraction : ∀ digits, numeral.fraction? = some digits → digits ≠ [] ∧ digits.all Char.isDigit = true
  exponent : ∀ negative digits, numeral.exponent? = some (negative, digits) →
    digits ≠ [] ∧ digits.all Char.isDigit = true

variable {numeral : Numeral}

theorem head?_exponentText (numeral : Numeral) :
    ∀ c, numeral.exponentText.head? = some c → c = 'e' := by
  intro c first
  unfold exponentText at first
  split at first
  · exact (Option.some.inj first).symm
  · cases first

theorem head?_pointText (numeral : Numeral) :
    ∀ c, (numeral.pointText ++ numeral.exponentText).head? = some c → c = '.' ∨ c = 'e' := by
  intro c first
  unfold pointText at first
  split at first
  · exact Or.inl (Option.some.inj first).symm
  · exact Or.inr (numeral.head?_exponentText c first)

/-- Digits end where something else begins. -/
theorem spanDigits_append {digits rest : List Char} (all : digits.all Char.isDigit = true)
    (stop : ∀ c, rest.head? = some c → c.isDigit = false) :
    Decimal.spanDigits (digits ++ rest) = (digits, rest) := by
  have every : ∀ c ∈ digits, c.isDigit = true := List.all_eq_true.mp all
  have none : rest.takeWhile Char.isDigit = [] ∧ rest.dropWhile Char.isDigit = rest := by
    cases rest with
    | nil => exact ⟨rfl, rfl⟩
    | cons c others =>
      have other := stop c rfl
      simp [other]
  rw [Decimal.spanDigits, List.takeWhile_append_of_pos every, List.dropWhile_append_of_pos every,
    none.1, none.2, List.append_nil]

theorem readExponent?_exponentText (wellFormed : numeral.IsWellFormed) :
    Decimal.readExponent? numeral.exponentText =
      some (numeral.power + (numeral.fraction?.getD []).length) := by
  unfold exponentText power
  cases found : numeral.exponent? with
  | none => simp [Decimal.readExponent?]
  | some exponent =>
    obtain ⟨negative, digits⟩ := exponent
    have fit := wellFormed.exponent negative digits found
    cases negative <;> simp [Decimal.readExponent?, fit.1, fit.2]

/-- The number that a numeral gives. -/
theorem read?_text (wellFormed : numeral.IsWellFormed) (positive : 0 < numeral.digits)
    (low : -400 ≤ numeral.power + Decimal.digitCount numeral.digits)
    (high : numeral.power + Decimal.digitCount numeral.digits ≤ 400) :
    Decimal.read? numeral.text = some (Binary64.ofDecimal false numeral.digits numeral.power) := by
  have outer : Decimal.spanDigits numeral.text =
      (numeral.whole, numeral.pointText ++ numeral.exponentText) := by
    refine spanDigits_append wellFormed.whole.2 fun c first => ?_
    rcases numeral.head?_pointText c first with rfl | rfl <;> rfl
  have inner : Decimal.spanFraction (numeral.pointText ++ numeral.exponentText) =
      (numeral.fraction?.getD [], numeral.exponentText) := by
    unfold pointText
    cases found : numeral.fraction? with
    | some digits =>
      have fit := wellFormed.fraction digits found
      refine spanDigits_append fit.2 fun c first => ?_
      rw [numeral.head?_exponentText c first]
      rfl
    | none =>
      unfold exponentText
      cases numeral.exponent? <;> rfl
  have power : numeral.power + (numeral.fraction?.getD []).length -
      ((numeral.fraction?.getD []).length : Int) = numeral.power := by omega
  unfold Decimal.read?
  dsimp only
  rw [outer]
  dsimp only
  rw [inner]
  dsimp only
  rw [if_neg fun none => wellFormed.whole.1 none.1, readExponent?_exponentText wellFormed,
    Option.map_some, power]
  rw [show Decimal.natOf (numeral.whole ++ numeral.fraction?.getD []) = numeral.digits from rfl,
    if_neg (by omega), if_neg (by omega), if_neg (by omega)]

end Numeral

/-! ### The shortest text -/

namespace Decimal

open Binary64 (IsCanonical ofDecimal ratio)

/-- The numeral of a decimal with its point inside or before its digits. -/
def pointed (digits places : Nat) : Numeral :=
  let padded := List.replicate (places + 1 - digitCount digits) '0' ++ digitsOf digits
  ⟨padded.take (padded.length - places), some (padded.drop (padded.length - places)), none⟩

theorem positional_of_neg {digits : Nat} {power : Int} (below : power < 0) :
    (positional digits power).toList = (pointed digits (-power).toNat).text := by
  have notUp : ¬ 0 ≤ power := by omega
  rw [positional, if_neg notUp]
  simp [pointed, Numeral.text, Numeral.pointText, Numeral.exponentText, digitCount]

theorem pointed_wellFormed {digits places : Nat} (positive : 0 < digits) (some : 0 < places) :
    (pointed digits places).IsWellFormed := by
  have allDigits : ((List.replicate (places + 1 - digitCount digits) '0') ++
      digitsOf digits).all Char.isDigit = true := by
    rw [List.all_append, isDigit_digitsOf]
    simp
  have count : (digitsOf digits).length = digitCount digits := rfl
  have all := List.all_eq_true.mp allDigits
  refine ⟨⟨?_, ?_⟩, ?_, ?_, ?_⟩
  · simp only [pointed, ne_eq, List.take_eq_nil_iff, not_or]
    refine ⟨?_, List.append_ne_nil_of_right_ne_nil _ (digitsOf_ne_nil digits)⟩
    rw [List.length_append, List.length_replicate, count]
    omega
  · exact List.all_eq_true.mpr fun c member => all c (List.mem_of_mem_take member)
  · by_cases padded : digitCount digits ≤ places
    · left
      have zeros : places + 1 - digitCount digits = (places - digitCount digits) + 1 := by omega
      simp only [pointed, List.length_append, List.length_replicate, count]
      rw [show places + 1 - digitCount digits + digitCount digits - places = 1 by omega, zeros]
      rfl
    · right
      have none : places + 1 - digitCount digits = 0 := by omega
      simp only [pointed, none, List.replicate_zero, List.nil_append, count]
      rw [List.head?_take, if_neg (by omega)]
      exact head?_digitsOf positive
  · intro fraction same
    obtain rfl := Option.some.inj same
    refine ⟨?_, List.all_eq_true.mpr fun c member => all c (List.mem_of_mem_drop member)⟩
    rw [ne_eq, List.drop_eq_nil_iff, List.length_append, List.length_replicate, count]
    omega
  · intro negative exponent same
    cases same

theorem pointed_digits (digits places : Nat) : (pointed digits places).digits = digits := by
  rw [Numeral.digits]
  simp only [pointed, Option.getD_some, List.take_append_drop]
  rw [natOf_append, natOf_replicate, natOf_digitsOf, Nat.mul_zero, Nat.zero_add]

theorem pointed_power {digits places : Nat} : (pointed digits places).power = -(places : Int) := by
  have count : (digitsOf digits).length = digitCount digits := rfl
  have positive := digitCount_pos digits
  simp only [Numeral.power, pointed, Option.getD_some, List.length_drop, List.length_append,
    List.length_replicate, count]
  omega

/-- The numeral of a whole decimal with a zero after its point. -/
def wholePointed (digits zeros : Nat) : Numeral :=
  ⟨digitsOf digits ++ List.replicate zeros '0', some ['0'], none⟩

theorem positional_of_nonneg {digits : Nat} {power : Int} (up : 0 ≤ power) :
    (positional digits power ++ ".0").toList = (wholePointed digits power.toNat).text := by
  rw [positional, if_pos up]
  simp [wholePointed, Numeral.text, Numeral.pointText, Numeral.exponentText]

theorem wholePointed_wellFormed {digits : Nat} (positive : 0 < digits) (zeros : Nat) :
    (wholePointed digits zeros).IsWellFormed := by
  refine ⟨⟨?_, ?_⟩, Or.inr ?_, ?_, ?_⟩
  · exact List.append_ne_nil_of_left_ne_nil (digitsOf_ne_nil digits) _
  · rw [wholePointed, List.all_append, isDigit_digitsOf]
    simp
  · rw [wholePointed, List.head?_append_of_ne_nil _ (digitsOf_ne_nil digits)]
    exact head?_digitsOf positive
  · intro fraction same
    obtain rfl := Option.some.inj same
    exact ⟨by simp, rfl⟩
  · intro negative exponent same
    cases same

theorem wholePointed_digits (digits zeros : Nat) :
    (wholePointed digits zeros).digits = 10 ^ (zeros + 1) * digits := by
  have zero : natOf ['0'] = 0 := rfl
  simp only [Numeral.digits, wholePointed, Option.getD_some, natOf_append, natOf_replicate,
    natOf_digitsOf, List.length_replicate, List.length_singleton, zero]
  ring

theorem wholePointed_power (digits zeros : Nat) : (wholePointed digits zeros).power = -1 := rfl

/-- The digits of an exponent, two at least. -/
def exponentDigits (power : Int) : List Char :=
  if digitCount power.natAbs < 2 then '0' :: digitsOf power.natAbs else digitsOf power.natAbs

theorem exponentText_toList (power : Int) :
    (exponentText power).toList =
      'e' :: (if power < 0 then '-' else '+') :: exponentDigits power := by
  have magnitude : (toString power.natAbs).toList = digitsOf power.natAbs := Nat.toList_repr
  have length : (toString power.natAbs).length = digitCount power.natAbs := by
    rw [← String.length_toList, magnitude]
    rfl
  rw [exponentText, exponentDigits]
  simp only [length, String.toList_append]
  split <;> split <;> simp [digitsOf]

theorem exponentDigits_fit (power : Int) :
    exponentDigits power ≠ [] ∧ (exponentDigits power).all Char.isDigit = true ∧
      natOf (exponentDigits power) = power.natAbs := by
  unfold exponentDigits
  split
  · refine ⟨by simp, ?_, ?_⟩
    · rw [List.all_cons, isDigit_digitsOf]
      rfl
    · exact natOf_digitsOf power.natAbs
  · exact ⟨digitsOf_ne_nil _, isDigit_digitsOf _, natOf_digitsOf _⟩

/-- The numeral of a decimal with one digit before its point. -/
def exponential (digits : Nat) (lead : Int) : Numeral :=
  ⟨(digitsOf digits).take 1,
    if digitCount digits = 1 then none else some ((digitsOf digits).drop 1),
    some (decide (lead < 0), exponentDigits lead)⟩

theorem scientific_toList (digits : Nat) (lead : Int) :
    (scientific digits lead).toList = (exponential digits lead).text := by
  have sign : (if decide (lead < 0) = true then '-' else '+') = if lead < 0 then '-' else '+' := by
    simp
  unfold scientific exponential digitCount
  have some := digitsOf_ne_nil digits
  generalize digitsOf digits = cs at some
  match cs with
  | [] => exact absurd rfl some
  | [d] =>
    simp [Numeral.text, Numeral.pointText, Numeral.exponentText, exponentText_toList]
  | d :: c :: rest =>
    simp [Numeral.text, Numeral.pointText, Numeral.exponentText, exponentText_toList]

theorem exponential_fraction (digits : Nat) (lead : Int) :
    (exponential digits lead).fraction?.getD [] = (digitsOf digits).drop 1 := by
  unfold exponential
  split
  · rename_i one
    exact (List.drop_eq_nil_of_le one.le).symm
  · rfl

theorem exponential_wellFormed {digits : Nat} (positive : 0 < digits) (lead : Int) :
    (exponential digits lead).IsWellFormed := by
  have all := List.all_eq_true.mp (isDigit_digitsOf digits)
  have count : (digitsOf digits).length = digitCount digits := rfl
  have some := digitCount_pos digits
  refine ⟨⟨?_, ?_⟩, Or.inr ?_, ?_, ?_⟩
  · rw [exponential, ne_eq, List.take_eq_nil_iff, not_or]
    exact ⟨Nat.one_ne_zero, digitsOf_ne_nil digits⟩
  · exact List.all_eq_true.mpr fun c member => all c (List.mem_of_mem_take member)
  · rw [exponential, List.head?_take, if_neg Nat.one_ne_zero]
    exact head?_digitsOf positive
  · intro fraction same
    simp only [exponential] at same
    split at same
    · cases same
    · obtain rfl := Option.some.inj same
      refine ⟨?_, List.all_eq_true.mpr fun c member => all c (List.mem_of_mem_drop member)⟩
      rw [ne_eq, List.drop_eq_nil_iff, count]
      omega
  · intro negative exponent same
    obtain ⟨-, rfl⟩ := Prod.ext_iff.mp (Option.some.inj same)
    exact ⟨(exponentDigits_fit lead).1, (exponentDigits_fit lead).2.1⟩

theorem exponential_digits (digits : Nat) (lead : Int) :
    (exponential digits lead).digits = digits := by
  rw [Numeral.digits, exponential_fraction]
  simp only [exponential, List.take_append_drop]
  exact natOf_digitsOf digits

theorem exponential_power (digits : Nat) (lead : Int) :
    (exponential digits lead).power = lead - (digitCount digits - 1) := by
  have count : (digitsOf digits).length = digitCount digits := rfl
  have some := digitCount_pos digits
  have value := (exponentDigits_fit lead).2.2
  rw [Numeral.power, exponential_fraction, List.length_drop, count]
  simp only [exponential, value, decide_eq_true_eq]
  split <;> omega

/-! ### The text of a number -/

theorem ofDecimal_ten_pow_mul (negative : Bool) (count digits : Nat) (power : Int) :
    ofDecimal negative (10 ^ count * digits) power = ofDecimal negative digits (power + count) := by
  induction count generalizing power with
  | zero => simp
  | succ count ih =>
    rw [pow_succ', mul_assoc, Binary64.ofDecimal_ten_mul, ih]
    congr 1
    push_cast
    ring

/-- The digits and the power of the shortest text of a positive number. -/
def shortDecimal (m : Nat) (e : Int) : Nat × Int :=
  let (num, den) := ratio m e
  let (digits, power) := shortestDigits (.finite false m e) num den (leadingPower num den) 18 0
  stripZeros digits power 400

/-- The numeral of a decimal, with an exponent unless the point is near the digits. -/
def numeralOf (digits : Nat) (power : Int) : Numeral :=
  let lead := power + digitCount digits - 1
  if -4 ≤ lead ∧ lead < 16 then
    (if 0 ≤ power then wholePointed digits power.toNat else pointed digits (-power).toNat)
  else exponential digits lead

theorem shortest_eq {m : Nat} (positive : 0 < m) (negative : Bool) (e : Int) :
    (shortest (.finite negative m e)).toList =
      (if negative then ['-'] else []) ++
        (numeralOf (shortDecimal m e).1 (shortDecimal m e).2).text := by
  have some : m ≠ 0 := by omega
  have whole : shortest (.finite negative m e) = signed negative
      (let (digits, power) := shortDecimal m e
      let lead := power + digitCount digits - 1
      if -4 ≤ lead ∧ lead < 16 then
        (if 0 ≤ power then positional digits power ++ ".0" else positional digits power)
      else scientific digits lead) := by
    rw [shortest, if_neg some]
    rfl
  have sign (text : String) : (signed negative text).toList =
      (if negative then ['-'] else []) ++ text.toList := by
    cases negative
    · rfl
    · exact String.toList_append
  rw [whole, sign]
  congr 1
  unfold numeralOf
  dsimp only
  split
  · split
    · rename_i up
      exact positional_of_nonneg up
    · rename_i below
      exact positional_of_neg (lt_of_not_ge below)
  · exact scientific_toList _ _

theorem numeralOf_wellFormed {digits : Nat} (positive : 0 < digits) (power : Int) :
    (numeralOf digits power).IsWellFormed := by
  unfold numeralOf
  dsimp only
  split
  · split
    · exact wholePointed_wellFormed positive _
    · exact pointed_wellFormed positive (by omega)
  · exact exponential_wellFormed positive _

/-- A numeral is no plain integer. -/
theorem numeralOf_fractional (digits : Nat) (power : Int) :
    (numeralOf digits power).pointText ++ (numeralOf digits power).exponentText ≠ [] := by
  unfold numeralOf
  dsimp only
  split
  · split <;> simp [pointed, wholePointed, Numeral.pointText]
  · simp [exponential, Numeral.exponentText]

/-- A numeral gives the number that its decimal is rounded to. -/
theorem read?_numeralOf {digits : Nat} {power : Int} (positive : 0 < digits)
    (low : -400 ≤ power) (high : power + digitCount digits ≤ 400) :
    read? (numeralOf digits power).text = some (ofDecimal false digits power) := by
  have wellFormed := numeralOf_wellFormed positive power
  have count := digitCount_pos digits
  unfold numeralOf at wellFormed ⊢
  dsimp only at wellFormed ⊢
  split at wellFormed <;> rename_i near
  · rw [if_pos near]
    split at wellFormed <;> rename_i up
    · rw [if_pos up]
      have less : 10 ^ (power.toNat + 1) * digits < 10 ^ (power.toNat + 1 + digitCount digits) := by
        rw [pow_add 10 (power.toNat + 1)]
        exact (Nat.mul_lt_mul_left (by positivity)).mpr ((digitCount_le count).mp (le_refl _))
      have few : digitCount (10 ^ (power.toNat + 1) * digits) ≤
          power.toNat + 1 + digitCount digits := (digitCount_le (by omega)).mpr less
      rw [Numeral.read?_text wellFormed, wholePointed_digits, wholePointed_power,
        ofDecimal_ten_pow_mul]
      · congr 2
        push_cast
        omega
      · rw [wholePointed_digits]
        positivity
      · rw [wholePointed_power]
        omega
      · rw [wholePointed_power, wholePointed_digits]
        omega
    · rw [if_neg up]
      have back : -((-power).toNat : Int) = power := by omega
      rw [Numeral.read?_text wellFormed, pointed_digits, pointed_power, back]
      · rwa [pointed_digits]
      · rw [pointed_power, pointed_digits]
        omega
      · rw [pointed_power, pointed_digits]
        omega
  · rw [if_neg near]
    have back : power + digitCount digits - 1 - (digitCount digits - 1) = power := by omega
    rw [Numeral.read?_text wellFormed, exponential_digits, exponential_power, back]
    · rwa [exponential_digits]
    · rw [exponential_power, exponential_digits]
      omega
    · rw [exponential_power, exponential_digits]
      omega

/-- The digits of the shortest text read back as the number, and are not far from it. -/
theorem shortDecimal_spec {m : Nat} {e : Int} (positive : 0 < m)
    (canonical : IsCanonical (.finite false m e)) :
    0 < (shortDecimal m e).1 ∧ -400 ≤ (shortDecimal m e).2 ∧
      (shortDecimal m e).2 + digitCount (shortDecimal m e).1 ≤ 400 ∧
      ofDecimal false (shortDecimal m e).1 (shortDecimal m e).2 = .finite false m e := by
  have posNum := Binary64.ratio_fst_pos positive e
  have posDen := Binary64.ratio_snd_pos m e
  have value := Binary64.ratio_eq m e
  have least : (ratio m e).2 ≤ (ratio m e).1 * 10 ^ 324 := by
    have low := canonical.2.1
    simp only [Binary64.leastExponent] at low
    have small := Binary64.ratio_snd_le m (by omega : -e ≤ ((179 * 6 : Nat) : Int))
    rw [pow_mul] at small
    calc (ratio m e).2 ≤ (2 ^ 179) ^ 6 := small
      _ ≤ (10 ^ 54) ^ 6 := Nat.pow_le_pow_left (by norm_num) 6
      _ = 1 * 10 ^ 324 := by rw [← pow_mul, one_mul]
      _ ≤ (ratio m e).1 * 10 ^ 324 := Nat.mul_le_mul_right _ posNum
  obtain ⟨leading, high⟩ := leadingPower_spec posDen least
  obtain ⟨reads, low, near⟩ := shortestDigits_spec 18 0 positive posDen canonical value leading
    (by simp [mostDigits]) (by simp [mostDigits])
  have short : shortDecimal m e =
      stripZeros (shortestDigits (.finite false m e) (ratio m e).1 (ratio m e).2
          (leadingPower (ratio m e).1 (ratio m e).2) 18 0).1
        (shortestDigits (.finite false m e) (ratio m e).1 (ratio m e).2
          (leadingPower (ratio m e).1 (ratio m e).2) 18 0).2 400 := rfl
  have found : 0 < (shortestDigits (.finite false m e) (ratio m e).1 (ratio m e).2
      (leadingPower (ratio m e).1 (ratio m e).2) 18 0).1 := by
    rw [Nat.pos_iff_ne_zero]
    intro none
    rw [none] at reads
    have zero (power : Int) : ofDecimal false 0 power = Binary64.zero false := by
      simp [Binary64.ofDecimal_eq, Binary64.ofRatio]
    rw [zero, Binary64.zero, Binary64.finite.injEq] at reads
    omega
  obtain ⟨same, pos, up, equal⟩ := stripZeros_spec false 400 found
  rw [reads] at same
  rw [← short] at same pos up equal
  have low' : -341 ≤ (shortDecimal m e).2 := by
    simp only [mostDigits] at low
    omega
  refine ⟨pos, by omega, ?_, same⟩
  have count := digitCount_pos (shortDecimal m e).1
  -- the leading digit is no more than twice the number, which is below `2 ^ 1024`
  have below : (10 : ℚ) ^ ((shortDecimal m e).2 + (digitCount (shortDecimal m e).1 - 1 : Nat)) <
      10 ^ (310 : Int) := by
    have narrow : (m : ℚ) < 2 ^ 53 := by exact_mod_cast canonical.1
    have most : (2 : ℚ) ^ e ≤ 2 ^ (971 : Int) :=
      zpow_le_zpow_right₀ (by norm_num) canonical.2.2.1
    have wide : (2 : ℚ) * (2 ^ 53 * 2 ^ (971 : Int)) = (2 ^ 205) ^ 5 := by
      rw [← pow_mul, show (971 : Int) = ((971 : Nat) : Int) from rfl, zpow_natCast, ← pow_add,
        ← pow_succ']
    have tens : (10 : ℚ) ^ (310 : Int) = (10 ^ 62) ^ 5 := by
      rw [← pow_mul, show (310 : Int) = ((310 : Nat) : Int) from rfl, zpow_natCast]
    calc (10 : ℚ) ^ ((shortDecimal m e).2 + (digitCount (shortDecimal m e).1 - 1 : Nat))
        = (10 ^ (digitCount (shortDecimal m e).1 - 1) : Nat) * 10 ^ (shortDecimal m e).2 := by
          rw [zpow_add₀ (by norm_num), zpow_natCast, mul_comm]
          push_cast
          rfl
      _ ≤ (shortDecimal m e).1 * 10 ^ (shortDecimal m e).2 := by
          gcongr
          exact pow_digitCount_le pos
      _ ≤ 2 * (m * 2 ^ e) := by rw [equal]; exact near
      _ ≤ 2 * (2 ^ 53 * 2 ^ (971 : Int)) := by gcongr
      _ < 10 ^ (310 : Int) := by
          rw [wide, tens]
          gcongr
          norm_num
  have powers := (zpow_lt_zpow_iff_right₀ (by norm_num : (1 : ℚ) < 10)).mp below
  omega

/-- The shortest text of a positive number is a numeral that gives it. -/
theorem exists_numeral {m : Nat} {e : Int} (positive : 0 < m)
    (canonical : IsCanonical (.finite false m e)) :
    ∃ numeral : Numeral, numeral.IsWellFormed ∧
      numeral.pointText ++ numeral.exponentText ≠ [] ∧
      (∀ negative, (shortest (.finite negative m e)).toList =
        (if negative then ['-'] else []) ++ numeral.text) ∧
      read? numeral.text = some (.finite false m e) := by
  obtain ⟨pos, low, high, reads⟩ := shortDecimal_spec positive canonical
  refine ⟨numeralOf (shortDecimal m e).1 (shortDecimal m e).2, numeralOf_wellFormed pos _,
    numeralOf_fractional _ _, fun negative => shortest_eq positive negative e, ?_⟩
  rw [read?_numeralOf pos low high, reads]

end Decimal

end AnimationCode
