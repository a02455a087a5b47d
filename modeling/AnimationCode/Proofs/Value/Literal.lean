/-
**Literal values and their numbers.**

A literal value is built of what the script language can write: no expressions, and no number that is
none. Its numbers come back from their text by value: a whole number comes back as an integer.

* `Value.IsLiteral`: the values that literals write;
* `Value.normal`: a value with its whole numbers as integers;
* `Value.isWritten_real`: a number is written as a sign and a numeral that has its magnitude;
* `Value.line_not_mem_print`: a literal value is written on one line.
-/

import AnimationCode.Proofs.Number.Numeral
import AnimationCode.Proofs.Text.Quoted
import AnimationCode.Proofs.Text.Split
import AnimationCode.Script.Literal
import AnimationCode.Value.Printer

namespace AnimationCode

namespace Value

/-! ### Literal values -/

/-- A text without the character that ends a source. -/
def IsText (text : String) : Prop := '\x00' ∉ text.toList

/-- A name that is read back as it is written: the line feed that a plain name may end with is lost. -/
def IsEntryName (name : String) : Prop :=
  IsText name ∧ (Text.isPlainName name.toList = true → '\n' ∉ name.toList)

instance (text : String) : Decidable (IsText text) := inferInstanceAs (Decidable ('\x00' ∉ text.toList))

instance (name : String) : Decidable (IsEntryName name) :=
  inferInstanceAs (Decidable (IsText name ∧ (Text.isPlainName name.toList = true → '\n' ∉ name.toList)))

mutual

/-- A value that a literal writes. Its numbers are numbers, its integers are short enough to be written and
read, and its objects name no field twice. -/
def IsLiteral : Value → Prop
  | .null => True
  | .bool _ => True
  | .int n => Decimal.digitCount n.natAbs ≤ Decimal.digitLimit
  | .real x => x ≠ .nan ∧ x.IsCanonical
  | .text content => IsText content
  | .list items => AreLiteral items
  | .object fields => (Fields.keys fields).Nodup ∧ AreEntries fields
  | .code _ => False
  | .guarded inner => IsLiteral inner

/-- Values that literals write. -/
def AreLiteral : List Value → Prop
  | [] => True
  | item :: rest => IsLiteral item ∧ AreLiteral rest

/-- Entries of an object that a literal writes. -/
def AreEntries : List (String × Value) → Prop
  | [] => True
  | (name, value) :: rest => IsEntryName name ∧ IsLiteral value ∧ AreEntries rest

end

mutual

/-- Whether a literal writes a value. -/
def decideLiteral : (value : Value) → Decidable value.IsLiteral
  | .null => .isTrue trivial
  | .bool _ => .isTrue trivial
  | .int n => inferInstanceAs (Decidable (Decimal.digitCount n.natAbs ≤ Decimal.digitLimit))
  | .real x => inferInstanceAs (Decidable (x ≠ .nan ∧ x.IsCanonical))
  | .text content => inferInstanceAs (Decidable (IsText content))
  | .list items => decideLiterals items
  | .object fields =>
    have := decideEntries fields
    inferInstanceAs (Decidable ((Fields.keys fields).Nodup ∧ AreEntries fields))
  | .code _ => .isFalse id
  | .guarded inner => decideLiteral inner

/-- Whether literals write values. -/
def decideLiterals : (items : List Value) → Decidable (AreLiteral items)
  | [] => .isTrue trivial
  | item :: rest =>
    have := decideLiteral item
    have := decideLiterals rest
    inferInstanceAs (Decidable (IsLiteral item ∧ AreLiteral rest))

/-- Whether a literal writes the entries of an object. -/
def decideEntries : (fields : List (String × Value)) → Decidable (AreEntries fields)
  | [] => .isTrue trivial
  | (name, value) :: rest =>
    have := decideLiteral value
    have := decideEntries rest
    inferInstanceAs (Decidable (IsEntryName name ∧ IsLiteral value ∧ AreEntries rest))

end

instance (value : Value) : Decidable value.IsLiteral := decideLiteral value

mutual

/-- The value with its whole numbers as integers. -/
def normal : Value → Value
  | .real x => ofBinary64 x
  | .list items => .list (normalItems items)
  | .object fields => .object (normalEntries fields)
  | .guarded inner => .guarded (normal inner)
  | .null => .null
  | .bool value => .bool value
  | .int n => .int n
  | .text content => .text content
  | .code source => .code source

/-- The items of a list with their whole numbers as integers. -/
def normalItems : List Value → List Value
  | [] => []
  | item :: rest => normal item :: normalItems rest

/-- The entries of an object with their whole numbers as integers. -/
def normalEntries : List (String × Value) → List (String × Value)
  | [] => []
  | (name, value) :: rest => (name, normal value) :: normalEntries rest

end

theorem normalItems_eq_map (items : List Value) : normalItems items = items.map normal := by
  induction items with
  | nil => rfl
  | cons item rest ih => rw [normalItems, ih, List.map_cons]

theorem printItems_eq_map (items : List Value) : printItems items = items.map print := by
  induction items with
  | nil => rw [printItems, List.map_nil]
  | cons item rest ih => rw [printItems, ih, List.map_cons]

theorem printEntries_eq_map (fields : List (String × Value)) :
    printEntries fields = fields.map fun field => printKey field.1 ++ ": " ++ field.2.print := by
  induction fields with
  | nil => rw [printEntries, List.map_nil]
  | cons field rest ih =>
    obtain ⟨name, value⟩ := field
    rw [printEntries, ih, List.map_cons]

theorem areEntries_iff (fields : List (String × Value)) :
    AreEntries fields ↔ ∀ field ∈ fields, IsEntryName field.1 ∧ field.2.IsLiteral := by
  induction fields with
  | nil => simp [AreEntries]
  | cons field rest ih =>
    obtain ⟨name, value⟩ := field
    rw [AreEntries, ih, List.forall_mem_cons, and_assoc]

theorem normalEntries_eq_map (fields : List (String × Value)) :
    normalEntries fields = Fields.mapValues normal fields := by
  induction fields with
  | nil => rfl
  | cons field rest ih => rw [normalEntries, ih]; rfl

/-- A power of ten that has more digits than are written. -/
theorem isWritable_pow {power : Nat} (long : Decimal.digitLimit ≤ power) : (Value.int (10 ^ power)).isWritable = false := by
  have longer : ¬ Decimal.digitCount (10 ^ power) ≤ Decimal.digitLimit := fun short =>
    absurd ((Decimal.digitCount_le (by decide)).mp short) (Nat.not_lt.mpr (Nat.pow_le_pow_right (by decide) long))
  rw [isWritable, Int.natAbs_pow]
  exact decide_eq_false longer

mutual

/-- Literal values can be written. -/
theorem isWritable_of_isLiteral (value : Value) (literal : value.IsLiteral) : value.isWritable = true := by
  match value with
  | .null | .bool _ | .real _ | .text _ => rfl
  | .int n =>
    rw [IsLiteral] at literal
    rw [isWritable]
    exact decide_eq_true literal
  | .list items =>
    rw [IsLiteral] at literal
    rw [isWritable]
    exact areWritable_of_areLiteral items literal
  | .object fields =>
    rw [IsLiteral] at literal
    rw [isWritable]
    exact haveWritable_of_areEntries fields literal.2
  | .guarded inner =>
    rw [IsLiteral] at literal
    rw [isWritable]
    exact isWritable_of_isLiteral inner literal

theorem areWritable_of_areLiteral (items : List Value) (literal : AreLiteral items) : areWritable items = true := by
  match items with
  | [] => rfl
  | item :: rest =>
    rw [AreLiteral] at literal
    rw [areWritable, isWritable_of_isLiteral item literal.1, areWritable_of_areLiteral rest literal.2, Bool.true_and]

theorem haveWritable_of_areEntries (fields : List (String × Value)) (literal : AreEntries fields) :
    haveWritable fields = true := by
  match fields with
  | [] => rfl
  | (name, value) :: rest =>
    rw [AreEntries] at literal
    rw [haveWritable, isWritable_of_isLiteral value literal.2.1, haveWritable_of_areEntries rest literal.2.2, Bool.true_and]

end

end Value

/-! ### The numbers of numerals -/

namespace Script

variable {numeral : Numeral}

/-- A zero in front of a numeral stands before a point or an exponent. -/
theorem Numeral.second (wellFormed : numeral.IsWellFormed) {c : Char} {rest : List Char}
    (text : numeral.text = '0' :: c :: rest) : c = '.' ∨ c = 'e' := by
  rcases wellFormed.leading with zero | nonzero
  · rw [Numeral.text, zero] at text
    have others := (List.cons.inj text).2
    exact numeral.head?_pointText c (congrArg List.head? others)
  · cases whole : numeral.whole with
    | nil => exact absurd whole wellFormed.whole.1
    | cons d digits =>
      rw [whole] at nonzero
      rw [Numeral.text, whole] at text
      exact absurd (congrArg some (List.cons.inj text).1) nonzero

/-- A numeral has digits, and perhaps a point and an exponent with its sign. -/
theorem Numeral.isDigit_or_mem (wellFormed : numeral.IsWellFormed) :
    ∀ c ∈ numeral.text, c.isDigit = true ∨ c ∈ ['.', 'e', '+', '-'] := by
  intro c member
  rcases List.mem_append.mp member with whole | rest
  · exact .inl (List.all_eq_true.mp wellFormed.whole.2 c whole)
  rcases List.mem_append.mp rest with point | exponent
  · unfold Numeral.pointText at point
    split at point
    · rename_i digits found
      rcases List.mem_cons.mp point with rfl | inside
      · exact .inr (by decide)
      · exact .inl (List.all_eq_true.mp (wellFormed.fraction digits found).2 c inside)
    · cases point
  · unfold Numeral.exponentText at exponent
    split at exponent
    · rename_i negative digits found
      rcases List.mem_cons.mp exponent with rfl | inside
      · exact .inr (by decide)
      rcases List.mem_cons.mp inside with rfl | inside
      · exact .inr (by cases negative <;> decide)
      · exact .inl (List.all_eq_true.mp (wellFormed.exponent negative digits found).2 c inside)
    · cases exponent

theorem Numeral.not_mem {c : Char} (wellFormed : numeral.IsWellFormed) (other : c.isDigit = false)
    (apart : c ∉ ['.', 'e', '+', '-']) : c ∉ numeral.text := fun member => by
  rcases Numeral.isDigit_or_mem wellFormed c member with digit | sign
  · rw [digit] at other
    cases other
  · exact apart sign

/-- The value of a numeral: an integer if it has digits only. -/
theorem numberValue_numeral (wellFormed : numeral.IsWellFormed) :
    numberValue numeral.text =
      if numeral.text.all Char.isDigit then
        if Decimal.digitLimit < numeral.text.length then .code (String.ofList numeral.text)
        else .int (Decimal.natOf numeral.text : Nat)
      else match Decimal.read? numeral.text with
        | some x => .real x
        | none => .code (String.ofList numeral.text) := by
  have kept : numeral.text.filter (· != '_') = numeral.text :=
    List.filter_eq_self.mpr fun c member => bne_iff_ne.mpr fun same =>
      Numeral.not_mem wellFormed (by decide) (by decide) (same ▸ member)
  have other : ∀ c ∈ ['x', 'X', 'o', 'O', 'b', 'B'], ∀ rest, numeral.text ≠ '0' :: c :: rest := by
    intro c member rest text
    have table : ∀ y ∈ ['x', 'X', 'o', 'O', 'b', 'B'], y ≠ '.' ∧ y ≠ 'e' := by simp
    rcases Numeral.second wellFormed text with same | same
    · exact (table c member).1 same
    · exact (table c member).2 same
  unfold numberValue
  dsimp only
  rw [kept]
  split
  · exact absurd ‹_› (other 'x' (by decide) _)
  · exact absurd ‹_› (other 'X' (by decide) _)
  · exact absurd ‹_› (other 'o' (by decide) _)
  · exact absurd ‹_› (other 'O' (by decide) _)
  · exact absurd ‹_› (other 'b' (by decide) _)
  · exact absurd ‹_› (other 'B' (by decide) _)
  · rfl

end Script

namespace Value

open Script (signedValue numberValue)

/-- The numeral of a natural number. -/
def plainNumeral (n : Nat) : Numeral := ⟨Decimal.digitsOf n, none, none⟩

theorem plainNumeral_text (n : Nat) : (plainNumeral n).text = Decimal.digitsOf n :=
  List.append_nil (Decimal.digitsOf n)

theorem plainNumeral_wellFormed (n : Nat) : (plainNumeral n).IsWellFormed := by
  refine ⟨⟨Decimal.digitsOf_ne_nil n, Decimal.isDigit_digitsOf n⟩, ?_, ?_, ?_⟩
  · rcases Nat.eq_zero_or_pos n with rfl | positive
    · exact Or.inl rfl
    · exact Or.inr (Decimal.head?_digitsOf positive)
  · intro digits none_
    cases none_
  · intro negative digits none_
    cases none_

theorem numberValue_digitsOf {n : Nat} (short : Decimal.digitCount n ≤ Decimal.digitLimit) :
    numberValue (Decimal.digitsOf n) = .int n := by
  have value := Script.numberValue_numeral (plainNumeral_wellFormed n)
  have fits : ¬ Decimal.digitLimit < (Decimal.digitsOf n).length := Nat.not_lt.mpr short
  rw [plainNumeral_text, if_pos (Decimal.isDigit_digitsOf n), if_neg fits,
    Decimal.natOf_digitsOf] at value
  exact value

/-- A number is written as a sign and a numeral, and the numeral has its magnitude. -/
def IsWritten (value : Value) : Prop :=
  ∃ (negative : Bool) (numeral : Numeral), numeral.IsWellFormed ∧
    value.print.toList = (if negative then ['-'] else []) ++ numeral.text ∧
    ∀ raw, (if negative then signedValue ['-'] (numberValue numeral.text) raw
      else numberValue numeral.text) = value.normal

theorem toList_toString (n : Int) :
    (toString n).toList = (if n < 0 then ['-'] else []) ++ Decimal.digitsOf n.natAbs := by
  cases n with
  | ofNat n => exact Nat.toList_repr
  | negSucc n =>
    rw [if_pos (Int.negSucc_lt_zero n)]
    show ("-" ++ Nat.repr (n + 1)).toList = _
    rw [String.toList_append, Nat.toList_repr]
    rfl

theorem isWritten_int {n : Int} (short : Decimal.digitCount n.natAbs ≤ Decimal.digitLimit) :
    IsWritten (.int n) := by
  refine ⟨decide (n < 0), plainNumeral n.natAbs, plainNumeral_wellFormed _, ?_, fun raw => ?_⟩
  · rw [print, toList_toString, plainNumeral_text]
    simp
  · rw [plainNumeral_text, numberValue_digitsOf short]
    by_cases below : n < 0
    · rw [decide_eq_true below, if_pos rfl]
      show Value.int (-(n.natAbs : Int)) = .int n
      rw [show -(n.natAbs : Int) = n by omega]
    · rw [decide_eq_false below, if_neg Bool.false_ne_true]
      show Value.int (n.natAbs : Int) = .int n
      rw [show (n.natAbs : Int) = n by omega]

theorem natAbs_whole {negative : Bool} {m : Nat} {e n : Int}
    (whole : (Binary64.finite negative m e).toInt? = some n) :
    n.natAbs = (Binary64.ratio m e).1 / (Binary64.ratio m e).2 := by
  rw [Binary64.toInt?] at whole
  dsimp only at whole
  split at whole
  · obtain rfl := Option.some.inj whole
    generalize (Binary64.ratio m e).1 / (Binary64.ratio m e).2 = magnitude
    split <;> omega
  · cases whole

theorem mul_two_pow_lt {m bits : Nat} (narrow : m < 2 ^ bits) (power : Nat) :
    m * 2 ^ power < 10 ^ (bits + power) :=
  calc m * 2 ^ power < 2 ^ bits * 2 ^ power :=
        Nat.mul_lt_mul_of_pos_right narrow (Nat.two_pow_pos power)
    _ = 2 ^ (bits + power) := (Nat.pow_add 2 bits power).symm
    _ ≤ 10 ^ (bits + power) := Nat.pow_le_pow_left (by decide) (bits + power)

/-- A whole number is short enough to be read as an integer. -/
theorem digitCount_whole {negative : Bool} {m : Nat} {e n : Int}
    (canonical : Binary64.IsCanonical (.finite negative m e))
    (whole : (Binary64.finite negative m e).toInt? = some n) :
    Decimal.digitCount n.natAbs ≤ Decimal.digitLimit := by
  obtain ⟨narrow, -, most, -⟩ := canonical
  obtain ⟨power, greatest, enough⟩ :
      ∃ power : Nat, Binary64.greatestExponent = power ∧ 53 + power ≤ Decimal.digitLimit := ⟨971, rfl, by decide⟩
  rw [greatest] at most
  have magnitude : n.natAbs ≤ m * 2 ^ power := by
    rw [natAbs_whole whole, Binary64.ratio]
    split
    · rw [Nat.div_one]
      refine Nat.mul_le_mul_left m ?_
      rw [Nat.pow_le_pow_iff_right (by decide)]
      omega
    · exact (Nat.div_le_self _ _).trans (Nat.le_mul_of_pos_right m (Nat.two_pow_pos _))
  refine (Decimal.digitCount_le (by decide)).mpr (lt_of_le_of_lt magnitude ?_)
  exact lt_of_lt_of_le (mul_two_pow_lt narrow power) (pow_le_pow_right₀ (by decide) enough)

/-- The numbers of literals but the infinite ones. -/
theorem isWritten_real {negative : Bool} {m : Nat} {e : Int}
    (canonical : Binary64.IsCanonical (.finite negative m e)) :
    IsWritten (.real (.finite negative m e)) := by
  cases whole : (Binary64.finite negative m e).toInt? with
  | some n =>
    obtain ⟨sign, numeral, wellFormed, text, value⟩ := isWritten_int (digitCount_whole canonical whole)
    refine ⟨sign, numeral, wellFormed, ?_, ?_⟩
    · rw [← text, print, print, printReal, whole]
    · intro raw
      rw [value raw, normal, normal, ofBinary64, whole]
  | none =>
    have positive : 0 < m := by
      refine Nat.pos_of_ne_zero ?_
      rintro rfl
      simp [Binary64.toInt?, Binary64.ratio] at whole
      split at whole <;> simp at whole
    obtain ⟨numeral, wellFormed, fractional, text, reads⟩ :=
      Decimal.exists_numeral positive (show Binary64.IsCanonical (.finite false m e) from canonical)
    have value : numberValue numeral.text = .real (.finite false m e) := by
      have notAll : numeral.text.all Char.isDigit = false := by
        obtain ⟨c, rest, parts⟩ := List.exists_cons_of_ne_nil fractional
        have sign : c = '.' ∨ c = 'e' := numeral.head?_pointText c (by rw [parts]; rfl)
        have other : c.isDigit = false := by
          rcases sign with rfl | rfl <;> rfl
        rw [Numeral.text, parts, List.all_append, List.all_cons, other, Bool.false_and, Bool.and_false]
      rw [Script.numberValue_numeral wellFormed, notAll, if_neg Bool.false_ne_true, reads]
    refine ⟨negative, numeral, wellFormed, ?_, ?_⟩
    · rw [← text negative, print, printReal, whole]
    · intro raw
      rw [value, normal, ofBinary64, whole]
      cases negative <;> rfl

/-! ### Literals are written on one line -/

theorem line_not_mem_of_isWritten {value : Value} (written : IsWritten value) : '\n' ∉ value.print.toList := by
  obtain ⟨negative, numeral, wellFormed, text, -⟩ := written
  rw [text, List.mem_append, not_or]
  exact ⟨by cases negative <;> decide, Script.Numeral.not_mem wellFormed (by decide) (by decide)⟩

theorem line_not_mem_printKey {name : String} (isEntryName : IsEntryName name) : '\n' ∉ (printKey name).toList := by
  unfold printKey
  split
  · exact isEntryName.2 ‹_›
  · rw [String.toList_ofList]
    exact Text.line_not_mem_quote _

theorem line_not_mem_joined {first last : String} {texts : List String} (opens : '\n' ∉ first.toList)
    (each : ∀ text ∈ texts, '\n' ∉ text.toList) (closes : '\n' ∉ last.toList) :
    '\n' ∉ (first ++ ", ".intercalate texts ++ last).toList := by
  rw [String.toList_append, String.toList_append, List.mem_append, List.mem_append, String.toList_intercalate]
  refine not_or.mpr ⟨not_or.mpr ⟨opens, fun member => ?_⟩, closes⟩
  rcases Text.mem_of_mem_intercalate member with separates | ⟨piece, among, inside⟩
  · exact absurd separates (by decide)
  · obtain ⟨text, known, rfl⟩ := List.mem_map.mp among
    exact each text known inside

mutual

/-- A literal value is written on one line. -/
theorem line_not_mem_print (value : Value) (literal : value.IsLiteral) : '\n' ∉ value.print.toList := by
  match value with
  | .null => decide
  | .bool b => cases b <;> decide
  | .int n => exact line_not_mem_of_isWritten (isWritten_int (by rwa [IsLiteral] at literal))
  | .real .nan => exact absurd rfl literal.1
  | .real (.infinite negative) => cases negative <;> decide
  | .real (.finite negative m e) => exact line_not_mem_of_isWritten (isWritten_real literal.2)
  | .text content =>
    rw [print, String.toList_ofList]
    exact Text.line_not_mem_quote _
  | .list items =>
    rw [IsLiteral] at literal
    exact line_not_mem_joined (by decide) (line_not_mem_printItems items literal) (by decide)
  | .object fields =>
    rw [IsLiteral] at literal
    rw [print]
    split
    · decide
    · exact line_not_mem_joined (by decide) (line_not_mem_printEntries fields literal.2) (by decide)
  | .guarded inner =>
    rw [IsLiteral] at literal
    have inside := line_not_mem_print inner literal
    rw [print, String.toList_append, List.mem_append, not_or]
    exact ⟨by decide, inside⟩

theorem line_not_mem_printItems (items : List Value) (literal : AreLiteral items) :
    ∀ text ∈ printItems items, '\n' ∉ text.toList := by
  match items with
  | [] => exact List.forall_mem_nil _
  | item :: rest =>
    rw [AreLiteral] at literal
    exact List.forall_mem_cons.mpr ⟨line_not_mem_print item literal.1, line_not_mem_printItems rest literal.2⟩

theorem line_not_mem_printEntries (fields : List (String × Value)) (literal : AreEntries fields) :
    ∀ text ∈ printEntries fields, '\n' ∉ text.toList := by
  match fields with
  | [] => exact List.forall_mem_nil _
  | (name, value) :: rest =>
    rw [AreEntries] at literal
    refine List.forall_mem_cons.mpr ⟨?_, line_not_mem_printEntries rest literal.2.2⟩
    simp [line_not_mem_printKey literal.1, line_not_mem_print value literal.2.1]

end

end Value

end AnimationCode
