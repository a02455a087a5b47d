/-
**Escapes that stand for no character.**

A quoted form stands for a text unless one of its escapes writes the number of no character: one past the last, which takes
digits between braces, or a surrogate, for which four digits do.

* `Text.HasVoidEscape`: such an escape stands in a text;
* `Text.hasVoidEscape_of_unquote?`: a quoted form that stands for no text has one;
* `Text.HasVoidEscape.of_framed`: one in a text between others that share no character with it is in the text.
-/

import AnimationCode.Text.Quoted
import Mathlib.Algebra.Group.Nat.Defs
import Mathlib.Data.List.Infix

namespace AnimationCode

namespace Text

/-- The escapes of a number: all its digits between braces, or four of them. -/
inductive IsEscapeOf (digits : List Char) : List Char → Prop
  | braced : IsEscapeOf digits ('\\' :: 'u' :: '\x7b' :: digits ++ ['\x7d'])
  | fixed (four : digits.length = 4) : IsEscapeOf digits ('\\' :: 'u' :: digits)

/-- An escape that writes the number of no character stands in a text. -/
def HasVoidEscape (cs : List Char) : Prop :=
  ∃ digits escape, digits.all isHexDigit = true ∧ ¬ (numberOf 16 digits).isValidChar ∧ IsEscapeOf digits escape ∧
    escape <:+: cs

theorem HasVoidEscape.mono {cs more : List Char} (void : HasVoidEscape cs) (within : cs <:+: more) : HasVoidEscape more := by
  obtain ⟨digits, escape, hex, noCharacter, isEscape, inside⟩ := void
  exact ⟨digits, escape, hex, noCharacter, isEscape, inside.trans within⟩

/-! ### What some digits can reach -/

theorem hexValue?_lt {c : Char} {value : Nat} (read : hexValue? c = some value) : value < 16 := by
  unfold hexValue? at read
  split_ifs at read with digit small capital
  all_goals
    obtain rfl := Option.some.inj read
  · simp only [Char.isDigit, Bool.and_eq_true, decide_eq_true_eq, ge_iff_le, UInt32.le_iff_toNat_le] at digit
    have : c.toNat ≤ 57 := digit.2
    show c.toNat - 48 < 16
    omega
  · simp only [Bool.and_eq_true, decide_eq_true_eq, Char.le_def, UInt32.le_iff_toNat_le] at small
    have : c.toNat ≤ 102 := small.2
    show c.toNat - 97 + 10 < 16
    omega
  · simp only [Bool.and_eq_true, decide_eq_true_eq, Char.le_def, UInt32.le_iff_toNat_le] at capital
    have : c.toNat ≤ 70 := capital.2
    show c.toNat - 65 + 10 < 16
    omega

theorem hexValue?_getD_lt (c : Char) : (hexValue? c).getD 0 < 16 := by
  cases read : hexValue? c with
  | none => decide
  | some value => exact hexValue?_lt read

/-- Digits write less than their base allows. -/
theorem numberOf_lt (digits : List Char) : numberOf 16 digits < 16 ^ digits.length := by
  induction digits using List.reverseRecOn with
  | nil => decide
  | append_singleton digits c ih =>
    have last := hexValue?_getD_lt c
    rw [List.length_append, List.length_singleton, Nat.pow_succ, numberOf, List.foldl_append]
    show 16 * numberOf 16 digits + (hexValue? c).getD 0 < _
    omega

/-! ### One escape, and a run of characters -/

/-- The digits of a number between braces, and what follows it. -/
def braced? (cs : List Char) : Option (List Char × List Char) :=
  match cs with
  | '\x7b' :: r =>
    let digits := r.takeWhile isHexDigit
    match r.dropWhile isHexDigit with
    | '\x7d' :: rest => if digits = [] then none else some (digits, rest)
    | _ => none
  | _ => none

/-- So many digits, and what follows them. -/
def fixed? (length : Nat) (cs : List Char) : Option (List Char × List Char) :=
  let digits := cs.take length
  if digits.length = length ∧ digits.all isHexDigit then some (digits, cs.drop length) else none

theorem decodeEscape_eq (c : Char) (cs : List Char) :
    decodeEscape c cs =
      match if c = 'u' then (braced? cs).orElse fun _ => fixed? 4 cs else if c = 'x' then fixed? 2 cs else none with
      | some (digits, rest) => Escape.ofCodePoint (numberOf 16 digits) rest
      | none => .text (simpleEscape c) cs := rfl

theorem braced?_eq_some {cs digits rest : List Char} (read : braced? cs = some (digits, rest)) :
    digits.all isHexDigit = true ∧ cs = '\x7b' :: digits ++ '\x7d' :: rest := by
  unfold braced? at read
  split at read
  · rename_i r
    dsimp only at read
    split at read
    · rename_i after left
      split_ifs at read with empty
      obtain ⟨rfl, rfl⟩ := Prod.mk.inj (Option.some.inj read)
      refine ⟨List.all_takeWhile, ?_⟩
      rw [List.cons_append, ← left, List.takeWhile_append_dropWhile]
    · cases read
  · cases read

theorem fixed?_eq_some {length : Nat} {cs digits rest : List Char} (read : fixed? length cs = some (digits, rest)) :
    digits.length = length ∧ digits.all isHexDigit = true ∧ cs = digits ++ rest := by
  unfold fixed? at read
  dsimp only at read
  split_ifs at read with enough
  obtain ⟨rfl, rfl⟩ := Prod.mk.inj (Option.some.inj read)
  exact ⟨enough.1, enough.2, (List.take_append_drop _ _).symm⟩

/-- A number after a backslash is one of an escape, or one of two digits. -/
theorem number_cases {c : Char} {cs digits rest : List Char}
    (read : (if c = 'u' then (braced? cs).orElse fun _ => fixed? 4 cs else if c = 'x' then fixed? 2 cs else none) =
      some (digits, rest)) :
    (digits.all isHexDigit = true ∧ ∃ escape, IsEscapeOf digits escape ∧ '\\' :: c :: cs = escape ++ rest) ∨
      (digits.length = 2 ∧ cs = digits ++ rest) := by
  split_ifs at read with unicode byte
  · subst unicode
    cases here : braced? cs with
    | some found =>
      rw [here] at read
      obtain rfl := Option.some.inj read
      obtain ⟨hex, rfl⟩ := braced?_eq_some here
      exact .inl ⟨hex, _, .braced, by simp⟩
    | none =>
      rw [here] at read
      obtain ⟨four, hex, rfl⟩ := fixed?_eq_some read
      exact .inl ⟨hex, _, .fixed four, rfl⟩
  · obtain ⟨two, -, same⟩ := fixed?_eq_some read
    exact .inr ⟨two, same⟩

/-- What follows an escape is an end of the text. -/
theorem decodeEscape_suffix {c : Char} {cs decoded rest : List Char} (read : decodeEscape c cs = .text decoded rest) :
    rest <:+ '\\' :: c :: cs := by
  rw [decodeEscape_eq] at read
  split at read
  · rename_i digits after number
    unfold Escape.ofCodePoint at read
    split_ifs at read
    obtain ⟨-, rfl⟩ := Escape.text.inj read
    rcases number_cases number with ⟨-, escape, -, same⟩ | ⟨-, rfl⟩
    · exact same ▸ List.suffix_append _ _
    · exact ⟨'\\' :: c :: digits, rfl⟩
  · exact (Escape.text.inj read).2 ▸ ⟨['\\', c], rfl⟩

/-- An escape that stands for no character has more than two digits. -/
theorem hasVoidEscape_of_decodeEscape {c : Char} {cs : List Char} (read : decodeEscape c cs = .void) :
    HasVoidEscape ('\\' :: c :: cs) := by
  rw [decodeEscape_eq] at read
  split at read
  · rename_i digits after number
    unfold Escape.ofCodePoint at read
    split_ifs at read with character
    rcases number_cases number with ⟨hex, escape, isEscape, same⟩ | ⟨two, -⟩
    · exact ⟨digits, escape, hex, character, isEscape, same ▸ (List.prefix_append _ _).isInfix⟩
    · have below := numberOf_lt digits
      rw [two] at below
      exact absurd (.inl (below.trans (by decide))) character
  · cases read

theorem hasVoidEscape_of_decodeFrom {steps : Nat} {cs : List Char} (none_ : decodeFrom steps cs = none) : HasVoidEscape cs := by
  induction steps generalizing cs with
  | zero => cases none_
  | succ steps ih =>
    cases cs with
    | nil => cases none_
    | cons c rest =>
      unfold decodeFrom at none_
      split_ifs at none_ with slash
      · subst slash
        cases rest with
        | nil => cases none_
        | cons e rest =>
          dsimp only at none_
          cases read : decodeEscape e rest with
          | void => exact hasVoidEscape_of_decodeEscape read
          | text decoded after =>
            rw [read] at none_
            exact (ih (Option.map_eq_none_iff.mp none_)).mono (decodeEscape_suffix read).isInfix
      · exact (ih (Option.map_eq_none_iff.mp none_)).mono (List.suffix_cons _ _).isInfix

/-- A quoted form that stands for no text has an escape that stands for no character. -/
theorem hasVoidEscape_of_unquote? {cs : List Char} (none_ : unquote? cs = none) : HasVoidEscape cs :=
  (hasVoidEscape_of_decodeFrom none_).mono ((List.dropLast_prefix _).isInfix.trans (List.drop_suffix _ _).isInfix)

/-! ### Texts between others -/

theorem isInfix_of_append {part before cs : List Char} (some_ : part ≠ []) (apart : ∀ c ∈ before, c ∉ part)
    (within : part <:+: before ++ cs) : part <:+: cs := by
  induction before with
  | nil => exact within
  | cons c before ih =>
    rcases List.infix_cons_iff.mp within with first | later
    · obtain ⟨d, others, rfl⟩ := List.exists_cons_of_ne_nil some_
      obtain rfl := (List.cons_prefix_cons.mp first).1
      exact absurd List.mem_cons_self (apart d List.mem_cons_self)
    · exact ih (fun c member => apart c (List.mem_cons_of_mem _ member)) later

theorem isInfix_of_framed {part before cs after : List Char} (some_ : part ≠ []) (apart : ∀ c ∈ before ++ after, c ∉ part)
    (within : part <:+: before ++ cs ++ after) : part <:+: cs := by
  have later : part <:+: cs ++ after := by
    rw [List.append_assoc] at within
    exact isInfix_of_append some_ (fun c member => apart c (List.mem_append_left _ member)) within
  rw [← List.reverse_infix] at later ⊢
  rw [List.reverse_append] at later
  refine isInfix_of_append (by simpa using some_) (fun c member => ?_) later
  rw [List.mem_reverse] at member ⊢
  exact apart c (List.mem_append_right _ member)

/-- A character that no escape of a number has. -/
def isForeign (c : Char) : Bool := !(['\\', 'u', '\x7b', '\x7d'].contains c) && !isHexDigit c

/-- An escape that stands for no character, in a text between others, stands in the text if they have no character of one. -/
theorem HasVoidEscape.of_framed {before cs after : List Char} (foreign : (before ++ after).all isForeign = true)
    (void : HasVoidEscape (before ++ cs ++ after)) : HasVoidEscape cs := by
  obtain ⟨digits, escape, hex, noCharacter, isEscape, within⟩ := void
  have native : escape ≠ [] ∧ ∀ c ∈ escape, isForeign c = false := by
    have each : ∀ c ∈ digits, isForeign c = false := fun c member => by
      rw [isForeign, List.all_eq_true.mp hex c member, Bool.not_true, Bool.and_false]
    have slash : isForeign '\\' = false := rfl
    have letter : isForeign 'u' = false := rfl
    have braces : isForeign '\x7b' = false ∧ isForeign '\x7d' = false := ⟨rfl, rfl⟩
    cases isEscape with
    | braced =>
      refine ⟨List.cons_ne_nil _ _, List.forall_mem_append.mpr ⟨?_, List.forall_mem_singleton.mpr braces.2⟩⟩
      exact List.forall_mem_cons.mpr ⟨slash, List.forall_mem_cons.mpr ⟨letter, List.forall_mem_cons.mpr ⟨braces.1, each⟩⟩⟩
    | fixed => exact ⟨List.cons_ne_nil _ _, List.forall_mem_cons.mpr ⟨slash, List.forall_mem_cons.mpr ⟨letter, each⟩⟩⟩
  refine ⟨digits, escape, hex, noCharacter, isEscape, isInfix_of_framed native.1 (fun c member among => ?_) within⟩
  have apart := List.all_eq_true.mp foreign c member
  rw [native.2 c among] at apart
  cases apart

end Text

end AnimationCode
