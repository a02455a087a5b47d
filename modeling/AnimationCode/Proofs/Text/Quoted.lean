/-
**Texts between quotes.**

A text is escaped so that it can stand between quotes. Between double quotes its ampersands and double quotes are written as
references, and no other reference comes about, whatever the text looks like.

* `Text.unquote?_quote`: a quoted text stands for the text that was quoted;
* `Script.stringLength?_quote`: a quoted text is one string, whatever follows it;
* `Text.unescape_escapeAttribute`: an escaped text stands for the text that was escaped;
* `Text.quote_not_mem_escapeAttribute`: it has no double quote.
-/

import AnimationCode.Script.Lexeme
import AnimationCode.Text.Quoted
import AnimationCode.Text.Reference

namespace AnimationCode

namespace Text

/-- A character that is written as it stands. -/
theorem quoteCharacter_plain {c : Char} (plain : c ∉ ['\\', '\'', '\n', '\r']) :
    quoteCharacter c = [c] := by
  simp only [List.mem_cons, List.not_mem_nil, or_false, not_or] at plain
  obtain ⟨slash, mark, feed, carriage⟩ := plain
  rw [quoteCharacter, if_neg slash, if_neg mark, if_neg feed, if_neg carriage]

/-- One quoted character is read back, whatever follows. -/
theorem decodeFrom_quoteCharacter (steps : Nat) (c : Char) (rest : List Char) :
    decodeFrom (steps + 1) (quoteCharacter c ++ rest) = (decodeFrom steps rest).map (c :: ·) := by
  by_cases special : c ∈ ['\\', '\'', '\n', '\r']
  · simp only [List.mem_cons, List.not_mem_nil, or_false] at special
    rcases special with rfl | rfl | rfl | rfl <;> rfl
  · rw [quoteCharacter_plain special]
    simp only [List.mem_cons, List.not_mem_nil, or_false, not_or] at special
    simp only [List.singleton_append, decodeFrom, if_neg special.1]

/-- A character is written as an escape or, if it needs none, as it stands. -/
theorem quoteCharacter_cases (c : Char) : (∃ sign ∈ ['\\', '\'', 'n', 'r'], quoteCharacter c = ['\\', sign]) ∨
    c ∉ ['\\', '\'', '\n', '\r'] ∧ quoteCharacter c = [c] := by
  by_cases special : c ∈ ['\\', '\'', '\n', '\r']
  · simp only [List.mem_cons, List.not_mem_nil, or_false] at special
    left
    rcases special with rfl | rfl | rfl | rfl <;> exact ⟨_, by decide, rfl⟩
  · exact .inr ⟨special, quoteCharacter_plain special⟩

theorem quoteCharacter_length_pos (c : Char) : 0 < (quoteCharacter c).length := by
  obtain ⟨sign, -, written⟩ | ⟨-, written⟩ := quoteCharacter_cases c
  · exact written ▸ Nat.two_pos
  · exact written ▸ Nat.one_pos

/-- No line ends in a quoted text. -/
theorem break_not_mem_quoted {sign : Char} (breaks : sign ∈ ['\n', '\r']) (cs : List Char) :
    sign ∉ cs.flatMap quoteCharacter := by
  rw [List.mem_flatMap]
  rintro ⟨c, -, inside⟩
  obtain ⟨escaped, known, written⟩ | ⟨special, written⟩ := quoteCharacter_cases c
  · rw [List.mem_cons, List.mem_singleton] at breaks
    rw [written, List.mem_cons, List.mem_singleton] at inside
    rcases inside with rfl | rfl
    · exact absurd breaks (by decide)
    · rcases breaks with rfl | rfl <;> exact absurd known (by decide)
  · rw [written, List.mem_singleton] at inside
    exact special (List.mem_cons_of_mem _ (List.mem_cons_of_mem _ (inside ▸ breaks)))

/-- A quoted text is on one line. -/
theorem line_not_mem_quote (cs : List Char) : '\n' ∉ quote cs := by
  rw [quote, List.mem_append, List.mem_cons, List.mem_singleton]
  rintro ((mark | member) | mark)
  · exact absurd mark (by decide)
  · exact break_not_mem_quoted (by decide) cs member
  · exact absurd mark (by decide)

/-- What is quoted is read back. -/
theorem decodeFrom_quoted {steps : Nat} {cs : List Char}
    (enough : (cs.flatMap quoteCharacter).length ≤ steps) :
    decodeFrom steps (cs.flatMap quoteCharacter) = some cs := by
  induction cs generalizing steps with
  | nil =>
    cases steps with
    | zero => rfl
    | succ steps => rfl
  | cons c rest ih =>
    rw [List.flatMap_cons, List.length_append] at enough
    have positive := quoteCharacter_length_pos c
    obtain ⟨fewer, rfl⟩ := Nat.exists_eq_add_of_lt (Nat.lt_of_lt_of_le positive (by omega :
      (quoteCharacter c).length ≤ steps))
    have within : (rest.flatMap quoteCharacter).length ≤ 0 + fewer := by omega
    rw [List.flatMap_cons, decodeFrom_quoteCharacter, ih within]
    rfl

/-- A quoted text stands for the text that was quoted. -/
theorem unquote?_quote (cs : List Char) : unquote? (quote cs) = some cs := by
  have body : inner (quote cs) = cs.flatMap quoteCharacter := by
    simp [inner, quote]
  rw [unquote?, body]
  exact decodeFrom_quoted (Nat.le_refl _)

end Text

namespace Script

open Text (quote quoteCharacter)

/-- One quoted character is passed in one step. -/
theorem stringRestLength?_quoteCharacter (steps : Nat) (c : Char) (rest : List Char) :
    stringRestLength? '\'' (steps + 1) (quoteCharacter c ++ rest) =
      (stringRestLength? '\'' steps rest).map (· + (quoteCharacter c).length) := by
  by_cases special : c ∈ ['\\', '\'', '\n', '\r']
  · simp only [List.mem_cons, List.not_mem_nil, or_false] at special
    rcases special with rfl | rfl | rfl | rfl <;>
      exact congrArg (Option.map · _) (funext fun _ => Nat.add_assoc _ 1 1)
  · rw [Text.quoteCharacter_plain special]
    simp only [List.mem_cons, List.not_mem_nil, or_false, not_or] at special
    obtain ⟨slash, mark, feed, carriage⟩ := special
    simp only [List.singleton_append, stringRestLength?, if_neg mark, if_neg slash,
      if_neg (not_or.mpr ⟨feed, carriage⟩), List.length_singleton]

theorem stringRestLength?_quoted {steps : Nat} {cs : List Char} (after : List Char)
    (enough : (cs.flatMap quoteCharacter).length < steps) :
    stringRestLength? '\'' steps (cs.flatMap quoteCharacter ++ '\'' :: after) =
      some ((cs.flatMap quoteCharacter).length + 1) := by
  induction cs generalizing steps with
  | nil =>
    obtain ⟨fewer, rfl⟩ := Nat.exists_eq_add_of_lt enough
    rfl
  | cons c rest ih =>
    rw [List.flatMap_cons, List.length_append] at enough
    have positive := Text.quoteCharacter_length_pos c
    obtain ⟨fewer, rfl⟩ := Nat.exists_eq_add_of_lt (Nat.zero_lt_of_lt enough)
    have within : (rest.flatMap quoteCharacter).length < 0 + fewer := by omega
    rw [List.flatMap_cons, List.append_assoc, stringRestLength?_quoteCharacter, ih within,
      Option.map_some, List.length_append]
    exact congrArg some (by omega)

/-- A quoted text is one string, whatever follows it. -/
theorem stringLength?_quote (cs after : List Char) :
    stringLength? (quote cs ++ after) = some (quote cs).length := by
  have enough : (cs.flatMap quoteCharacter).length <
      (cs.flatMap quoteCharacter ++ '\'' :: after).length := by
    rw [List.length_append, List.length_cons]
    omega
  have text : quote cs ++ after = '\'' :: (cs.flatMap quoteCharacter ++ '\'' :: after) := by
    simp [quote]
  rw [text, stringLength?, if_pos (Or.inr rfl), stringRestLength?_quoted after enough]
  simp [quote]

end Script

namespace Text

/-- A character that is written as it stands. -/
theorem escapeCharacter_plain {c : Char} (noAmpersand : c ≠ '&') (noQuote : c ≠ '"') : escapeCharacter c = [c] := by
  rw [escapeCharacter, if_neg noAmpersand, if_neg noQuote]

theorem escapeCharacter_length_pos (c : Char) : 0 < (escapeCharacter c).length := by
  unfold escapeCharacter
  split
  · decide
  · split
    · decide
    · exact Nat.one_pos

theorem quote_not_mem_escapeCharacter (c : Char) : '"' ∉ escapeCharacter c := by
  unfold escapeCharacter
  split
  · decide
  · split
    · decide
    · rename_i noQuote
      exact fun member => noQuote (List.mem_singleton.mp member).symm

/-- An escaped text has no double quote. -/
theorem quote_not_mem_escapeAttribute (cs : List Char) : '"' ∉ escapeAttribute cs := by
  intro member
  obtain ⟨c, -, inside⟩ := List.mem_flatMap.mp member
  exact quote_not_mem_escapeCharacter c inside

/-- A reference ends at its semicolon, whatever follows. -/
theorem reference?_ampersand (rest : List Char) : reference? ("amp;".toList ++ rest) = some (['&'], rest) := rfl

theorem reference?_quote (rest : List Char) : reference? ("quot;".toList ++ rest) = some (['"'], rest) := rfl

/-- One escaped character is read back, whatever follows. -/
theorem unescapeFrom_escapeCharacter (steps : Nat) (c : Char) (rest : List Char) :
    unescapeFrom (steps + 1) (escapeCharacter c ++ rest) = c :: unescapeFrom steps rest := by
  by_cases ampersand : c = '&'
  · subst ampersand
    have written : escapeCharacter '&' ++ rest = '&' :: ("amp;".toList ++ rest) := rfl
    rw [written, unescapeFrom, if_pos rfl, reference?_ampersand]
    rfl
  · by_cases quote : c = '"'
    · subst quote
      have written : escapeCharacter '"' ++ rest = '&' :: ("quot;".toList ++ rest) := rfl
      rw [written, unescapeFrom, if_pos rfl, reference?_quote]
      rfl
    · rw [escapeCharacter_plain ampersand quote, List.singleton_append, unescapeFrom, if_neg ampersand]

/-- What is escaped is read back. -/
theorem unescapeFrom_escaped {steps : Nat} {cs : List Char} (enough : (escapeAttribute cs).length ≤ steps) :
    unescapeFrom steps (escapeAttribute cs) = cs := by
  unfold escapeAttribute at enough ⊢
  induction cs generalizing steps with
  | nil => cases steps <;> rfl
  | cons c rest ih =>
    rw [List.flatMap_cons, List.length_append] at enough
    have positive := escapeCharacter_length_pos c
    obtain ⟨fewer, rfl⟩ := Nat.exists_eq_add_of_le' (show 1 ≤ steps by omega)
    rw [List.flatMap_cons, unescapeFrom_escapeCharacter, ih (by omega)]

/-- An escaped text stands for the text that was escaped. -/
theorem unescape_escapeAttribute (cs : List Char) : unescape (escapeAttribute cs) = cs :=
  unescapeFrom_escaped (Nat.le_refl _)

end Text

end AnimationCode
