/-
**A quoted text is one token.**

Escapes are pairs of a backslash and a sign, and every other character stands for itself. So the backslashes at the end of
quoted characters are even in number: a quote behind them closes the text, and the quotes of the text stand behind one
backslash more.

* `Text.quote_eq_replaceChar`: a text is quoted by escaping one kind of character after another;
* `Text.even_endSlashes_quoted`, `Text.odd_endSlashes_of_quoted`: the backslashes before a quote;
* `Text.isDelimited_quoted`: what stands between the quotes;
* `Script.isString_quote`: a quoted text is one string that stands for the text.
-/

import AnimationCode.Proofs.Text.Quoted
import Mathlib.Algebra.Ring.Parity
import Mathlib.Data.List.Induction

namespace AnimationCode

namespace Text

variable {c : Char} {before after : List Char}

/-- The number of backslashes that a text ends in. -/
def endSlashes (cs : List Char) : Nat := (cs.reverse.takeWhile (· == '\\')).length

/-- What stands between the quotes of one token: a line in which each quote is escaped, behind an odd number of backslashes.
It ends in an even number of them, so that the closing quote is not escaped. -/
structure IsDelimited (body : List Char) : Prop where
  noFeed : '\n' ∉ body
  noReturn : '\r' ∉ body
  escaped : ∀ before after, body = before ++ '\'' :: after → Odd (endSlashes before)
  closed : Even (endSlashes body)

/-- **A text is quoted by escaping one kind of character after another**, the backslashes first. -/
theorem quote_eq_replaceChar (cs : List Char) :
    quote cs = '\'' :: replaceChar '\r' ['\\', 'r'] (replaceChar '\n' ['\\', 'n']
      (replaceChar '\'' ['\\', '\''] (replaceChar '\\' ['\\', '\\'] cs))) ++ ['\''] := by
  have each (c : Char) : quoteCharacter c = replaceChar '\r' ['\\', 'r'] (replaceChar '\n' ['\\', 'n']
      (replaceChar '\'' ['\\', '\''] (replaceChar '\\' ['\\', '\\'] [c]))) := by
    by_cases special : c ∈ ['\\', '\'', '\n', '\r']
    · simp only [List.mem_cons, List.not_mem_nil, or_false] at special
      rcases special with rfl | rfl | rfl | rfl <;> rfl
    · rw [quoteCharacter_plain special]
      simp only [List.mem_cons, List.not_mem_nil, or_false, not_or] at special
      obtain ⟨slash, mark, feed, carriage⟩ := special
      simp [replaceChar, slash, mark, feed, carriage]
  simp only [quote, funext each, replaceChar, List.flatMap_assoc, List.flatMap_singleton]

/-! ### The backslashes before a quote -/

theorem endSlashes_concat (cs : List Char) (c : Char) :
    endSlashes (cs ++ [c]) = if c = '\\' then endSlashes cs + 1 else 0 := by
  by_cases slash : c = '\\' <;> simp [endSlashes, slash]

/-- A quoted character ends the backslashes before it, or goes on with two of them. -/
theorem even_endSlashes_quoteCharacter (even : Even (endSlashes before)) (c : Char) :
    Even (endSlashes (before ++ quoteCharacter c)) := by
  obtain ⟨sign, -, written⟩ | ⟨special, written⟩ := quoteCharacter_cases c
  · have pair : before ++ ['\\', sign] = before ++ ['\\'] ++ [sign] := by
      rw [List.append_assoc]
      rfl
    rw [written, pair, endSlashes_concat, endSlashes_concat, if_pos rfl]
    split
    · exact even.add_one.add_one
    · exact Even.zero
  · rw [written, endSlashes_concat, if_neg (List.ne_of_not_mem_cons special)]
    exact Even.zero

theorem even_endSlashes_quoted (cs : List Char) : Even (endSlashes (cs.flatMap quoteCharacter)) := by
  induction cs using List.reverseRecOn with
  | nil => exact Even.zero
  | append_singleton cs c ih =>
    rw [List.flatMap_append, List.flatMap_singleton]
    exact even_endSlashes_quoteCharacter ih c

/-- In a quoted character a quote stands behind a backslash only. -/
theorem eq_of_quoteCharacter_eq (same : quoteCharacter c = before ++ '\'' :: after) : before = ['\\'] := by
  obtain ⟨sign, -, written⟩ | ⟨special, written⟩ := quoteCharacter_cases c
  · rw [written] at same
    match before with
    | [] => exact absurd (List.cons.inj same).1 (by decide)
    | [slash] => rw [(List.cons.inj same).1]
    | _ :: _ :: _ => simp at same
  · rw [written] at same
    obtain ⟨-, mark⟩ | ⟨-, nothing⟩ := List.singleton_eq_append_iff.mp same
    · obtain rfl := (List.cons.inj mark).1
      exact absurd (by decide) special
    · cases nothing

/-- A quote of a quoted text stands behind an odd number of backslashes. -/
theorem odd_endSlashes_of_quoted {cs : List Char} (same : cs.flatMap quoteCharacter = before ++ '\'' :: after) :
    Odd (endSlashes before) := by
  induction cs using List.reverseRecOn generalizing after with
  | nil => simp at same
  | append_singleton cs c ih =>
    rw [List.flatMap_append, List.flatMap_singleton] at same
    rcases List.append_eq_append_iff.mp same with ⟨inside, rfl, written⟩ | ⟨left, split, written⟩
    · -- the quote is in the last character, behind its backslash
      obtain rfl := eq_of_quoteCharacter_eq written
      rw [endSlashes_concat, if_pos rfl]
      exact (even_endSlashes_quoted cs).add_one
    · cases left with
      | nil =>
        have bare : quoteCharacter c = [] ++ '\'' :: after := written.symm
        exact absurd (eq_of_quoteCharacter_eq bare) (by decide)
      | cons d left =>
        obtain ⟨rfl, -⟩ := List.cons.inj written
        exact ih split

/-! ### The token -/

theorem isDelimited_quoted (cs : List Char) : IsDelimited (cs.flatMap quoteCharacter) where
  noFeed := break_not_mem_quoted (by decide) cs
  noReturn := break_not_mem_quoted (by decide) cs
  escaped _ _ same := odd_endSlashes_of_quoted same
  closed := even_endSlashes_quoted cs

end Text

/-- A string of a script that stands for a text: one token between single quotes. -/
structure Script.IsString (token text : List Char) : Prop where
  stands : Text.unquote? token = some text
  delimited : ∃ body, token = '\'' :: body ++ ['\''] ∧ Text.IsDelimited body

/-- **A quoted text is one string that stands for the text**, whatever the text is. -/
theorem Script.isString_quote (text : List Char) : IsString (Text.quote text) text where
  stands := Text.unquote?_quote text
  delimited := ⟨_, rfl, Text.isDelimited_quoted text⟩

end AnimationCode
