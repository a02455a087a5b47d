/-
**Places found by bisection are places counted.**

The starts of the lines of a text are those of its part up to an offset, and then those after it. Bisection finds where the
two meet, so it finds the number of the lines up to the offset, and the last of them begins where the line is counted from.

From one offset to the next the place goes on by a column, or behind a line feed to the beginning of the next line. So places
are in the order of their offsets.

* `Location.ofOffset`: the place of an offset that may lie past the end of the text, by counting;
* `LineIndex.bisect_eq`: bisection finds the number of starts at or before an offset;
* `LineIndex.location_ofText`: the index of a text gives the place that is counted;
* `Text.beginsLine_lineStart`: where the line of an offset begins;
* `Location.strictMono_ofOffset`: later offsets have later places;
* `LineIndex.counts_location`: the places that the index of a text gives.
-/

import Mathlib.Data.List.Induction
import Mathlib.Data.Prod.Lex
import Mathlib.Order.Monotone.Basic
import AnimationCode.Text.Position

namespace AnimationCode

/-- The place of an offset: one more than the line feeds before it, and one more than its distance from the beginning of its
line. The last line goes on past the end of the text. -/
def Location.ofOffset (text : List Char) (offset : Nat) : Location :=
  let before := text.take offset
  ⟨Text.lineFeeds before + 1, offset - (before.length - (Text.lastLine before).length) + 1⟩

theorem Text.length_lastLine_le (text : List Char) : (lastLine text).length ≤ text.length := by
  have shorter := (List.takeWhile_prefix (l := text.reverse) (· != '\n')).length_le
  rwa [List.length_reverse, ← List.length_reverse] at shorter

theorem Text.lastLine_concat (text : List Char) (c : Char) :
    lastLine (text ++ [c]) = if c = '\n' then [] else lastLine text ++ [c] := by
  by_cases feed : c = '\n' <;> simp [lastLine, feed]

/-- Inside a text the column counts the characters of the line. -/
theorem Location.ofOffset_eq_counted {text : List Char} {offset : Nat} (inside : offset ≤ text.length) :
    ofOffset text offset = counted text offset := by
  have all := Text.length_lastLine_le (text.take offset)
  rw [List.length_take_of_le inside] at all
  unfold ofOffset counted
  dsimp only
  rw [List.length_take_of_le inside, Nat.sub_sub_self all]

namespace LineIndex

/-! ### The starts of lines -/

theorem bounds_of_mem_startsFrom {text : List Char} {base start : Nat} (member : start ∈ startsFrom base text) :
    base < start ∧ start ≤ base + text.length := by
  induction text generalizing base with
  | nil => cases member
  | cons c rest ih =>
    rw [startsFrom] at member
    rw [List.length_cons]
    split at member
    · rcases List.mem_cons.mp member with rfl | later
      · omega
      · have bounds := ih later
        omega
    · have bounds := ih member
      omega

theorem length_startsFrom (text : List Char) (base : Nat) : (startsFrom base text).length = Text.lineFeeds text := by
  induction text generalizing base with
  | nil => rfl
  | cons c rest ih =>
    rw [startsFrom, Text.lineFeeds, List.count_cons]
    by_cases feed : c = '\n'
    · rw [if_pos feed, List.length_cons, ih, Text.lineFeeds, if_pos (beq_iff_eq.mpr feed)]
    · rw [if_neg feed, ih, Text.lineFeeds, if_neg (beq_iff_eq.not.mpr feed), Nat.add_zero]

theorem startsFrom_append (text more : List Char) (base : Nat) :
    startsFrom base (text ++ more) = startsFrom base text ++ startsFrom (base + text.length) more := by
  induction text generalizing base with
  | nil => rfl
  | cons c rest ih =>
    have same : base + (c :: rest).length = base + 1 + rest.length := by
      rw [List.length_cons]
      omega
    rw [List.cons_append, startsFrom, startsFrom, ih, same]
    split <;> rfl

/-- The last line of a text begins at its last start. -/
theorem getLast?_starts (text : List Char) :
    (0 :: startsFrom 0 text).getLast? = some (text.length - (Text.lastLine text).length) := by
  induction text using List.reverseRecOn with
  | nil => rfl
  | append_singleton text c ih =>
    rw [startsFrom_append, ← List.cons_append, List.getLast?_append, ih, Nat.zero_add, Text.lastLine_concat, startsFrom,
      startsFrom, List.length_append, List.length_singleton]
    by_cases feed : c = '\n'
    · simp [feed]
    · rw [if_neg feed, if_neg feed, List.length_append, List.length_singleton, Nat.add_sub_add_right]
      rfl

/-! ### Bisection -/

/-- Bisection finds the number of starts at or before an offset, where those come first. -/
theorem bisect_eq {early late : List Nat} {offset : Nat} (before : ∀ start ∈ early, start ≤ offset)
    (after : ∀ start ∈ late, offset < start) {low high : Nat} (above : low ≤ early.length) (below : early.length ≤ high)
    (inside : high ≤ (early ++ late).length) : bisect (early ++ late).toArray offset low high = early.length := by
  fun_induction bisect (early ++ late).toArray offset low high with
  | case1 low high apart middle passed ih =>
    refine ih above (Nat.le_of_not_lt fun first => ?_) (by omega)
    have value : (early ++ late).toArray.getD middle 0 = early[middle] := by
      simp [List.getElem?_append_left first, first]
    rw [value] at passed
    exact absurd (before _ (List.getElem_mem first)) (Nat.not_le.mpr passed)
  | case2 low high apart middle reached ih =>
    refine ih (Nat.lt_of_not_le fun second => ?_) below inside
    have within : middle - early.length < late.length := by
      rw [List.length_append] at inside
      omega
    have value : (early ++ late).toArray.getD middle 0 = late[middle - early.length] := by
      simp [List.getElem?_append_right second, within]
    rw [value] at reached
    exact reached (after _ (List.getElem_mem within))
  | case3 low high closed => omega

/-- The index of a text gives the place that is counted. -/
theorem location_ofText (text : List Char) (offset : Nat) : (ofText text).location offset = Location.ofOffset text offset := by
  have parts : 0 :: startsFrom 0 text =
      (0 :: startsFrom 0 (text.take offset)) ++ startsFrom (text.take offset).length (text.drop offset) := by
    conv_lhs => rw [← List.take_append_drop offset text, startsFrom_append, Nat.zero_add]
    rfl
  have before : ∀ start ∈ 0 :: startsFrom 0 (text.take offset), start ≤ offset := by
    refine List.forall_mem_cons.mpr ⟨Nat.zero_le offset, fun start member => ?_⟩
    have bounds := (bounds_of_mem_startsFrom member).2
    rw [List.length_take] at bounds
    omega
  have after : ∀ start ∈ startsFrom (text.take offset).length (text.drop offset), offset < start := by
    intro start member
    have bounds := bounds_of_mem_startsFrom member
    rw [List.length_take, List.length_drop] at bounds
    omega
  have count : (0 :: startsFrom 0 (text.take offset)).length = Text.lineFeeds (text.take offset) + 1 := by
    rw [List.length_cons, length_startsFrom]
  have found := bisect_eq before after (Nat.zero_le _) (List.prefix_append _ _).length_le (Nat.le_refl _)
  have last : (0 :: startsFrom 0 text).toArray.getD (Text.lineFeeds (text.take offset)) 0 =
      (text.take offset).length - (Text.lastLine (text.take offset)).length := by
    have final := getLast?_starts (text.take offset)
    rw [List.getLast?_eq_getElem?, count, Nat.add_sub_cancel] at final
    rw [parts, Array.getD_eq_getD_getElem?, List.getElem?_toArray,
      List.getElem?_append_left (by rw [count]; exact Nat.lt_succ_self _), final, Option.getD_some]
  rw [← parts, count] at found
  unfold location ofText Location.ofOffset
  dsimp only
  rw [List.size_toArray, found, Nat.add_sub_cancel, last]

end LineIndex

/-! ### From one offset to the next -/

namespace Text

/-- Where the line of an offset begins: just after the last line feed before the offset, or at the beginning of the text if
there is none. -/
structure BeginsLine (text : List Char) (start offset : Nat) : Prop where
  le : start ≤ offset
  behind : start = 0 ∨ ∃ feed, start = feed + 1 ∧ text[feed]? = some '\n'
  within : ∀ place, start ≤ place → place < offset → text[place]? ≠ some '\n'

/-- The beginning of the line of an offset, found by counting the characters of the line before the offset. -/
def lineStart (text : List Char) (offset : Nat) : Nat := (text.take offset).length - (lastLine (text.take offset)).length

theorem lineStart_succ (text : List Char) (offset : Nat) :
    lineStart text (offset + 1) = if text[offset]? = some '\n' then offset + 1 else lineStart text offset := by
  unfold lineStart
  rw [List.take_add_one]
  cases found : text[offset]? with
  | none => rw [if_neg nofun, Option.toList_none, List.append_nil]
  | some c =>
    have before : (text.take offset).length = offset :=
      List.length_take_of_le (Nat.le_of_lt (List.getElem?_eq_some_iff.mp found).1)
    rw [Option.toList_some, lastLine_concat, List.length_append, List.length_singleton, before]
    by_cases feed : c = '\n'
    · rw [if_pos feed, if_pos (congrArg some feed)]
      rfl
    · rw [if_neg feed, if_neg (mt Option.some.inj feed), List.length_append, List.length_singleton, Nat.add_sub_add_right]

theorem lineFeeds_take_succ (text : List Char) (offset : Nat) :
    lineFeeds (text.take (offset + 1)) = lineFeeds (text.take offset) + if text[offset]? = some '\n' then 1 else 0 := by
  unfold lineFeeds
  rw [List.take_add_one, List.count_append]
  cases text[offset]? with
  | none => rfl
  | some c =>
    rw [Option.toList_some, List.count_singleton]
    simp

theorem beginsLine_lineStart (text : List Char) (offset : Nat) : BeginsLine text (lineStart text offset) offset := by
  induction offset with
  | zero => exact ⟨Nat.le_of_eq rfl, .inl rfl, fun place _ below => absurd below (Nat.not_lt_zero place)⟩
  | succ offset ih =>
    rw [lineStart_succ]
    split
    · rename_i feed
      exact ⟨Nat.le_refl _, .inr ⟨offset, rfl, feed⟩, fun place above below => absurd below (Nat.not_lt.mpr above)⟩
    · rename_i other
      refine ⟨Nat.le_succ_of_le ih.le, ih.behind, fun place above below => ?_⟩
      rcases Nat.lt_succ_iff_lt_or_eq.mp below with before | rfl
      · exact ih.within place above before
      · exact other

end Text

namespace Location

/-- Places in the order of reading: by the line, and in a line by the column. -/
def inOrder (place : Location) : ℕ ×ₗ ℕ := toLex (place.line, place.column)

/-- The next offset has a later place. -/
theorem inOrder_ofOffset_lt_succ (text : List Char) (offset : Nat) :
    (ofOffset text offset).inOrder < (ofOffset text (offset + 1)).inOrder := by
  have start := (Text.beginsLine_lineStart text offset).le
  change toLex (Text.lineFeeds (text.take offset) + 1, offset - Text.lineStart text offset + 1) <
    toLex (Text.lineFeeds (text.take (offset + 1)) + 1, offset + 1 - Text.lineStart text (offset + 1) + 1)
  rw [Prod.Lex.toLex_lt_toLex, Text.lineFeeds_take_succ, Text.lineStart_succ]
  split
  · exact .inl (Nat.lt_succ_self _)
  · refine .inr ⟨rfl, ?_⟩
    dsimp only
    omega

/-- Later offsets have later places. -/
theorem strictMono_ofOffset (text : List Char) : StrictMono fun offset => (ofOffset text offset).inOrder :=
  strictMono_nat_of_lt_succ (inOrder_ofOffset_lt_succ text)

end Location

/-- **The index of a text counts lines and columns**: the line by the line feeds before an offset, the column from the beginning
of its line, also past the end of the text. Later offsets have later places, so no two offsets have the same. -/
theorem LineIndex.counts_location (text : List Char) :
    (∀ offset, ∃ start, Text.BeginsLine text start offset ∧
      (ofText text).location offset = ⟨(text.take offset).count '\n' + 1, offset - start + 1⟩) ∧
    (StrictMono fun offset => ((ofText text).location offset).inOrder) ∧ Function.Injective (ofText text).location := by
  have increasing : StrictMono fun offset => ((ofText text).location offset).inOrder := by
    simp only [location_ofText]
    exact Location.strictMono_ofOffset text
  refine ⟨fun offset => ⟨Text.lineStart text offset, Text.beginsLine_lineStart text offset, ?_⟩, increasing, ?_⟩
  · rw [location_ofText]
    rfl
  · exact fun first second same => increasing.injective (congrArg Location.inOrder same)

end AnimationCode
