/-
**Style blocks that give way to blanks.**

Style blocks are written over with blanks, one for each of their characters. So every offset stays what it is, and what is
found of a text without blanks in it, the name of a tag say, stands at the same offset of the source. Line feeds are written
over as well: lines are only counted alike where no style block before goes over several of them.

* `Text.IsBlanked`: a text and the same with blanks in place of some of its characters;
* `Text.IsBlanked.standsAt`: a part without blanks was there before;
* `Blocks.exists_of_opening?`, `Blocks.standsAt_of_ofSource`: where blocks and their tags stand;
* `Blocks.isBlanked_withoutStyles`: such is a source without its style blocks;
* `Blocks.HasFlatStyles`, `Blocks.lineFeeds_take_withoutStyles`: line feeds that are not written over.
-/

import AnimationCode.Proofs.Text.Replace
import AnimationCode.Proofs.Text.Split
import AnimationCode.Template.Block
import AnimationCode.Text.Position
import Mathlib.Data.List.Forall2

namespace AnimationCode

namespace Text

variable {text blanked part before rest : List Char} {offset : Nat}

/-- A part of a text stands at an offset. -/
def StandsAt (text : List Char) (offset : Nat) (part : List Char) : Prop :=
  ∃ before after, text = before ++ (part ++ after) ∧ before.length = offset

theorem StandsAt.within {inner : List Char} {distance : Nat} (stands : StandsAt text offset part)
    (inside : StandsAt part distance inner) : StandsAt text (offset + distance) inner := by
  obtain ⟨before, after, rfl, rfl⟩ := stands
  obtain ⟨front, back, rfl, rfl⟩ := inside
  exact ⟨before ++ front, back ++ after, by simp only [List.append_assoc], List.length_append⟩

theorem StandsAt.offset_le (stands : StandsAt text offset part) : offset ≤ text.length := by
  obtain ⟨before, after, rfl, rfl⟩ := stands
  exact (List.prefix_append _ _).length_le

/-! ### Blanks -/

/-- A text and the same with blanks in place of some of its characters. -/
def IsBlanked (text blanked : List Char) : Prop := List.Forall₂ (fun c d => d = c ∨ d = ' ') text blanked

theorem isBlanked_replicate (text : List Char) : IsBlanked text (List.replicate text.length ' ') := by
  induction text with
  | nil => exact .nil
  | cons c rest ih => exact .cons (.inr rfl) ih

/-- A text with some of its spots written over with blanks. -/
theorem Rewrites.isBlanked {spot : List Char → List Char → Prop} (rewrites : Rewrites spot text blanked)
    (blanks : ∀ found written, spot found written → written = List.replicate found.length ' ') :
    IsBlanked text blanked := by
  induction rewrites with
  | nil => exact .nil
  | keep c rest ih => exact .cons (.inl rfl) ih
  | write here rest ih =>
    rw [blanks _ _ here]
    exact List.rel_append (isBlanked_replicate _) ih

/-- A text without blanks is what stood there before. -/
theorem IsBlanked.eq_of_solid (isBlanked : IsBlanked text part) (solid : ' ' ∉ part) : text = part := by
  induction isBlanked with
  | nil => rfl
  | @cons c d text part here rest ih =>
    have same : d = c := here.resolve_right fun blank => solid (blank ▸ List.mem_cons_self)
    rw [same, ih fun member => solid (List.mem_cons_of_mem _ member)]

theorem IsBlanked.exists_append (isBlanked : IsBlanked text (before ++ rest)) :
    ∃ front back, text = front ++ back ∧ front.length = before.length ∧ IsBlanked front before ∧
      IsBlanked back rest := by
  have first := List.forall₂_take_append text before rest isBlanked
  exact ⟨_, _, (List.take_append_drop before.length text).symm, first.length_eq, first,
    List.forall₂_drop_append text before rest isBlanked⟩

/-- A part without blanks stands where it stands after other characters gave way to blanks. -/
theorem IsBlanked.standsAt (isBlanked : IsBlanked text blanked) (stands : StandsAt blanked offset part)
    (solid : ' ' ∉ part) : StandsAt text offset part := by
  obtain ⟨before, after, rfl, rfl⟩ := stands
  obtain ⟨front, back, rfl, length, -, later⟩ := isBlanked.exists_append
  obtain ⟨middle, last, rfl, -, here, -⟩ := later.exists_append
  exact ⟨front, last, by rw [here.eq_of_solid solid], length⟩

end Text

namespace Blocks

open Text (IsBlanked StandsAt Rewrites Takes replaceFrom lineFeeds)

variable {tag : String} {cs rest : List Char}

/-! ### Where blocks stand -/

theorem exists_of_stripStartAnyCase? {start : String} (stripped : stripStartAnyCase? start cs = some rest) :
    ∃ name, cs = name ++ rest ∧ name.map foldCase = start.toList := by
  have whole := Text.eq_append_of_stripStart? stripped
  have length : ((cs.take start.length).map foldCase).length = start.toList.length := by
    have parts := congrArg List.length whole
    simp only [List.length_append, List.length_map, List.length_take, List.length_drop, String.length_toList] at parts ⊢
    omega
  obtain ⟨name, after⟩ := List.append_inj whole length
  exact ⟨cs.take start.length, by rw [← after, List.take_append_drop], name⟩

/-- The opening tag of a block begins with a sign and its name, case aside. -/
theorem exists_of_opening? {attributes : List Char} (opens : opening? tag cs = some (attributes, rest)) :
    ∃ name more, cs = name ++ more ∧ name.map foldCase = ("<" ++ tag).toList ∧ rest <:+ more := by
  unfold opening? at opens
  split at opens
  · rename_i after stripped
    cases opens
    obtain ⟨name, same, folded⟩ := exists_of_stripStartAnyCase? stripped
    exact ⟨name, _, same, folded, List.suffix_cons _ _⟩
  · rename_i c more noEnd stripped
    obtain ⟨name, same, folded⟩ := exists_of_stripStartAnyCase? stripped
    refine ⟨name, _, same, folded, ?_⟩
    split at opens
    · dsimp only at opens
      split at opens
      · rename_i sign after opened
        cases opens
        have inside : sign :: rest <:+ more := opened ▸ List.drop_suffix _ _
        exact ((List.suffix_cons _ _).trans inside).trans (List.suffix_cons _ _)
      · cases opens
    · cases opens
  · cases opens

theorem opening?_suffix {attributes : List Char} (opens : opening? tag cs = some (attributes, rest)) : rest <:+ cs := by
  obtain ⟨name, more, rfl, -, within⟩ := exists_of_opening? opens
  exact within.trans (List.suffix_append _ _)

theorem closing?_suffix (closes : closing? tag cs = some rest) : rest <:+ cs := by
  unfold closing? at closes
  split at closes
  · rename_i after stripped
    obtain ⟨name, rfl, -⟩ := exists_of_stripStartAnyCase? stripped
    have signed := Text.eq_append_of_stripStart? closes
    have within : ['>'] ++ rest <:+ after := signed ▸ List.dropWhile_suffix _
    exact ((List.suffix_append _ _).trans within).trans (List.suffix_append _ _)
  · cases closes

theorem untilClosing?_suffix {inside : List Char} (found : untilClosing? tag cs = some (inside, rest)) : rest <:+ cs := by
  induction cs generalizing inside with
  | nil => cases found
  | cons c cs ih =>
    unfold untilClosing? at found
    split at found
    · rename_i closes
      cases found
      exact closing?_suffix closes
    · obtain ⟨⟨before, after⟩, later, same⟩ := Option.map_eq_some_iff.mp found
      cases same
      exact (ih later).trans (List.suffix_cons _ _)

theorem block?_suffix {found : List Char × List Char} (block : block? tag cs = some (found, rest)) : rest <:+ cs := by
  obtain ⟨⟨attributes, opened⟩, opens, later⟩ := Option.bind_eq_some_iff.mp block
  obtain ⟨⟨inside, after⟩, closes, same⟩ := Option.map_eq_some_iff.mp later
  cases same
  exact (untilClosing?_suffix closes).trans (opening?_suffix opens)

theorem exists_of_templateOpening? {before : List Char} (found : templateOpening? cs = some (before, rest)) :
    ∃ attributes later, cs = before ++ later ∧ opening? "template" later = some (attributes, rest) := by
  induction cs generalizing before with
  | nil => cases found
  | cons c cs ih =>
    unfold templateOpening? at found
    split at found
    · rename_i opens
      cases found
      exact ⟨_, _, rfl, opens⟩
    · obtain ⟨⟨front, after⟩, later, same⟩ := Option.map_eq_some_iff.mp found
      cases same
      obtain ⟨attributes, last, rfl, opens⟩ := ih later
      exact ⟨attributes, last, rfl, opens⟩

theorem untilLastClosing?_prefix {inside : List Char} (found : untilLastClosing? cs = some inside) : inside <+: cs := by
  induction cs generalizing inside with
  | nil => cases found
  | cons c cs ih =>
    unfold untilLastClosing? at found
    split at found
    · rename_i later
      cases found
      exact List.cons_prefix_cons.mpr ⟨rfl, ih later⟩
    · obtain ⟨-, -, rfl⟩ := Option.map_eq_some_iff.mp found
      exact List.nil_prefix

/-- The template of a source stands in it at its offset. -/
theorem standsAt_of_ofSource {source markup : List Char} {offset : Nat} {blocks : Blocks}
    (read : ofSource source = .ok blocks) (template : blocks.template? = some (markup, offset)) :
    StandsAt source offset markup := by
  unfold ofSource at read
  dsimp only at read
  split at read
  · split at read
    · cases read
      cases template
      exact ⟨[], [], by simp, rfl⟩
    · cases read
      cases template
  · rename_i before rest found
    split at read
    · rename_i inside last
      cases read
      cases template
      obtain ⟨attributes, later, rfl, opens⟩ := exists_of_templateOpening? found
      obtain ⟨front, rfl⟩ := opening?_suffix opens
      obtain ⟨after, rfl⟩ := untilLastClosing?_prefix last
      refine ⟨before ++ front, after, (List.append_assoc _ _ _).symm, ?_⟩
      simp only [List.length_append]
      omega
    · cases read

/-- A source has no blocks if the first template in it is not closed, and only then. -/
theorem ofSource_eq_error {source : List Char} {failure : Failure} (failed : ofSource source = .error failure) :
    ∃ before rest, templateOpening? source = some (before, rest) ∧ untilLastClosing? rest = none ∧
      failure = .unclosedTemplate (lineFeeds before + 1) := by
  unfold ofSource at failed
  dsimp only at failed
  split at failed
  · split at failed <;> cases failed
  · rename_i before rest found
    split at failed
    · cases failed
    · rename_i unclosed
      cases failed
      exact ⟨before, rest, found, unclosed, rfl⟩

/-! ### Sources without style blocks -/

/-- What stands in place of a style block that begins here. -/
def blank? (cs : List Char) : Option (List Char × List Char) :=
  (block? "style" cs).map fun (_, after) => (List.replicate (cs.length - after.length) ' ', after)

theorem withoutStyles_eq (source : List Char) : withoutStyles source = (Text.replaceEach (fun _ => blank?) source).1 := rfl

theorem exists_of_blank? {written : List Char} (found : blank? cs = some (written, rest)) :
    ∃ block inside, cs = block ++ rest ∧ block? "style" (block ++ rest) = some (inside, rest) ∧
      written = List.replicate block.length ' ' := by
  obtain ⟨⟨inside, after⟩, whole, same⟩ := Option.map_eq_some_iff.mp found
  cases same
  obtain ⟨block, rfl⟩ := block?_suffix whole
  exact ⟨block, inside, rfl, whole, by rw [List.length_append, Nat.add_sub_cancel]⟩

theorem isBlanked_withoutStyles (source : List Char) : IsBlanked source (withoutStyles source) := by
  have takes : Takes (fun _ => blank?) fun found written => written = List.replicate found.length ' ' := by
    intro before cs written rest found
    obtain ⟨block, -, same, -, blanks⟩ := exists_of_blank? found
    exact ⟨block, same, blanks⟩
  rw [withoutStyles_eq]
  exact (Text.rewrites_replaceEach takes source).isBlanked fun _ _ same => same

/-- No style block that begins before an offset goes over several lines. -/
def HasFlatStyles (source : List Char) (offset : Nat) : Prop :=
  ∀ before block rest inside, source = before ++ (block ++ rest) → before.length < offset →
    block? "style" (block ++ rest) = some (inside, rest) → '\n' ∉ block

theorem HasFlatStyles.drop {front source : List Char} {offset : Nat} (flat : HasFlatStyles (front ++ source) offset) :
    HasFlatStyles source (offset - front.length) := by
  rintro before block rest inside rfl less found
  refine flat (front ++ before) block rest inside (List.append_assoc _ _ _).symm ?_ found
  rw [List.length_append]
  omega

theorem lineFeeds_append (first second : List Char) : lineFeeds (first ++ second) = lineFeeds first + lineFeeds second :=
  List.count_append

theorem lineFeeds_eq_zero {text : List Char} : lineFeeds text = 0 ↔ '\n' ∉ text := List.count_eq_zero

/-- Line feeds are counted alike up to an offset before which no style block goes over several lines. -/
theorem lineFeeds_take_replaceFrom (steps : Nat) : ∀ (before : Option Char) (source : List Char) (offset : Nat),
    HasFlatStyles source offset →
      lineFeeds ((replaceFrom (fun _ => blank?) steps before source).1.take offset) = lineFeeds (source.take offset) := by
  induction steps with
  | zero => exact fun _ _ _ _ => rfl
  | succ steps ih =>
    intro before source offset flat
    cases source with
    | nil => rfl
    | cons c cs =>
      cases offset with
      | zero => rfl
      | succ offset =>
        cases here : blank? (c :: cs) with
        | none =>
          have front : HasFlatStyles ([c] ++ cs) (offset + 1) := flat
          have rest := ih (some c) cs offset front.drop
          rw [Text.replaceFrom_pass here, List.take_succ_cons, List.take_succ_cons, ← List.singleton_append,
            lineFeeds_append, rest, ← lineFeeds_append, List.singleton_append]
        | some found =>
          obtain ⟨written, rest⟩ := found
          obtain ⟨block, inside, same, whole, rfl⟩ := exists_of_blank? here
          have oneLine : '\n' ∉ block := flat [] block rest inside same (Nat.succ_pos offset) whole
          rw [Text.replaceFrom_take here, same, List.take_append, List.take_append, lineFeeds_append, lineFeeds_append,
            List.length_replicate, ih _ rest _ (same ▸ flat).drop,
            lineFeeds_eq_zero.mpr fun member => oneLine (List.mem_of_mem_take member),
            lineFeeds_eq_zero.mpr fun member => by simpa using List.eq_of_mem_replicate (List.mem_of_mem_take member)]

theorem lineFeeds_take_withoutStyles {source : List Char} {offset : Nat} (flat : HasFlatStyles source offset) :
    lineFeeds ((withoutStyles source).take offset) = lineFeeds (source.take offset) :=
  lineFeeds_take_replaceFrom source.length none source offset flat

end Blocks

end AnimationCode
