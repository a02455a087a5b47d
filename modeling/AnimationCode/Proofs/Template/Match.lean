/-
**The tags and comments of a template, one after another.**

A template is gone through from left to right: each match is the first comment or tag after the one before. Between the
matches stand texts in which no match begins, and matches and texts together are the template.

* `Template.Matches`: the matches of a text, each with the text before it, and the text after the last;
* `Template.exists_matches`: every text has its matches;
* `Template.Matches.pieces`: the pieces of a template are the texts and the tags of its matches;
* `Template.Matches.written`: texts and matches together are the template.
-/

import AnimationCode.Proofs.Text.Split
import AnimationCode.Template.Node

namespace AnimationCode

namespace Template

open Text (stripStart? cut? eq_append_of_stripStart? eq_append_of_cut?)

/-- The comment or the tag at the beginning of a text, and what follows it; a comment is no tag. -/
def token? (cs : List Char) : Option (Option Tag × List Char) :=
  match comment? cs with
  | some rest => some (none, rest)
  | none => (tag? cs).map fun (tag, rest) => (some tag, rest)

/-- A comment or a tag with the text since the one before. -/
structure Match where
  before : List Char
  /-- The tag; a comment is none. -/
  tag? : Option Tag
  start : Nat
  written : List Char

/-- Where a match ends. -/
def Match.stop (found : Match) : Nat := found.start + found.written.length

/-- The matches of a text that begins at an offset, and the text after the last. -/
inductive Matches : Nat → List Char → List Match → List Char → Prop
  | done {offset : Nat} {last : List Char}
      (noMore : ∀ passed left, last = passed ++ left → token? left = none) : Matches offset last [] last
  | next {offset : Nat} {before written rest last : List Char} {tag? : Option Tag} {others : List Match}
      (first : ∀ passed left, before = passed ++ left → left ≠ [] → token? (left ++ (written ++ rest)) = none)
      (here : token? (written ++ rest) = some (tag?, rest))
      (later : Matches (offset + before.length + written.length) rest others last) :
      Matches offset (before ++ (written ++ rest)) (⟨before, tag?, offset + before.length, written⟩ :: others) last

variable {offset : Nat} {cs rest last : List Char} {found : List Match}

/-- Texts and matches as they are written. -/
def allWritten (found : List Match) : List Char := found.flatMap fun one => one.before ++ one.written

/-- Texts and matches together are the text. -/
theorem Matches.written (matches_ : Matches offset cs found last) : allWritten found ++ last = cs := by
  unfold allWritten
  induction matches_ with
  | done noMore => rfl
  | next first here later ih => rw [List.flatMap_cons, List.append_assoc, ih, List.append_assoc]

/-- A match starts where what is written before it ends. -/
theorem Matches.start_eq (matches_ : Matches offset cs found last) {before after : List Match} {one : Match}
    (split : found = before ++ one :: after) : one.start = offset + (allWritten before ++ one.before).length := by
  unfold allWritten
  induction matches_ generalizing before with
  | done noMore => exact absurd (List.append_eq_nil_iff.mp split.symm).2 (List.cons_ne_nil _ _)
  | next first here later ih =>
    cases before with
    | nil =>
      obtain ⟨rfl, -⟩ := List.cons.inj split
      rfl
    | cons head before =>
      obtain ⟨rfl, rest⟩ := List.cons.inj split
      rw [ih rest, List.flatMap_cons]
      simp only [List.length_append]
      omega

/-! ### A match takes a part of the text -/

theorem comment?_suffix (read : comment? cs = some rest) : rest <:+ cs ∧ rest.length < cs.length := by
  obtain ⟨after, stripped, cut⟩ := Option.bind_eq_some_iff.mp read
  obtain ⟨⟨inside, tail⟩, found, same⟩ := Option.map_eq_some_iff.mp cut
  obtain rfl : tail = rest := same
  rw [eq_append_of_stripStart? stripped, eq_append_of_cut? found]
  refine ⟨((List.suffix_append _ _).trans (List.suffix_append _ _)).trans (List.suffix_append _ _), ?_⟩
  rw [List.length_append, List.length_append, List.length_append, show "<!--".toList.length = 4 from rfl]
  omega

theorem value?_suffix {value : List Char} (read : value? cs = some (value, rest)) : rest <:+ cs := by
  unfold value? at read
  split at read
  · cases read
  · rename_i c tail
    split at read
    · dsimp only at read
      split at read
      · rename_i mark after opens
        cases read
        have inside : mark :: rest <:+ tail := opens ▸ List.drop_suffix _ tail
        exact ((List.suffix_cons _ _).trans inside).trans (List.suffix_cons _ _)
      · cases read
    · dsimp only at read
      split at read
      · cases read
      · cases read
        exact List.drop_suffix _ _

theorem assigned?_suffix {value : Option (List Char)} (read : assigned? cs = some (value, rest)) : rest <:+ cs := by
  unfold assigned? at read
  split at read
  · rename_i after opens
    obtain ⟨⟨inside, tail⟩, found, same⟩ := Option.map_eq_some_iff.mp read
    cases same
    have signed : '=' :: after <:+ cs := opens ▸ List.dropWhile_suffix _
    exact (((value?_suffix found).trans (List.dropWhile_suffix _)).trans (List.suffix_cons _ _)).trans signed
  · cases read
    exact List.suffix_refl _

theorem attributes?_suffix {steps : Nat} {attributes : List Attribute}
    (read : attributes? steps cs = some (attributes, rest)) : rest <:+ cs := by
  induction steps generalizing cs attributes with
  | zero =>
    cases read
    exact List.suffix_refl _
  | succ steps ih =>
    rw [attributes?] at read
    dsimp only at read
    split at read
    · cases read
      exact List.suffix_refl _
    · obtain ⟨⟨value, after⟩, assigned, others⟩ := Option.bind_eq_some_iff.mp read
      obtain ⟨⟨more, tail⟩, found, same⟩ := Option.map_eq_some_iff.mp others
      cases same
      exact (((ih found).trans (assigned?_suffix assigned)).trans (List.drop_suffix _ _)).trans (List.dropWhile_suffix _)

theorem tagEnd?_suffix {selfClosing : Bool} (read : tagEnd? cs = some (selfClosing, rest)) : rest <:+ cs := by
  have blanks : cs.dropWhile Text.isBlank <:+ cs := List.dropWhile_suffix _
  unfold tagEnd? at read
  split at read
  · rename_i opens
    cases read
    rw [opens] at blanks
    exact (List.suffix_cons _ _).trans blanks
  · rename_i opens
    cases read
    rw [opens] at blanks
    exact ((List.suffix_cons _ _).trans (List.suffix_cons _ _)).trans blanks
  · cases read

/-- A tag after the sign that it begins with, and the stroke of a closing tag. -/
def tagBody? (closing : Bool) (body : List Char) : Option (Tag × List Char) :=
  if !body.head?.any Char.isAlpha then none
  else
    let name := body.takeWhile isTagPart
    (attributes? body.length (body.drop name.length)).bind fun (attributes, rest) =>
      (tagEnd? rest).map fun (selfClosing, rest) =>
        (if closing then .closing (String.ofList name) else .opening (String.ofList name) attributes selfClosing, rest)

theorem tag?_closing (body : List Char) : tag? ('<' :: '/' :: body) = tagBody? true body := rfl

theorem tag?_opening {body : List Char} (noStroke : body.head? ≠ some '/') : tag? ('<' :: body) = tagBody? false body := by
  simp only [tag?]
  split
  · exact absurd rfl noStroke
  · rfl

theorem tagBody?_suffix {closing : Bool} {body : List Char} {tag : Tag} (read : tagBody? closing body = some (tag, rest)) :
    rest <:+ body := by
  unfold tagBody? at read
  split at read
  · cases read
  · obtain ⟨⟨attributes, after⟩, listed, ended⟩ := Option.bind_eq_some_iff.mp read
    obtain ⟨⟨selfClosing, stop⟩, closed, same⟩ := Option.map_eq_some_iff.mp ended
    obtain rfl : stop = rest := congrArg Prod.snd same
    exact ((tagEnd?_suffix closed).trans (attributes?_suffix listed)).trans (List.drop_suffix _ _)

theorem tag?_suffix {tag : Tag} (read : tag? cs = some (tag, rest)) : rest <:+ cs ∧ rest.length < cs.length := by
  have begins : ∃ body, cs = '<' :: body := by
    unfold tag? at read
    split at read
    · exact ⟨_, rfl⟩
    · cases read
  obtain ⟨body, rfl⟩ := begins
  have inner : rest <:+ body := by
    by_cases stroke : body.head? = some '/'
    · obtain ⟨more, rfl⟩ := List.head?_eq_some_iff.mp stroke
      rw [tag?_closing] at read
      exact (tagBody?_suffix read).trans (List.suffix_cons _ _)
    · rw [tag?_opening stroke] at read
      exact tagBody?_suffix read
  exact ⟨inner.trans (List.suffix_cons _ _), Nat.lt_succ_of_le inner.length_le⟩

/-- A match takes at least a character. -/
theorem eq_append_of_token? {tag? : Option Tag} (read : token? cs = some (tag?, rest)) :
    ∃ written, written ≠ [] ∧ cs = written ++ rest := by
  have shorter : rest <:+ cs ∧ rest.length < cs.length := by
    unfold token? at read
    split at read
    · rename_i comment
      cases read
      exact comment?_suffix comment
    · obtain ⟨⟨tag, after⟩, found, same⟩ := Option.map_eq_some_iff.mp read
      cases same
      exact tag?_suffix found
  obtain ⟨⟨written, rfl⟩, less⟩ := shorter
  refine ⟨written, ?_, rfl⟩
  rintro rfl
  exact Nat.lt_irrefl _ less

/-- Matches follow one another: each starts behind the one before. -/
theorem Matches.pairwise_start (matches_ : Matches offset cs found last) :
    (found.map Match.start).Pairwise (· < ·) ∧ ∀ one ∈ found, offset ≤ one.start := by
  induction matches_ with
  | done noMore => exact ⟨.nil, List.forall_mem_nil _⟩
  | @next offset before written rest last tag? others first here later ih =>
    have some_ : 0 < written.length := by
      obtain ⟨taken, some_, same⟩ := eq_append_of_token? here
      rw [List.append_cancel_right same]
      exact List.length_pos_iff.mpr some_
    obtain ⟨ordered, behind⟩ := ih
    refine ⟨List.pairwise_cons.mpr ⟨List.forall_mem_map.mpr fun one member => ?_, ordered⟩,
      List.forall_mem_cons.mpr ⟨Nat.le_add_right _ _, fun one member => ?_⟩⟩
    · have := behind one member
      show offset + before.length < one.start
      omega
    · have := behind one member
      omega

/-! ### Every text has its matches -/

/-- The first match of a text, if it has one. -/
theorem exists_first (cs : List Char) :
    (∀ passed left, cs = passed ++ left → token? left = none) ∨
    ∃ before later tag? rest, cs = before ++ later ∧ token? later = some (tag?, rest) ∧
      ∀ passed left, before = passed ++ left → left ≠ [] → token? (left ++ later) = none := by
  cases here : token? cs with
  | some read =>
    refine .inr ⟨[], cs, read.1, read.2, rfl, here, fun passed left same some_ => ?_⟩
    exact absurd (List.append_eq_nil_iff.mp same.symm).2 some_
  | none =>
    induction cs with
    | nil =>
      refine .inl fun passed left same => ?_
      rw [(List.append_eq_nil_iff.mp same.symm).2, here]
    | cons c cs ih =>
      have rest : (∀ passed left, cs = passed ++ left → token? left = none) ∨
          ∃ before later tag? rest, cs = before ++ later ∧ token? later = some (tag?, rest) ∧
            ∀ passed left, before = passed ++ left → left ≠ [] → token? (left ++ later) = none := by
        cases next : token? cs with
        | none => exact ih next
        | some read =>
          refine .inr ⟨[], cs, read.1, read.2, rfl, next, fun passed left same some_ => ?_⟩
          exact absurd (List.append_eq_nil_iff.mp same.symm).2 some_
      rcases rest with none_ | ⟨before, later, tag?, rest, rfl, read, first⟩
      · refine .inl fun passed left same => ?_
        cases passed with
        | nil => rw [← show c :: cs = left from same, here]
        | cons d passed => exact none_ passed left (List.cons.inj same).2
      · refine .inr ⟨c :: before, later, tag?, rest, rfl, read, fun passed left same some_ => ?_⟩
        cases passed with
        | nil => rw [← show c :: before = left from same, List.cons_append, here]
        | cons d passed => exact first passed left (List.cons.inj same).2 some_

theorem exists_matches (offset : Nat) (cs : List Char) : ∃ found last, Matches offset cs found last := by
  induction size : cs.length using Nat.strongRecOn generalizing offset cs with
  | _ length ih =>
    rcases exists_first cs with none_ | ⟨before, later, tag?, rest, rfl, read, first⟩
    · exact ⟨[], cs, .done none_⟩
    · obtain ⟨written, some_, rfl⟩ := eq_append_of_token? read
      have shorter : rest.length < length := by
        rw [← size, List.length_append, List.length_append]
        have positive := List.length_pos_iff.mpr some_
        omega
      obtain ⟨others, last, matches_⟩ := ih rest.length shorter (offset + before.length + written.length) rest rfl
      exact ⟨_, last, .next first read matches_⟩

/-! ### The pieces of a template -/

/-- The pieces that a match is read as: the text before it, and the tag. -/
def Match.pieces (found : Match) : List Piece :=
  .text (String.ofList found.before) :: (found.tag?.map fun tag => .tag tag found.start found.stop).toList

/-- What stands before a match is passed over. -/
theorem piecesFrom_append {before later : List Char}
    (first : ∀ passed left, before = passed ++ left → left ≠ [] → token? (left ++ later) = none) (pending : List Char)
    {steps : Nat} (enough : before.length ≤ steps) (offset : Nat) :
    piecesFrom pending steps offset (before ++ later) =
      piecesFrom (before.reverse ++ pending) (steps - before.length) (offset + before.length) later := by
  induction before generalizing pending steps offset with
  | nil => rfl
  | cons c before ih =>
    obtain ⟨fewer, rfl⟩ := Nat.exists_eq_add_of_le' (Nat.one_le_of_lt enough)
    have here : token? (c :: (before ++ later)) = none := first [] (c :: before) rfl (List.cons_ne_nil c before)
    have noComment : comment? (c :: (before ++ later)) = none := by
      unfold token? at here
      split at here
      · cases here
      · assumption
    have noTag : tag? (c :: (before ++ later)) = none := by
      rw [token?, noComment] at here
      exact Option.map_eq_none_iff.mp here
    have others : ∀ passed left, before = passed ++ left → left ≠ [] → token? (left ++ later) = none :=
      fun passed left same => first (c :: passed) left (congrArg (c :: ·) same)
    have within : before.length ≤ fewer := Nat.le_of_succ_le_succ enough
    rw [List.cons_append, piecesFrom, noComment, noTag]
    dsimp only
    rw [ih others (c :: pending) within (offset + 1), List.length_cons, List.reverse_cons, List.append_assoc,
      Nat.add_sub_add_right, show offset + 1 + before.length = offset + (before.length + 1) by omega]
    rfl

/-- A match at the beginning of a text ends the text before it. -/
theorem piecesFrom_token {tag? : Option Tag} {written : List Char} (read : token? (written ++ rest) = some (tag?, rest))
    (pending : List Char) (steps offset : Nat) :
    piecesFrom pending (steps + 1) offset (written ++ rest) =
      Match.pieces ⟨pending.reverse, tag?, offset, written⟩ ++ piecesFrom [] steps (offset + written.length) rest := by
  have length : (written ++ rest).length - rest.length = written.length := by
    rw [List.length_append, Nat.add_sub_cancel]
  obtain ⟨part, some_, same⟩ := eq_append_of_token? read
  obtain rfl := List.append_cancel_right same
  cases whole : written ++ rest with
  | nil => exact absurd (List.append_eq_nil_iff.mp whole).1 some_
  | cons c tail =>
    rw [whole] at length read
    rw [piecesFrom]
    unfold token? at read
    cases comment : comment? (c :: tail) with
    | some after =>
      rw [comment] at read
      cases read
      dsimp only
      rw [length]
      rfl
    | none =>
      rw [comment] at read
      obtain ⟨⟨tag, after⟩, found, same⟩ := Option.map_eq_some_iff.mp read
      cases same
      rw [found]
      dsimp only
      rw [length]
      rfl

theorem Matches.piecesFrom (matches_ : Matches offset cs found last) {steps : Nat} (enough : cs.length ≤ steps) :
    piecesFrom [] steps offset cs = found.flatMap Match.pieces ++ [.text (String.ofList last)] := by
  induction matches_ generalizing steps with
  | @done offset last noMore =>
    have first : ∀ passed left, last = passed ++ left → left ≠ [] → token? (left ++ []) = none := by
      intro passed left same _
      rw [List.append_nil]
      exact noMore passed left same
    have passed := piecesFrom_append first [] enough offset
    rw [List.append_nil] at passed
    rw [passed, List.append_nil, List.flatMap_nil, List.nil_append]
    generalize steps - last.length = left
    cases left with
    | zero => rw [Template.piecesFrom, List.reverse_reverse, List.append_nil]
    | succ left => rw [Template.piecesFrom, List.reverse_reverse]
  | @next offset before written rest last tag? others first here later ih =>
    obtain ⟨part, some_, same⟩ := eq_append_of_token? here
    obtain rfl := List.append_cancel_right same
    have positive := List.length_pos_iff.mpr some_
    rw [List.length_append, List.length_append] at enough
    obtain ⟨fewer, left⟩ := Nat.exists_eq_add_of_le' (show 1 ≤ steps - before.length by omega)
    rw [piecesFrom_append first [] (by omega), List.append_nil, left, piecesFrom_token here, List.reverse_reverse,
      ih (by omega), List.flatMap_cons, List.append_assoc]

/-- The pieces of a template are the texts and the tags of its matches. -/
theorem Matches.pieces (matches_ : Matches offset cs found last) :
    Template.pieces offset cs = found.flatMap Match.pieces ++ [.text (String.ofList last)] :=
  matches_.piecesFrom (Nat.le_refl _)

end Template

end AnimationCode
