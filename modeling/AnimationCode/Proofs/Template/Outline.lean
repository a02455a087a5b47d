/-
**A template and the elements in it.**

A component that is written as a template and a script after it is taken apart where it was put together: the template ends
at the last closing tag of its name, so it may hold templates of its own, but the script may not hold such a tag.

Elements stand behind gaps, each as a tag that closes itself or as an opening tag, what is inside, and a closing tag. A tag
that never has content does not open, so its closing tag is one too many: elements are read as they are written if nothing
is inside such a tag, and otherwise not at all.

* `Blocks.untilLastClosing?_append`: no closing tag begins where no sign of a tag stands;
* `Blocks.ofSource_document`: the template of a component that is written so;
* `Template.Outline`: an element with its attributes and the elements inside it;
* `Template.Prints`: a text of elements, each behind a gap;
* `Template.Outline.closes`: nothing is inside a tag that never has content;
* `Template.Prints.matches_`: the matches of a text, and what is built of them;
* `Template.scan_eq_ok_iff_closes`: when a text of elements is read, and as what.
-/

import AnimationCode.Proofs.Template.Tag
import AnimationCode.Template.Block
import Mathlib.Data.List.Basic

namespace AnimationCode

/-- The small letters beyond ASCII stand above the signs of tags. -/
theorem Text.toLowerRuns_above : ∀ run ∈ Text.toLowerRuns, 60 < (run.1 : Int) + run.2.2.2 := by
  decide +kernel

/-- No other character counts as the sign of a tag. -/
theorem Text.eq_of_lower {c : Char} (same : Text.lower c = '<') : c = '<' := by
  unfold Text.lower at same
  split at same
  · rename_i basic
    have small : ∀ n < 128, (Char.ofNat n).toLower = '<' → Char.ofNat n = '<' := by decide +kernel
    have here := small c.toNat basic
    rw [Char.ofNat_toNat] at here
    exact here same
  · unfold Text.shifted at same
    split at same
    · rename_i first last step distance found
      have above := Text.toLowerRuns_above _ (List.mem_of_find?_eq_some found)
      have inside := List.find?_some found
      simp only [Text.inRun, Bool.and_eq_true, decide_eq_true_eq] at inside
      have code := congrArg Char.toNat same
      dsimp only at above
      by_cases valid : ((c.toNat : Int) + distance).toNat.isValidChar
      · rw [Char.ofNat, dif_pos valid] at code
        have sixty : ((c.toNat : Int) + distance).toNat = 60 := code
        omega
      · rw [Char.ofNat, dif_neg valid] at code
        exact absurd code (by decide)
    · exact same

namespace Blocks

theorem eq_of_foldCase {c : Char} (same : foldCase c = '<') : c = '<' := by
  unfold foldCase at same
  split at same
  · exact absurd same (by decide)
  · split at same
    · exact absurd same (by decide)
    · exact Text.eq_of_lower same

variable {tag : String} {c : Char} {cs more : List Char}

/-- A closing tag begins with its sign. -/
theorem closing?_of_other (other : c ≠ '<') : closing? tag (c :: cs) = none := by
  have sign : ("</" ++ tag).toList = '<' :: '/' :: tag.toList := by simp
  have some_ : ("</" ++ tag).length = tag.length + 1 + 1 := by
    rw [String.length_append]
    show 2 + tag.length = _
    omega
  have stripped : stripStartAnyCase? ("</" ++ tag) (c :: cs) = none := by
    rw [stripStartAnyCase?, sign, some_, List.take_succ_cons, List.map_cons, List.cons_append, Text.stripStart?]
    exact if_neg fun same => other (eq_of_foldCase same.symm)
  rw [closing?, stripped]

/-- No closing tag begins before a text that holds none. -/
theorem untilLastClosing?_append (calm : '<' ∉ cs) (none_ : untilLastClosing? more = none) :
    untilLastClosing? (cs ++ more) = none := by
  induction cs with
  | nil => exact none_
  | cons c cs ih =>
    obtain ⟨other, rest⟩ := not_or.mp (mt List.mem_cons.mpr calm)
    rw [List.cons_append, untilLastClosing?, ih rest, closing?_of_other (Ne.symm other)]
    rfl

/-- What stands before the last closing tag. -/
theorem untilLastClosing?_inside {inside : List Char} (found : untilLastClosing? more = some inside) (before : List Char) :
    untilLastClosing? (before ++ more) = some (before ++ inside) := by
  induction before with
  | nil => exact found
  | cons c before ih => rw [List.cons_append, untilLastClosing?, ih, List.cons_append]

/-- The template of a component whose script holds no closing tag of a template. -/
theorem ofSource_document {source inside after : List Char}
    (written : source = "<template>".toList ++ (inside ++ ("</template>".toList ++ after)))
    (none_ : untilLastClosing? after = none) :
    ofSource source = .ok ⟨some (inside, "<template>".length), scriptBlocks source, true⟩ := by
  have opens : templateOpening? source = some ([], inside ++ ("</template>".toList ++ after)) := by
    rw [written]
    rfl
  have closes : closing? "template" ("</template>".toList ++ after) = some after := rfl
  have last : untilLastClosing? ("</template>".toList ++ after) = some [] := by
    have behind : untilLastClosing? ("/template>".toList ++ after) = none := untilLastClosing?_append (by decide) none_
    have sign : "</template>".toList ++ after = '<' :: ("/template>".toList ++ after) := rfl
    rw [sign] at closes ⊢
    rw [untilLastClosing?, behind, closes]
    rfl
  have offset : source.length - (inside ++ ("</template>".toList ++ after)).length = "<template>".length := by
    rw [written, List.length_append, Nat.add_sub_cancel, String.length_toList]
  rw [ofSource, opens]
  dsimp only
  rw [untilLastClosing?_inside last inside, List.append_nil, offset]

end Blocks

namespace Template

/-- An element: its tag, its attributes, and the elements inside it. -/
inductive Outline where
  | mk (tag : String) (attributes : List Attribute) (children : List Outline)

mutual

/-- Whether nothing is inside a tag that never has content. -/
def Outline.closes : Outline → Bool
  | ⟨tag, _, children⟩ => (children.isEmpty || staysOpen tag false) && closeEach children

/-- Whether nothing is inside a tag that never has content, for several elements. -/
def closeEach : List Outline → Bool
  | [] => true
  | outline :: others => outline.closes && closeEach others

end

mutual

/-- An element of a template without its place and its texts. -/
def nodeOutline : TemplateNode → Outline
  | ⟨tag, attributes, _, _, _, children⟩ => ⟨tag, attributes, nodeOutlines children⟩

/-- Elements of a template without their places and texts. -/
def nodeOutlines : List TemplateNode → List Outline
  | [] => []
  | node :: others => nodeOutline node :: nodeOutlines others

end

theorem closeEach_append (outlines others : List Outline) :
    closeEach (outlines ++ others) = (closeEach outlines && closeEach others) := by
  induction outlines with
  | nil =>
    rw [closeEach]
    rfl
  | cons outline rest ih => rw [List.cons_append, closeEach, closeEach, ih, Bool.and_assoc]

theorem nodeOutlines_append (nodes others : List TemplateNode) :
    nodeOutlines (nodes ++ others) = nodeOutlines nodes ++ nodeOutlines others := by
  induction nodes with
  | nil =>
    rw [nodeOutlines]
    rfl
  | cons node rest ih => rw [List.cons_append, nodeOutlines, nodeOutlines, ih, List.cons_append]

theorem nodeOutlines_singleton (node : TemplateNode) : nodeOutlines [node] = [nodeOutline node] := by
  rw [nodeOutlines, nodeOutlines]

/-! ### Elements as they are written -/

/-- A text that is read as a tag, whatever follows. -/
def IsToken (written : List Char) (tag : Tag) : Prop := ∀ after, token? (written ++ after) = some (some tag, after)

/-- A text of elements, each behind a gap: one with elements inside has a closing tag, and one without closes itself. -/
inductive Prints : List Char → List Outline → Prop
  | nil : Prints [] []
  | append {text more : List Char} {outlines others : List Outline} (prints : Prints text outlines)
      (printsMore : Prints more others) : Prints (text ++ more) (outlines ++ others)
  | shut {gap written : List Char} {name : String} {attributes : List Attribute} (isGap : IsGap gap)
      (opening : IsToken written (.opening name attributes true)) : Prints (gap ++ written) [⟨name, attributes, []⟩]
  | around {gap written text gap' closing : List Char} {name : String} {attributes : List Attribute}
      {children : List Outline} (isGap : IsGap gap) (opening : IsToken written (.opening name attributes false))
      (some_ : children ≠ []) (inside : Prints text children) (isGap' : IsGap gap')
      (closes : IsToken closing (.closing name)) :
      Prints (gap ++ (written ++ (text ++ (gap' ++ closing)))) [⟨name, attributes, children⟩]

/-! ### Gaps before tags -/

theorem token?_blank {c : Char} (blank : Text.isBlank c = true) (cs : List Char) : token? (c :: cs) = none := by
  have other : '<' ≠ c := by
    rintro rfl
    exact absurd blank (by decide)
  have noComment : comment? (c :: cs) = none := by
    rw [comment?, show "<!--".toList = ['<', '!', '-', '-'] from rfl, Text.stripStart?, if_neg other]
    rfl
  have noTag : tag? (c :: cs) = none := by
    unfold tag?
    split
    · rename_i opens
      exact absurd (List.cons.inj opens).1.symm other
    · rfl
  rw [token?, noComment, noTag]
  rfl

/-- A match behind a gap. -/
theorem Matches.behindGap {gap written rest last : List Char} {tag? : Option Tag} {others : List Match} {offset : Nat}
    (isGap : IsGap gap) (read : token? (written ++ rest) = some (tag?, rest))
    (later : Matches (offset + gap.length + written.length) rest others last) :
    Matches offset (gap ++ (written ++ rest)) (⟨gap, tag?, offset + gap.length, written⟩ :: others) last := by
  refine .next (fun passed left same some_ => ?_) read later
  cases left with
  | nil => exact absurd rfl some_
  | cons c left => exact token?_blank (isGap c (same ▸ List.mem_append_right _ List.mem_cons_self)) _

theorem matches_gap {gap : List Char} (isGap : IsGap gap) (offset : Nat) : Matches offset gap [] gap := by
  refine .done fun passed left same => ?_
  cases left with
  | nil => rfl
  | cons c left => exact token?_blank (isGap c (same ▸ List.mem_append_right _ List.mem_cons_self)) _

/-! ### What is built -/

/-- An open element with more texts and children, the latest texts first. -/
def OpenNode.extended (node : OpenNode) (texts : List String) (children : List TemplateNode) : OpenNode :=
  { node with texts := texts ++ node.texts, children := children.reverse ++ node.children }

/-- An open element of a tag that may have content, or the whole template. -/
def IsHost (inner : OpenNode) (outer : List OpenNode) : Prop := outer = [] ∨ staysOpen inner.tag false = true

/-- What is built of the matches of elements: the elements, if nothing is inside a tag that never has content, and a
failure otherwise. -/
structure Builds (found : List Match) (outlines : List Outline) : Prop where
  closed : closeEach outlines = true → ∀ index inner outer pieces, ∃ texts nodes, nodeOutlines nodes = outlines ∧
    build index inner outer (found.flatMap Match.pieces ++ pieces) = build index (inner.extended texts nodes) outer pieces
  broken : closeEach outlines = false → ∀ index inner outer pieces, IsHost inner outer → ∃ failure,
    build index inner outer (found.flatMap Match.pieces ++ pieces) = .error failure

theorem builds_nil : Builds [] [] where
  closed _ _ _ _ _ := ⟨[], [], by rw [nodeOutlines], rfl⟩
  broken open_ := by
    rw [closeEach] at open_
    cases open_

theorem Builds.append {found more : List Match} {outlines others : List Outline} (builds : Builds found outlines)
    (buildsMore : Builds more others) : Builds (found ++ more) (outlines ++ others) where
  closed all index inner outer pieces := by
    rw [closeEach_append, Bool.and_eq_true] at all
    obtain ⟨texts, nodes, same, built⟩ := builds.closed all.1 index inner outer (more.flatMap Match.pieces ++ pieces)
    obtain ⟨texts', nodes', same', built'⟩ := buildsMore.closed all.2 index (inner.extended texts nodes) outer pieces
    refine ⟨texts' ++ texts, nodes ++ nodes', by rw [nodeOutlines_append, same, same'], ?_⟩
    rw [List.flatMap_append, List.append_assoc, built, built']
    simp [OpenNode.extended]
  broken open_ index inner outer pieces host := by
    rw [List.flatMap_append, List.append_assoc]
    cases first : closeEach outlines with
    | false => exact builds.broken first index inner outer _ host
    | true =>
      rw [closeEach_append, first, Bool.true_and] at open_
      obtain ⟨texts, nodes, -, built⟩ := builds.closed first index inner outer (more.flatMap Match.pieces ++ pieces)
      rw [built]
      exact buildsMore.broken open_ index _ outer pieces host

section Build

variable {name : String} {selfClosing : Bool} (index : LineIndex) (inner : OpenNode) (outer : List OpenNode) (text : String)
  (attributes : List Attribute) (start stop : Nat) (rest : List Piece)

theorem build_stays (stays : staysOpen name selfClosing = true) :
    build index inner outer (.text text :: .tag (.opening name attributes selfClosing) start stop :: rest) =
      build index ⟨name, attributes, start, stop, [], []⟩ (inner.addText text :: outer) rest := if_pos stays

theorem build_shut (shut : ¬ staysOpen name selfClosing = true) :
    build index inner outer (.text text :: .tag (.opening name attributes selfClosing) start stop :: rest) =
      build index ((inner.addText text).addChild ⟨name, attributes, start, stop, [], []⟩) outer rest := if_neg shut

end Build

theorem staysOpen_of_sameTag {a b : String} (same : sameTag a b = true) : staysOpen a false = staysOpen b false := by
  rw [sameTag, beq_iff_eq] at same
  rw [staysOpen, staysOpen, same]

theorem builds_shut (gap written : List Char) (name : String) (attributes : List Attribute) (start : Nat) :
    Builds [⟨gap, some (.opening name attributes true), start, written⟩] [⟨name, attributes, []⟩] where
  closed _ index inner outer pieces := by
    refine ⟨[String.ofList gap], [⟨name, attributes, start, start + written.length, [], []⟩], ?_, ?_⟩
    · rw [nodeOutlines_singleton, nodeOutline, nodeOutlines]
    · exact build_shut _ _ _ _ _ _ _ _ (by simp [staysOpen])
  broken open_ := by
    simp [closeEach, Outline.closes] at open_

/-- What is inside an element is built in it if it stays open; if it does not, its closing tag is one too many. -/
theorem Builds.around {inside : List Match} {children : List Outline} (builds : Builds inside children)
    (some_ : children ≠ []) (gap written gap' closing : List Char) (name : String) (attributes : List Attribute)
    (start start' : Nat) :
    Builds (⟨gap, some (.opening name attributes false), start, written⟩ ::
      (inside ++ [⟨gap', some (.closing name), start', closing⟩])) [⟨name, attributes, children⟩] := by
  have closes : closeEach [⟨name, attributes, children⟩] = (staysOpen name false && closeEach children) := by
    have notEmpty : children.isEmpty = false := by simpa using some_
    rw [closeEach, closeEach, Outline.closes, notEmpty, Bool.false_or, Bool.and_true]
  have split (pieces : List Piece) : (⟨gap, some (.opening name attributes false), start, written⟩ ::
      (inside ++ [⟨gap', some (.closing name), start', closing⟩]) : List Match).flatMap Match.pieces ++ pieces =
      .text (String.ofList gap) :: .tag (.opening name attributes false) start (start + written.length) ::
        (inside.flatMap Match.pieces ++ (.text (String.ofList gap') ::
          .tag (.closing name) start' (start' + closing.length) :: pieces)) := by
    simp [Match.pieces, Match.stop]
  constructor
  · intro all index inner outer pieces
    rw [closes, Bool.and_eq_true] at all
    obtain ⟨texts, nodes, same, built⟩ := builds.closed all.2 index ⟨name, attributes, start, start + written.length, [], []⟩
      (inner.addText (String.ofList gap) :: outer)
      (.text (String.ofList gap') :: .tag (.closing name) start' (start' + closing.length) :: pieces)
    refine ⟨[String.ofList gap], [⟨name, attributes, start, start + written.length,
      (String.ofList gap' :: texts).reverse, nodes⟩], ?_, ?_⟩
    · rw [nodeOutlines_singleton, nodeOutline, same]
    · have agree : sameTag name name = true := beq_self_eq_true _
      rw [split, build_stays _ _ _ _ _ _ _ _ all.1, built]
      refine (if_pos agree).trans ?_
      simp [OpenNode.extended, OpenNode.addChild, OpenNode.addText, OpenNode.close]
  · intro open_ index inner outer pieces host
    rw [split]
    by_cases stays : staysOpen name false = true
    · rw [closes, stays, Bool.true_and] at open_
      rw [build_stays _ _ _ _ _ _ _ _ stays]
      exact builds.broken open_ index _ _ _ (.inr stays)
    · -- the element did not open, and its closing tag meets another open element or none
      rw [build_shut _ _ _ _ _ _ _ _ stays]
      cases all : closeEach children with
      | false => exact builds.broken all index _ outer _ host
      | true =>
        obtain ⟨texts, nodes, -, built⟩ := builds.closed all index
          ((inner.addText (String.ofList gap)).addChild ⟨name, attributes, start, start + written.length, [], []⟩) outer
          (.text (String.ofList gap') :: .tag (.closing name) start' (start' + closing.length) :: pieces)
        refine ⟨.unexpectedClosingTag name (index.location start'), ?_⟩
        rw [built]
        cases outer with
        | nil => rfl
        | cons next others =>
          have stays' : staysOpen inner.tag false = true := host.resolve_left (List.cons_ne_nil _ _)
          refine if_neg fun agree => stays ?_
          rw [← staysOpen_of_sameTag agree]
          exact stays'

/-! ### Elements are read as they are written -/

/-- The matches of a text of elements, whatever follows it, and what is built of them. -/
theorem Prints.matches_ {text : List Char} {outlines : List Outline} (prints : Prints text outlines) :
    ∀ {offset : Nat} {rest last : List Char} {others : List Match}, Matches (offset + text.length) rest others last →
      ∃ found, Matches offset (text ++ rest) (found ++ others) last ∧ Builds found outlines := by
  induction prints with
  | nil => exact fun later => ⟨[], later, builds_nil⟩
  | @append text more outlines others prints printsMore ih ihMore =>
    intro offset rest last after later
    rw [List.length_append, ← Nat.add_assoc] at later
    obtain ⟨foundMore, there, buildsMore⟩ := ihMore later
    obtain ⟨found, here, builds⟩ := ih there
    refine ⟨found ++ foundMore, ?_, builds.append buildsMore⟩
    rw [List.append_assoc, List.append_assoc]
    exact here
  | @shut gap written name attributes isGap opening =>
    intro offset rest last after later
    rw [List.length_append, ← Nat.add_assoc] at later
    refine ⟨_, ?_, builds_shut gap written name attributes (offset + gap.length)⟩
    rw [List.append_assoc]
    exact .behindGap isGap (opening rest) later
  | @around gap written text gap' closing name attributes children isGap opening some_ inside isGap' closes ih =>
    intro offset rest last after later
    have shut : Matches (offset + gap.length + written.length + text.length) (gap' ++ (closing ++ rest)) _ last :=
      .behindGap isGap' (closes rest) (by simpa [Nat.add_assoc] using later)
    obtain ⟨found, there, builds⟩ := ih shut
    have all := Matches.behindGap isGap (opening (text ++ (gap' ++ (closing ++ rest)))) there
    refine ⟨_, ?_, builds.around some_ gap written gap' closing name attributes (offset + gap.length)
      (offset + gap.length + written.length + text.length + gap'.length)⟩
    simpa using all

/-- A text of elements is read if nothing is inside a tag that never has content, and only then; what is read are the
elements that are written. -/
theorem scan_eq_ok_iff_closes {text last : List Char} {outlines : List Outline} (prints : Prints text outlines)
    (isGap : IsGap last) (offset : Nat) (source : List Char) :
    ((∃ root, scan (text ++ last) offset source = .ok root) ↔ closeEach outlines = true) ∧
      ∀ root, scan (text ++ last) offset source = .ok root → nodeOutlines root.children = outlines := by
  obtain ⟨found, matches_, builds⟩ := prints.matches_ (matches_gap isGap (offset + text.length))
  rw [List.append_nil] at matches_
  have read : scan (text ++ last) offset source = build (LineIndex.ofText source) ⟨"#root", [], offset, offset, [], []⟩ []
      (found.flatMap Match.pieces ++ [.text (String.ofList last)]) := by
    rw [scan, matches_.pieces]
  rw [read]
  cases all : closeEach outlines with
  | true =>
    obtain ⟨texts, nodes, same, built⟩ := builds.closed all (LineIndex.ofText source) ⟨"#root", [], offset, offset, [], []⟩ []
      [.text (String.ofList last)]
    rw [built]
    refine ⟨iff_of_true ⟨_, rfl⟩ rfl, fun root done => ?_⟩
    cases done
    simp [OpenNode.extended, OpenNode.addText, OpenNode.close, same]
  | false =>
    obtain ⟨failure, failed⟩ := builds.broken all (LineIndex.ofText source) ⟨"#root", [], offset, offset, [], []⟩ []
      [.text (String.ofList last)] (.inl rfl)
    have refused : ∀ root, (Except.error failure : Outcome TemplateNode) ≠ .ok root := by
      intro root done
      cases done
    rw [failed]
    exact ⟨iff_of_false (not_exists.mpr refused) Bool.false_ne_true, fun root done => absurd done (refused root)⟩

end Template

end AnimationCode
