/-
**The tree of a template is that of its tags.**

After some tags of a template others are open: an opening tag opens itself, unless it closes itself or never has content, and
a closing tag closes the innermost. A template is balanced if every closing tag agrees with the tag that it closes and none
stays open. Just then it has a tree; otherwise the first closing tag that does not agree is reported, and if all agree the
innermost tag that is left open.

* `Template.openAfter`: the tags that are open after others;
* `Template.AreMatched`: closing tags that agree with the tags that they close;
* `Template.Lays`: the texts and elements of a tree, laid out between its tags and comments;
* `Template.run_build`: the open elements while a tree is built are the open tags;
* `Template.scan_eq_ok_iff_balanced`: a template has a tree if it is balanced, and the tree is laid out as the template.
-/

import AnimationCode.Proofs.Template.Match
import AnimationCode.Proofs.Text.Position
import AnimationCode.Template.Node

namespace AnimationCode

/-- What an opening tag says, and its interval. -/
structure Template.Heading where
  tag : String
  attributes : List Template.Attribute
  start : Nat
  stop : Nat
deriving DecidableEq

/-- The opening tag of an element. -/
def TemplateNode.heading (node : TemplateNode) : Template.Heading :=
  ⟨node.tag, node.attributes, node.start, node.stop⟩

namespace Template

/-! ### Open tags -/

/-- The opening tag that a match is. -/
def Match.heading? (found : Match) : Option Heading :=
  match found.tag? with
  | some (.opening name attributes _) => some ⟨name, attributes, found.start, found.stop⟩
  | _ => none

/-- The tags that are open after a match, the innermost first. -/
def Match.leaves (found : Match) (opened : List Heading) : List Heading :=
  match found.tag? with
  | some (.opening name attributes selfClosing) =>
    if staysOpen name selfClosing then ⟨name, attributes, found.start, found.stop⟩ :: opened else opened
  | some (.closing _) => opened.tail
  | none => opened

/-- The tags that are open after matches, the innermost first. -/
def openAfter (opened : List Heading) (found : List Match) : List Heading :=
  found.foldl (fun opened one => one.leaves opened) opened

/-- A closing tag agrees with the innermost open tag. -/
def Match.Agrees (found : Match) (opened : List Heading) : Prop :=
  ∀ name, found.tag? = some (.closing name) → ∃ inner ∈ opened.head?, sameTag inner.tag name = true

/-- Every closing tag agrees with the tag that it closes. -/
def AreMatched (opened : List Heading) (found : List Match) : Prop :=
  ∀ before one after, found = before ++ one :: after → one.Agrees (openAfter opened before)

/-- The opening tags of matches, each with the innermost tag that is open before it. -/
def enclosures (opened : List Heading) : List Match → List (Option Heading × Heading)
  | [] => []
  | one :: rest => (one.heading?.map fun heading => (opened.head?, heading)).toList ++ enclosures (one.leaves opened) rest

variable {opened : List Heading} {one : Match} {found before after : List Match}

theorem closing_of_not_agrees (fails : ¬ one.Agrees opened) : ∃ name, one.tag? = some (.closing name) := by
  by_contra noClosing
  exact fails fun name closing => absurd ⟨name, closing⟩ noClosing

theorem openAfter_cons : openAfter opened (one :: found) = openAfter (one.leaves opened) found := rfl

theorem openAfter_append : openAfter opened (before ++ after) = openAfter (openAfter opened before) after :=
  List.foldl_append

theorem areMatched_nil : AreMatched opened [] :=
  fun _ _ _ same => absurd (List.append_eq_nil_iff.mp same.symm).2 (List.cons_ne_nil _ _)

theorem areMatched_cons : AreMatched opened (one :: found) ↔ one.Agrees opened ∧ AreMatched (one.leaves opened) found := by
  constructor
  · intro matched
    exact ⟨matched [] one found rfl, fun before other after same =>
      matched (one :: before) other after (congrArg (one :: ·) same)⟩
  · rintro ⟨agrees, matched⟩ before other after same
    cases before with
    | nil =>
      obtain ⟨rfl, rfl⟩ := List.cons.inj same
      exact agrees
    | cons first before =>
      obtain ⟨rfl, rfl⟩ := List.cons.inj same
      exact matched before other after rfl

/-- Where closing tags do not agree there is a first that does not. -/
theorem exists_unmatched (unmatched : ¬ AreMatched opened found) :
    ∃ before one after, found = before ++ one :: after ∧ AreMatched opened before ∧
      ¬ one.Agrees (openAfter opened before) := by
  induction found generalizing opened with
  | nil => exact absurd areMatched_nil unmatched
  | cons first found ih =>
    by_cases agrees : first.Agrees opened
    · obtain ⟨before, one, after, rfl, matched, fails⟩ := ih fun rest => unmatched (areMatched_cons.mpr ⟨agrees, rest⟩)
      exact ⟨first :: before, one, after, rfl, areMatched_cons.mpr ⟨agrees, matched⟩, fails⟩
    · exact ⟨[], first, found, rfl, areMatched_nil, agrees⟩

theorem enclosures_append :
    enclosures opened (before ++ after) = enclosures opened before ++ enclosures (openAfter opened before) after := by
  induction before generalizing opened with
  | nil => rfl
  | cons first before ih => rw [List.cons_append, enclosures, enclosures, ih, List.append_assoc, openAfter_cons]

/-! ### Building a tree -/

/-- The opening tag of an element whose content is being read. -/
def OpenNode.heading (node : OpenNode) : Heading := ⟨node.tag, node.attributes, node.start, node.stop⟩

/-- The elements whose content is being read are those of the open tags, inside the whole template. -/
def IsOpen (opened : List Heading) (inner : OpenNode) (outer : List OpenNode) : Prop :=
  ∃ root, (inner :: outer).map OpenNode.heading = opened ++ [root]

variable {index : LineIndex} {inner : OpenNode} {outer : List OpenNode}

/-- A match is read into the elements of the tags that are open after it. -/
theorem step_build (index : LineIndex) (isOpen : IsOpen opened inner outer) (agrees : one.Agrees opened) :
    ∃ inner' outer', IsOpen (one.leaves opened) inner' outer' ∧
      ∀ pieces, build index inner outer (one.pieces ++ pieces) = build index inner' outer' pieces := by
  obtain ⟨before, tag?, start, written⟩ := one
  obtain ⟨root, same⟩ := isOpen
  cases tag? with
  | none => exact ⟨inner.addText (String.ofList before), outer, ⟨root, same⟩, fun pieces => rfl⟩
  | some tag =>
    cases tag with
    | opening name attributes selfClosing =>
      by_cases stays : staysOpen name selfClosing = true
      · refine ⟨⟨name, attributes, start, start + written.length, [], []⟩, inner.addText (String.ofList before) :: outer,
          ⟨root, ?_⟩, fun pieces => ?_⟩
        · have left : Match.leaves ⟨before, some (.opening name attributes selfClosing), start, written⟩ opened =
              ⟨name, attributes, start, start + written.length⟩ :: opened := if_pos stays
          rw [left, List.map_cons, List.cons_append, ← same]
          rfl
        · exact if_pos stays
      · refine ⟨_, outer, ⟨root, ?_⟩, fun pieces => if_neg stays⟩
        have left : Match.leaves ⟨before, some (.opening name attributes selfClosing), start, written⟩ opened = opened :=
          if_neg stays
        rw [left, ← same]
        rfl
    | closing name =>
      obtain ⟨heading, first, agree⟩ := agrees name rfl
      obtain ⟨rest, rfl⟩ := List.head?_eq_some_iff.mp first
      cases outer with
      | nil => exact absurd (congrArg List.length same) (by simp)
      | cons next others =>
        obtain ⟨rfl, outside⟩ := List.cons.inj same
        refine ⟨next.addChild (inner.addText (String.ofList before)).close, others, ⟨root, outside⟩, fun pieces => ?_⟩
        exact if_pos agree

/-- Matches are read into the elements of the tags that are open after them. -/
theorem run_build (index : LineIndex) (isOpen : IsOpen opened inner outer) (matched : AreMatched opened found) :
    ∃ inner' outer', IsOpen (openAfter opened found) inner' outer' ∧
      ∀ pieces, build index inner outer (found.flatMap Match.pieces ++ pieces) = build index inner' outer' pieces := by
  induction found generalizing opened inner outer with
  | nil => exact ⟨inner, outer, isOpen, fun pieces => rfl⟩
  | cons one found ih =>
    obtain ⟨agrees, matched⟩ := areMatched_cons.mp matched
    obtain ⟨inner', outer', isOpen', step⟩ := step_build index isOpen agrees
    obtain ⟨inner'', outer'', isOpen'', run⟩ := ih isOpen' matched
    refine ⟨inner'', outer'', isOpen'', fun pieces => ?_⟩
    rw [List.flatMap_cons, List.append_assoc, step, run]

/-- A closing tag that does not agree is reported. -/
theorem build_of_disagreeing (isOpen : IsOpen opened inner outer) {name : String} (closing : one.tag? = some (.closing name))
    (fails : ¬ one.Agrees opened) (pieces : List Piece) :
    build index inner outer (one.pieces ++ pieces) = .error (.unexpectedClosingTag name (index.location one.start)) := by
  obtain ⟨before, tag?, start, written⟩ := one
  obtain rfl : tag? = some (.closing name) := closing
  obtain ⟨root, same⟩ := isOpen
  cases outer with
  | nil => rfl
  | cons next others =>
    refine if_neg fun agree => fails fun other is_ => ?_
    cases is_
    cases opened with
    | nil => exact absurd (congrArg List.length same) (by simp)
    | cons heading rest =>
      obtain ⟨rfl, -⟩ := List.cons.inj same
      exact ⟨_, rfl, agree⟩

/-! ### The layout of a tree -/

/-- A match is the opening tag of an element. -/
def Match.Opens (one : Match) (node : TemplateNode) (selfClosing : Bool) : Prop :=
  one.tag? = some (.opening node.tag node.attributes selfClosing) ∧ one.start = node.start ∧ one.stop = node.stop

/-- Texts and elements laid out between matches: a text before each match and one after the last, and an element from its
opening tag up to its closing tag, or to the end of its opening tag if it stays empty. -/
inductive Lays : List String → List TemplateNode → List Match → List Char → Prop
  | last (text : List Char) : Lays [String.ofList text] [] [] text
  | comment {one : Match} {texts : List String} {children : List TemplateNode} {found : List Match} {text : List Char}
      (isComment : one.tag? = none) (rest : Lays texts children found text) :
      Lays (String.ofList one.before :: texts) children (one :: found) text
  | empty {one : Match} {node : TemplateNode} {selfClosing : Bool} {texts : List String} {children : List TemplateNode}
      {found : List Match} {text : List Char} (opens : one.Opens node selfClosing)
      (shut : staysOpen node.tag selfClosing = false) (noTexts : node.texts = []) (noChildren : node.children = [])
      (rest : Lays texts children found text) :
      Lays (String.ofList one.before :: texts) (node :: children) (one :: found) text
  | around {one closing : Match} {node : TemplateNode} {selfClosing : Bool} {name : String} {texts : List String}
      {children : List TemplateNode} {inside found : List Match} {text : List Char} (opens : one.Opens node selfClosing)
      (stays : staysOpen node.tag selfClosing = true) (content : Lays node.texts node.children inside closing.before)
      (closes : closing.tag? = some (.closing name)) (agree : sameTag node.tag name = true)
      (rest : Lays texts children found text) :
      Lays (String.ofList one.before :: texts) (node :: children) (one :: inside ++ closing :: found) text

/-- An element with more texts and elements inside. -/
def OpenNode.closeWith (node : OpenNode) (texts : List String) (children : List TemplateNode) : TemplateNode :=
  ⟨node.tag, node.attributes, node.start, node.stop, node.texts.reverse ++ texts, node.children.reverse ++ children⟩

theorem OpenNode.closeWith_addText (node : OpenNode) (text : String) (texts : List String) (children : List TemplateNode) :
    (node.addText text).closeWith texts children = node.closeWith (text :: texts) children := by
  simp [closeWith, addText]

theorem OpenNode.closeWith_addChild (node : OpenNode) (child : TemplateNode) (texts : List String)
    (children : List TemplateNode) :
    (node.addChild child).closeWith texts children = node.closeWith texts (child :: children) := by
  simp [closeWith, addChild]

/-- How the open elements are completed by matches: the innermost gets what is laid out up to its closing tag, and is then a
child of the next. -/
def Completes (inner : OpenNode) (outer : List OpenNode) (found : List Match) (last : List Char) (root : TemplateNode) :
    Prop :=
  match outer with
  | [] => ∃ texts children, Lays texts children found last ∧ root = inner.closeWith texts children
  | next :: others => ∃ texts children inside closing name rest, found = inside ++ closing :: rest ∧
      Lays texts children inside closing.before ∧ closing.tag? = some (.closing name) ∧ sameTag inner.tag name = true ∧
      Completes (next.addChild (inner.closeWith texts children)) others rest last root

/-- What is laid out before the rest of an element belongs to the element. -/
theorem Completes.prepend {inner' : OpenNode} {last : List Char} {root : TemplateNode}
    (completes : Completes inner' outer found last root) (inner : OpenNode) (same : inner'.tag = inner.tag)
    (front : List Match) (text : String) (children : List TemplateNode)
    (laid : ∀ {texts others found last}, Lays texts others found last →
      Lays (text :: texts) (children ++ others) (front ++ found) last)
    (closed : ∀ texts others, inner'.closeWith texts others = inner.closeWith (text :: texts) (children ++ others)) :
    Completes inner outer (front ++ found) last root := by
  cases outer with
  | nil =>
    obtain ⟨texts, others, rest, rfl⟩ := completes
    exact ⟨_, _, laid rest, closed texts others⟩
  | cons next others =>
    obtain ⟨texts, within, inside, closing, name, rest, rfl, content, closes, agree, completes⟩ := completes
    rw [closed] at completes
    rw [same] at agree
    exact ⟨_, _, front ++ inside, closing, name, rest, (List.append_assoc _ _ _).symm, laid content, closes, agree,
      completes⟩

/-- A tree that is built is laid out by the matches from which it is built. -/
theorem completes_of_build {last : List Char} {root : TemplateNode}
    (built : build index inner outer (found.flatMap Match.pieces ++ [.text (String.ofList last)]) = .ok root) :
    Completes inner outer found last root := by
  -- By induction on the matches for all open elements: each match adds to the innermost, or changes which is the innermost.
  induction found generalizing inner outer with
  | nil =>
    cases outer with
    | nil =>
      refine ⟨_, _, .last last, ?_⟩
      rw [← Except.ok.inj built, ← OpenNode.closeWith_addText]
      simp [OpenNode.closeWith, OpenNode.close]
    | cons next others => cases built
  | cons one found ih =>
    rw [List.flatMap_cons, List.append_assoc] at built
    obtain ⟨before, tag?, start, written⟩ := one
    cases tag? with
    | none =>
      exact (ih built).prepend inner rfl [_] _ [] (fun rest => .comment rfl rest) (inner.closeWith_addText _)
    | some tag =>
      cases tag with
      | opening name attributes selfClosing =>
        rw [Match.pieces] at built
        let opening : Match := ⟨before, some (.opening name attributes selfClosing), start, written⟩
        have opens : ∀ texts children,
            opening.Opens ⟨name, attributes, start, start + written.length, texts, children⟩ selfClosing :=
          fun _ _ => ⟨rfl, rfl, rfl⟩
        have closed : ∀ child texts others, ((inner.addText (String.ofList before)).addChild child).closeWith texts others =
            inner.closeWith (String.ofList before :: texts) ([child] ++ others) := fun child texts others => by
          rw [OpenNode.closeWith_addChild, OpenNode.closeWith_addText, List.singleton_append]
        by_cases stays : staysOpen name selfClosing = true
        · have inside : build index ⟨name, attributes, start, start + written.length, [], []⟩
              (inner.addText (String.ofList before) :: outer) (found.flatMap Match.pieces ++ [.text (String.ofList last)]) =
              .ok root := (if_pos stays).symm.trans built
          obtain ⟨texts, children, content, closing, other, rest, rfl, laid, closes, agree, completes⟩ := ih inside
          have whole := completes.prepend inner rfl (opening :: content ++ [closing]) (String.ofList before) [_]
            (fun later => by
              rw [List.append_assoc]
              exact .around (opens texts children) stays laid closes agree later) (closed _)
          rwa [List.append_assoc] at whole
        · have next : build index ((inner.addText (String.ofList before)).addChild
              (OpenNode.close ⟨name, attributes, start, start + written.length, [], []⟩)) outer
              (found.flatMap Match.pieces ++ [.text (String.ofList last)]) = .ok root := (if_neg stays).symm.trans built
          exact (ih next).prepend inner rfl [opening] (String.ofList before) [_]
            (fun later => .empty (opens [] []) (Bool.eq_false_iff.mpr stays) rfl rfl later) (closed _)
      | closing name =>
        cases outer with
        | nil => cases built
        | cons next others =>
          by_cases agree : sameTag inner.tag name = true
          · have later : build index (next.addChild (inner.addText (String.ofList before)).close) others
                (found.flatMap Match.pieces ++ [.text (String.ofList last)]) = .ok root := (if_pos agree).symm.trans built
            refine ⟨_, _, [], _, name, found, rfl, .last before, rfl, agree, ?_⟩
            rw [← OpenNode.closeWith_addText]
            simpa [OpenNode.closeWith, OpenNode.close] using ih later
          · exact absurd ((if_neg agree).symm.trans built) (by simp)

/-! ### The tags of a tree in document order -/

mutual

/-- The opening tags of an element and of the elements inside it in document order, each with the tag around it. -/
def nodeEnclosures (around : Option Heading) : TemplateNode → List (Option Heading × Heading)
  | ⟨tag, attributes, start, stop, _, children⟩ =>
    (around, ⟨tag, attributes, start, stop⟩) :: childEnclosures (some ⟨tag, attributes, start, stop⟩) children

/-- The opening tags of elements and of the elements inside them. -/
def childEnclosures (around : Option Heading) : List TemplateNode → List (Option Heading × Heading)
  | [] => []
  | node :: others => nodeEnclosures around node ++ childEnclosures around others

end

theorem nodeEnclosures_eq (around : Option Heading) (node : TemplateNode) :
    nodeEnclosures around node = (around, node.heading) :: childEnclosures (some node.heading) node.children := by
  cases node
  rw [nodeEnclosures, TemplateNode.heading]

theorem Match.Opens.heading? {node : TemplateNode} {selfClosing : Bool} (opens : one.Opens node selfClosing) :
    one.heading? = some node.heading := by
  obtain ⟨tag, start, stop⟩ := opens
  rw [Match.heading?, tag, TemplateNode.heading]
  dsimp only
  rw [start, stop]

theorem Match.Opens.leaves {node : TemplateNode} {selfClosing : Bool} (opens : one.Opens node selfClosing) :
    one.leaves opened = if staysOpen node.tag selfClosing then node.heading :: opened else opened := by
  obtain ⟨tag, start, stop⟩ := opens
  rw [Match.leaves, tag, TemplateNode.heading]
  dsimp only
  rw [start, stop]

/-- The opening tags of what is laid out are its elements in document order, each inside its parent, and none stays open. -/
theorem Lays.enclosures {texts : List String} {children : List TemplateNode} {text : List Char}
    (lays : Lays texts children found text) (opened : List Heading) :
    enclosures opened found = childEnclosures opened.head? children ∧ openAfter opened found = opened := by
  induction lays generalizing opened with
  | last text => exact ⟨by rw [Template.enclosures, childEnclosures], rfl⟩
  | @comment one texts children found text isComment rest ih =>
    have none_ : one.heading? = none := by rw [Match.heading?, isComment]
    have same : one.leaves opened = opened := by rw [Match.leaves, isComment]
    rw [Template.enclosures, openAfter_cons, none_, same]
    exact ih opened
  | empty opens shut noTexts noChildren rest ih =>
    rw [Template.enclosures, openAfter_cons, opens.heading?, opens.leaves, shut, if_neg Bool.false_ne_true, (ih opened).1,
      (ih opened).2, childEnclosures, nodeEnclosures_eq, noChildren, childEnclosures]
    exact ⟨rfl, rfl⟩
  | @around one closing node selfClosing name texts children inside found text opens stays content closes agree rest ihInside
      ih =>
    have none_ : closing.heading? = none := by rw [Match.heading?, closes]
    have same : closing.leaves (node.heading :: opened) = opened := by
      rw [Match.leaves, closes]
      rfl
    obtain ⟨insideTags, insideOpen⟩ := ihInside (node.heading :: opened)
    obtain ⟨laterTags, laterOpen⟩ := ih opened
    rw [List.cons_append, Template.enclosures, openAfter_cons, opens.heading?, opens.leaves, stays, if_pos rfl,
      enclosures_append, openAfter_append, insideTags, insideOpen, Template.enclosures, openAfter_cons, none_, same,
      laterTags, laterOpen, childEnclosures, nodeEnclosures_eq]
    exact ⟨rfl, rfl⟩

/-! ### Balanced templates -/

section Scan

variable {markup last : List Char} {offset : Nat}

theorem isOpen_root (offset : Nat) : IsOpen [] ⟨"#root", [], offset, offset, [], []⟩ [] :=
  ⟨⟨"#root", [], offset, offset⟩, rfl⟩

/-- The first closing tag that does not agree is reported. -/
theorem scan_of_disagreeing (source : List Char) (matches_ : Matches offset markup (before ++ one :: after) last)
    {name : String} (closing : one.tag? = some (.closing name)) (matched : AreMatched [] before)
    (fails : ¬ one.Agrees (openAfter [] before)) :
    scan markup offset source = .error (.unexpectedClosingTag name (Location.ofOffset source one.start)) := by
  obtain ⟨inner, outer, isOpen, run⟩ := run_build (LineIndex.ofText source) (isOpen_root offset) matched
  rw [scan, matches_.pieces, List.flatMap_append, List.append_assoc, run, List.flatMap_cons, List.append_assoc,
    build_of_disagreeing isOpen closing fails, LineIndex.location_ofText]

/-- If all closing tags agree, only the text after the last tag is left to be read. -/
theorem scan_of_matched (source : List Char) (matches_ : Matches offset markup found last) (matched : AreMatched [] found) :
    ∃ inner outer, IsOpen (openAfter [] found) inner outer ∧
      scan markup offset source = build (LineIndex.ofText source) inner outer [.text (String.ofList last)] := by
  obtain ⟨inner, outer, isOpen, run⟩ := run_build (LineIndex.ofText source) (isOpen_root offset) matched
  exact ⟨inner, outer, isOpen, by rw [scan, matches_.pieces, run]⟩

/-- The innermost tag that stays open is reported. -/
theorem scan_of_open (source : List Char) (matches_ : Matches offset markup found last) (matched : AreMatched [] found)
    {heading : Heading} {others : List Heading} (stays : openAfter [] found = heading :: others) :
    scan markup offset source = .error (.unclosedTag heading.tag (Location.ofOffset source heading.start)) := by
  obtain ⟨inner, outer, ⟨root, same⟩, run⟩ := scan_of_matched source matches_ matched
  rw [stays] at same
  cases outer with
  | nil => exact absurd (congrArg List.length same) (by simp)
  | cons next rest =>
    obtain ⟨rfl, -⟩ := List.cons.inj same
    rw [run, ← LineIndex.location_ofText]
    rfl

/-- A balanced template has a tree. -/
theorem scan_of_balanced (source : List Char) (matches_ : Matches offset markup found last) (matched : AreMatched [] found)
    (shut : openAfter [] found = []) : ∃ root, scan markup offset source = .ok root := by
  obtain ⟨inner, outer, ⟨root, same⟩, run⟩ := scan_of_matched source matches_ matched
  rw [shut] at same
  cases outer with
  | nil => exact ⟨_, run⟩
  | cons next rest => exact absurd (congrArg List.length same) (by simp)

/-- A template that has a tree is balanced. -/
theorem balanced_of_scan {source : List Char} {root : TemplateNode} (matches_ : Matches offset markup found last)
    (read : scan markup offset source = .ok root) : AreMatched [] found ∧ openAfter [] found = [] := by
  have matched : AreMatched [] found := by
    by_contra unmatched
    obtain ⟨before, one, after, rfl, matched, fails⟩ := exists_unmatched unmatched
    obtain ⟨name, closing⟩ := closing_of_not_agrees fails
    rw [scan_of_disagreeing source matches_ closing matched fails] at read
    cases read
  refine ⟨matched, ?_⟩
  cases opened : openAfter [] found with
  | nil => rfl
  | cons heading others =>
    rw [scan_of_open source matches_ matched opened] at read
    cases read

end Scan

/-- A template is read into a tree just if each closing tag agrees with the innermost open tag and no tag stays open. If not,
the first closing tag that does not agree is reported, or else the innermost tag that stays open. In document order the
elements of the tree are the opening tags, each inside the innermost tag that is open before it, and the texts of the tree
between the tags are the template. -/
theorem scan_eq_ok_iff_balanced (markup source : List Char) (offset : Nat) :
    (∃ found last, Matches offset markup found last) ∧
    ∀ found last, Matches offset markup found last →
      allWritten found ++ last = markup ∧
      (∀ before one after, found = before ++ one :: after → one.start = offset + (allWritten before ++ one.before).length) ∧
      ((∃ root, scan markup offset source = .ok root) ↔ AreMatched [] found ∧ openAfter [] found = []) ∧
      (∀ before one after name, found = before ++ one :: after → one.tag? = some (.closing name) → AreMatched [] before →
        ¬ one.Agrees (openAfter [] before) →
        scan markup offset source = .error (.unexpectedClosingTag name (Location.ofOffset source one.start))) ∧
      (∀ inner outer, AreMatched [] found → openAfter [] found = inner :: outer →
        scan markup offset source = .error (.unclosedTag inner.tag (Location.ofOffset source inner.start))) ∧
      ∀ root, scan markup offset source = .ok root →
        root.heading = ⟨"#root", [], offset, offset⟩ ∧ childEnclosures none root.children = enclosures [] found ∧
        Lays root.texts root.children found last := by
  refine ⟨exists_matches offset markup, fun found last matches_ => ?_⟩
  refine ⟨matches_.written, fun _ _ _ => matches_.start_eq, ⟨?_, ?_⟩, ?_, ?_, ?_⟩
  · rintro ⟨root, read⟩
    exact balanced_of_scan matches_ read
  · rintro ⟨matched, shut⟩
    exact scan_of_balanced source matches_ matched shut
  · rintro before one after name rfl closing matched fails
    exact scan_of_disagreeing source matches_ closing matched fails
  · intro inner outer matched stays
    exact scan_of_open source matches_ matched stays
  · intro root read
    rw [scan, matches_.pieces] at read
    obtain ⟨texts, children, lays, rfl⟩ := completes_of_build read
    exact ⟨rfl, (lays.enclosures []).1.symm, lays⟩

end Template

end AnimationCode
