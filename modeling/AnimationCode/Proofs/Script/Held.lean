/-
**What elements of markup hold.**

Of what is written as markup, the elements are found again with what their attributes say. Elements that are not animated
and names between braces hold nothing of their own.

* `Hold`: nodes hold a forest wherever their text is;
* `IsMotionTag`, `exists_motion`: the motion of a tag;
* `isElement_selfClosing`, `isElement_motion`, `isElement_plain`, `isElement_fragment`: an element by the grammar with what
  was written in it;
* `IsContent.child`, `IsContent.slot`: what stands between two tags;
* `hold_return`: a statement that returns an element.
-/

import AnimationCode.Proofs.Element.Forest
import AnimationCode.Proofs.Outcome
import AnimationCode.Proofs.Script.Returned
import AnimationCode.Proofs.Text.Split

namespace AnimationCode

namespace Script

open Reader

namespace Markup

/-! ### What nodes hold -/

open AnimationCode.Markup (Fragment collect collectOne motion motionTag?)

theorem collect_append (fragment : Fragment) {first second : List Node} {a b : Found}
    (holdsFirst : collect fragment first = .ok a) (holdsSecond : collect fragment second = .ok b) :
    collect fragment (first ++ second) = .ok (a.append b) := by
  induction first generalizing a with
  | nil =>
    rw [collect] at holdsFirst
    obtain rfl : Found.nothing = a := Except.ok.inj holdsFirst
    rw [List.nil_append, holdsSecond]
    simp [Found.append, Found.nothing]
  | cons node rest ih =>
    rw [collect] at holdsFirst
    obtain ⟨one, here, remaining⟩ := Outcome.bind_eq_ok.mp holdsFirst
    obtain ⟨more, there, same⟩ := Outcome.bind_eq_ok.mp remaining
    obtain rfl : one.append more = a := Except.ok.inj same
    rw [List.cons_append, collect, here, ih there]
    show Except.ok (one.append (more.append b)) = _
    simp [Found.append, Nat.add_assoc]

mutual

/-- Nothing is found in a tree without elements. -/
theorem collectOne_of_avoids (fragment : Fragment) (node : Node) (avoids : node.Avoids Node.elementKinds) :
    collectOne fragment node = .ok Found.nothing := by
  obtain ⟨kind, role, span, children⟩ := node
  have inner := collect_of_avoids fragment children fun child member => avoids.child member
  have free : kind ∉ Node.elementKinds := avoids.kind
  unfold collectOne
  split
  · rfl
  · rfl
  · exact absurd (by decide) free
  · exact absurd (by decide) free
  · exact inner

theorem collect_of_avoids (fragment : Fragment) (nodes : List Node)
    (avoid : ∀ node ∈ nodes, node.Avoids Node.elementKinds) :
    collect fragment nodes = .ok Found.nothing := by
  match nodes with
  | [] => rw [collect]
  | node :: rest =>
    rw [collect, collectOne_of_avoids fragment node (avoid node List.mem_cons_self),
      collect_of_avoids fragment rest fun other member => avoid other (List.mem_cons_of_mem _ member)]
    rfl

end

/-- Nodes hold a forest wherever their text is. -/
def Hold (forest : Forest) (text : List Char) (n : Nat) (nodes : List Node) : Prop :=
  ∀ source wrapped, Holds source n text →
    ∃ found, collect ⟨source, wrapped⟩ nodes = .ok found ∧ Forest.Mirrors found.elements forest

theorem Hold.append {first second : Forest} {text more : List Char} {n : Nat} {nodes others : List Node}
    (hold : Hold first text n nodes) (holdMore : Hold second more (n + text.length) others) :
    Hold (first ++ second) (text ++ more) n (nodes ++ others) := by
  intro source wrapped holds
  obtain ⟨found, here, mirrors⟩ := hold source wrapped holds.left
  obtain ⟨foundMore, there, mirrorsMore⟩ := holdMore source wrapped holds.right
  exact ⟨_, collect_append _ here there, mirrors.append mirrorsMore⟩

theorem hold_nothing {nodes : List Node} (avoid : ∀ node ∈ nodes, node.Avoids Node.elementKinds)
    (text : List Char) (n : Nat) : Hold [] text n nodes := fun _ _ _ =>
  ⟨_, collect_of_avoids _ nodes avoid, List.Forall₂.nil⟩

theorem collect_single {fragment : Fragment} {node : Node} {found : Found}
    (one : collectOne fragment node = .ok found) : collect fragment [node] = .ok found := by
  rw [collect, one, collect]
  show Except.ok (found.append Found.nothing) = _
  simp [Found.append, Found.nothing]

theorem collectOne_selfClosing {fragment : Fragment} {role : Role} {span : Span} {children : List Node}
    {found : Motion} {warnings : List String}
    (here : motion fragment (.mk .selfClosingTag role span children) = .ok (some found, warnings)) :
    collectOne fragment (.mk .selfClosingTag role span children) = .ok ⟨[⟨found, []⟩], 0, warnings⟩ := by
  unfold collectOne
  dsimp only
  rw [here]
  rfl

theorem collectOne_element {fragment : Fragment} {role : Role} {span : Span} {children : List Node}
    {found : Motion} {warnings : List String} {inner : Found}
    (here : motion fragment (.mk .element role span children) = .ok (some found, warnings))
    (inside : collect fragment children = .ok inner) :
    collectOne fragment (.mk .element role span children) =
      .ok ⟨[⟨{ found with plainMarkup := inner.plainMarkup }, inner.elements⟩], 0, warnings ++ inner.warnings⟩ := by
  unfold collectOne
  dsimp only
  rw [here, inside]
  rfl

/-- An element that is not animated holds what its children do. -/
theorem collectOne_plain {fragment : Fragment} {role : Role} {span : Span} {children : List Node}
    {warnings : List String} {inner : Found}
    (here : motion fragment (.mk .element role span children) = .ok (none, warnings))
    (inside : collect fragment children = .ok inner) :
    ∃ found, collectOne fragment (.mk .element role span children) = .ok found ∧ found.elements = inner.elements := by
  unfold collectOne
  dsimp only
  rw [here, inside]
  exact ⟨_, rfl, rfl⟩

/-- A node holds what its children do, unless it is an element or a tag. -/
theorem Hold.mk {forest : Forest} {text whole : List Char} {n m : Nat} {children : List Node}
    (hold : Hold forest text m children) {kind : Kind}
    (other : kind ∉ [.openingTag, .closingTag, .element, .selfClosingTag])
    (inside : ∀ source, Holds source n whole → Holds source m text) (role : Role) (span : Span) :
    Hold forest whole n [.mk kind role span children] := by
  intro source wrapped holds
  obtain ⟨found, here, mirrors⟩ := hold source wrapped (inside source holds)
  refine ⟨found, ?_, mirrors⟩
  have one : collectOne ⟨source, wrapped⟩ (.mk kind role span children) = .ok found := by
    unfold collectOne
    split
    · exact absurd (by decide) other
    · exact absurd (by decide) other
    · exact absurd (by decide) other
    · exact absurd (by decide) other
    · exact here
  exact collect_single one

/-! ### The motion of a tag -/

/-- What attributes add to a motion of a tag from some place on. -/
def addedFrom (tag : String) (place : Option Location) (said : List (List Char × Value)) : Motion :=
  (addedAttributes ({ Motion.ofTag tag with location? := place }, []) said).1

/-- The tag of a motion, whose attributes say what the motion does. -/
structure IsMotionTag (tag : TagText) (written : Motion) : Prop where
  name : tag.name = "motion.".toList ++ written.tag.toList
  agrees : ∃ said, Say tag.items said ∧ ∀ place,
    (addedFrom written.tag place said).phases ≠ [] ∧ (addedFrom written.tag place said).Agrees written

theorem motionTag?_motion (tag : List Char) : motionTag? ("motion.".toList ++ tag) = some (String.ofList tag) := by
  rw [motionTag?, AnimationCode.Markup.namespaces, List.findSome?_cons, Text.stripStart?_append]
  rfl

namespace TagText.Fits

variable {tag : TagText} {n : Nat} {nodes : List Node} {source : List Char}

theorem named (fits : tag.Fits n nodes) (kind : Kind) (role : Role) (span : Span) :
    (Node.mk kind role span nodes).named = nodes := by
  obtain ⟨title, attributes, rfl, -, kind_, have_⟩ := fits
  have all : ∀ (items : List AttributeText) (m : Nat) (found : List Node), HaveAttributes tag.gap items m found →
      ∀ node ∈ found, node.kind.isNamed = true := by
    intro items
    induction items with
    | nil =>
      rintro m found rfl node member
      cases member
    | cons item rest ih =>
      rintro m found ⟨first, others, rfl, ⟨tree, -, rfl⟩, more⟩ node member
      rcases List.mem_cons.mp member with rfl | among
      · rfl
      · exact ih _ _ more node among
  refine List.filter_eq_self.mpr fun node member => ?_
  rcases List.mem_cons.mp member with rfl | among
  · rw [Node.kind_as]
    simp only [List.mem_cons, List.not_mem_nil, or_false] at kind_
    rcases kind_ with same | same <;> rw [same] <;> rfl
  · exact all _ _ _ have_ node among

/-- The name of the tag. -/
theorem name (fits : tag.Fits n nodes) (holds : Holds source n tag.head) (kind : Kind) (role : Role) (span : Span) :
    ∃ title, (Node.mk kind role span nodes).child? .name = some title ∧ title.text source = tag.name := by
  obtain ⟨title, attributes, rfl, span_, -, -⟩ := fits
  refine ⟨title.as .name, ?_, ?_⟩
  · have role_ : ((title.as .name).role == .name) = true := by
      rw [Node.role_as]
      decide
    rw [Node.child?, Node.children, List.find?_cons, role_]
  · rw [Node.text_as]
    exact holds.right.left.text_eq title span_

/-- What the attributes of the tag make of a motion. -/
theorem added (fits : tag.Fits n nodes) {said : List (List Char × Value)} (say : Say tag.items said)
    (holds : Holds source n tag.head) (wrapped : Nat) (start : Motion) :
    AnimationCode.Markup.addAttributes ⟨source, wrapped⟩ start [] nodes =
      .ok (addedAttributes (start, []) said) := by
  obtain ⟨title, attributes, rfl, -, kind, have_⟩ := fits
  have passed : AnimationCode.Markup.addAttributes ⟨source, wrapped⟩ start [] (title.as .name :: attributes) =
      AnimationCode.Markup.addAttributes ⟨source, wrapped⟩ start [] attributes := by
    simp only [List.mem_cons, List.not_mem_nil, or_false] at kind
    rcases kind with same | same <;> rw [AnimationCode.Markup.addAttributes, Node.kind_as, same]
  rw [passed]
  exact addAttributes_of_have say have_ source wrapped holds.right.right start []

end TagText.Fits

/-- The motion of an element that has a tag with phases. -/
theorem exists_motion {tag : TagText} {written : Motion} (isMotionTag : IsMotionTag tag written) {n : Nat}
    {nodes : List Node} (fits : tag.Fits n nodes) {source : List Char} (holds : Holds source n tag.head)
    (wrapped : Nat) (node : Node) {kind : Kind} {role : Role} {span : Span}
    (opens : AnimationCode.Markup.openingTag? node = some (.mk kind role span nodes)) :
    ∃ found warnings, motion ⟨source, wrapped⟩ node = .ok (some found, warnings) ∧ found.Agrees written := by
  obtain ⟨title, child, text⟩ := fits.name holds kind role span
  have tag_ : (((Node.mk kind role span nodes).child? .name).bind fun name => motionTag? (name.text source)) =
      some written.tag := by
    rw [child, Option.bind_some, text, isMotionTag.name, motionTag?_motion, String.ofList_toList]
  obtain ⟨said, say, written_⟩ := isMotionTag.agrees
  obtain ⟨some_, agrees⟩ := written_ (some ((⟨source, wrapped⟩ : Fragment).location (.mk kind role span nodes)))
  rw [addedFrom] at some_ agrees
  have added := fits.added say holds wrapped { Motion.ofTag written.tag with
    location? := some ((⟨source, wrapped⟩ : Fragment).location (.mk kind role span nodes)) }
  cases made : addedAttributes ({ Motion.ofTag written.tag with
      location? := some ((⟨source, wrapped⟩ : Fragment).location (.mk kind role span nodes)) }, []) said with
  | mk found warnings =>
    rw [made] at some_ agrees added
    dsimp only at some_ agrees
    have some__ : found.phases.isEmpty = false := List.isEmpty_eq_false_iff.mpr some_
    rw [motion, opens]
    dsimp only
    rw [tag_]
    dsimp only
    rw [fits.named, added]
    show ∃ found_ warnings_, (if found.phases.isEmpty = true then _ else _) = _ ∧ _
    rw [some__, if_neg Bool.false_ne_true]
    dsimp only
    split
    · exact ⟨_, _, rfl, ⟨agrees.phases, agrees.reducedMotion⟩, agrees.tag⟩
    · exact ⟨_, _, rfl, ⟨agrees.phases, agrees.reducedMotion⟩, agrees.tag⟩

/-! ### Elements with what was written in them -/

variable {forest : Forest}

/-- A text is an element by the grammar that holds a forest. -/
def IsElement (forest : Forest) (text : List Char) : Prop := Derives .element text (Hold forest text)

/-- A text is the content of an element by the grammar, and holds a forest. -/
def IsContent (forest : Forest) (text : List Char) : Prop := Derives .content text (Hold forest text)

/-- A tag that closes itself. -/
theorem isElement_selfClosing {tag : TagText} (isMember : IsMemberName tag.name) (derived : tag.IsDerived) {written : Motion}
    (isMotionTag : IsMotionTag tag written) : IsElement [⟨written, []⟩] tag.selfClosing := by
  refine (Derives.selfClosing isMember derived).weaken ?_
  rintro n all ⟨nodes, rfl, fits⟩ source wrapped holds
  obtain ⟨motion_, warnings, here, agrees⟩ := exists_motion isMotionTag fits holds.left wrapped
    (.mk .selfClosingTag .plain ⟨n, n + tag.selfClosing.length⟩ nodes) rfl
  exact ⟨_, collect_single (collectOne_selfClosing here),
    List.Forall₂.cons ⟨agrees, List.Forall₂.nil⟩ List.Forall₂.nil⟩

theorem collect_enclosed {fragment : Fragment} {forest : Forest} {found : Found} (span : Span)
    (nodes : List Node) {inner : List Node} {closing : Node} (kind : closing.kind = .closingTag)
    (inside : collect fragment inner = .ok found) (mirrors : Forest.Mirrors found.elements forest) :
    ∃ all, collect fragment (.mk .openingTag .openTag span nodes :: inner ++ [closing]) = .ok all ∧
      Forest.Mirrors all.elements forest := by
  have opening_ : collect fragment [.mk .openingTag .openTag span nodes] = .ok Found.nothing :=
    collect_single (by unfold collectOne; rfl)
  have closing_ : collect fragment [closing] = .ok Found.nothing := by
    refine collect_single ?_
    obtain ⟨kind_, role, span, children⟩ := closing
    obtain rfl : kind_ = .closingTag := kind
    unfold collectOne
    rfl
  refine ⟨_, collect_append fragment (collect_append fragment opening_ inside) closing_, ?_⟩
  simpa [Found.append, Found.nothing] using mirrors

/-- An animated element with content. -/
theorem isElement_motion {tag : TagText} (isMember : IsMemberName tag.name) (derived : tag.IsDerived) {written : Motion}
    (isMotionTag : IsMotionTag tag written) {children : Forest} {inside : List Char}
    (isContent : IsContent children inside) {gap : List Char} (isGap : IsGap gap) :
    IsElement [⟨written, children⟩] (tag.around inside gap) := by
  refine (Derives.enclosed isMember derived isContent isGap).weaken ?_
  rintro n all ⟨nodes, found, closing, stop, rfl, fits, kind, hold⟩ source wrapped holds
  obtain ⟨motion_, warnings, here, agrees⟩ := exists_motion isMotionTag fits holds.left.left wrapped
    (.mk .element .plain ⟨n, n + (tag.around inside gap).length⟩
      (.mk .openingTag .openTag ⟨n, stop⟩ nodes :: found ++ [closing])) rfl
  obtain ⟨inner, there, mirrors⟩ := hold source wrapped holds.right.left
  obtain ⟨whole, collected, mirrorsAll⟩ := collect_enclosed ⟨n, stop⟩ nodes kind there mirrors
  exact ⟨_, collect_single (collectOne_element here collected),
    List.Forall₂.cons ⟨⟨⟨agrees.phases, agrees.reducedMotion⟩, agrees.tag⟩, mirrorsAll⟩ List.Forall₂.nil⟩

/-- An element that is not animated holds what its content does. -/
theorem hold_of_plain {head endGap inside gap name : List Char} {Head : Nat → List Node → Prop}
    {n : Nat} {all : List Node} (enclosed : IsEnclosed head endGap inside gap name Head (Hold forest inside) n all)
    (plain : ∀ nodes source wrapped, Head n nodes → Holds source n head → ∀ whole stop rest,
      motion ⟨source, wrapped⟩ (.mk .element .plain whole (.mk .openingTag .openTag ⟨n, stop⟩ nodes :: rest)) =
        .ok (none, [])) :
    Hold forest (enclosedText head endGap inside gap name) n all := by
  intro source wrapped holds
  obtain ⟨nodes, found, closing, stop, rfl, fits, kind, hold⟩ := enclosed
  obtain ⟨inner, there, mirrors⟩ := hold source wrapped holds.right.left
  obtain ⟨whole, collected, mirrorsAll⟩ := collect_enclosed ⟨n, stop⟩ nodes kind there mirrors
  obtain ⟨outer, one, same⟩ := collectOne_plain (plain nodes source wrapped fits holds.left.left
    ⟨n, n + (enclosedText head endGap inside gap name).length⟩ stop (found ++ [closing])) collected
  exact ⟨outer, collect_single one, same ▸ mirrorsAll⟩

/-- An element whose tag is not animated. -/
theorem isElement_plain {name : List Char} (isTagWord : IsTagWord name) (plain : motionTag? name = none)
    {inside : List Char} (isContent : IsContent forest inside) {gap : List Char} (isGap : IsGap gap) :
    IsElement forest (enclosedText ('<' :: name) [] inside gap name) := by
  refine (Derives.wrapper isTagWord isContent isGap).weaken fun n all enclosed => hold_of_plain enclosed ?_
  rintro nodes source wrapped ⟨title, rfl, span, -⟩ holds whole stop rest
  have text : title.text source = name :=
    (show Holds source n (['<'] ++ name) from holds).right.text_eq title span
  have opens : AnimationCode.Markup.openingTag? (.mk .element .plain whole
      (.mk .openingTag .openTag ⟨n, stop⟩ [title.as .name] :: rest)) =
        some (.mk .openingTag .openTag ⟨n, stop⟩ [title.as .name]) := rfl
  have child : (Node.mk .openingTag .openTag ⟨n, stop⟩ [title.as .name]).child? .name = some (title.as .name) := by
    simp [Node.child?, Node.children]
  have none_ : (((Node.mk .openingTag .openTag ⟨n, stop⟩ [title.as .name]).child? .name).bind fun name =>
      motionTag? (name.text source)) = none := by
    rw [child, Option.bind_some, Node.text_as, text]
    exact plain
  rw [motion, opens]
  dsimp only
  rw [none_]

/-- Elements side by side, without a tag of their own. -/
theorem isElement_fragment {inside : List Char} (isContent : IsContent forest inside) {gap : List Char} (isGap : IsGap gap) :
    IsElement forest (enclosedText ['<'] [] inside gap []) := by
  refine (Derives.fragment isContent isGap).weaken fun n all enclosed => hold_of_plain enclosed ?_
  rintro nodes source wrapped rfl holds whole stop rest
  rfl

/-! ### Content -/

theorem isContent_nil : IsContent [] [] :=
  Derives.nothing.weaken fun _ _ none_ => none_ ▸ hold_nothing (List.forall_mem_nil _) _ _

/-- An element on a line of its own before other content. -/
theorem IsContent.child {others : Forest} {text more gap : List Char} (isElement : IsElement forest text) (isGap : IsGap gap)
    (isContent : IsContent others more) : IsContent (forest ++ others) (gap ++ text ++ more) := by
  refine (Derives.child isGap isElement isContent).weaken ?_
  rintro n all ⟨here, later, rfl, hold, holdMore⟩
  have held : Hold forest (gap ++ text) n here := fun source wrapped holds => hold source wrapped holds.right
  exact held.append holdMore

/-- A name between braces on a line of its own before other content. -/
theorem IsContent.slot {name more gap : List Char} (isIdentifier : IsIdentifier name) (isGap : IsGap gap)
    (isContent : IsContent forest more) : IsContent forest (gap ++ bracedText name ++ more) := by
  refine (Derives.slot isGap isIdentifier isContent).weaken ?_
  rintro n all ⟨later, rfl, holdMore⟩
  have silent : Hold [] (gap ++ bracedText name) n [.mk .container .plain ⟨n + gap.length, n + gap.length +
      (bracedText name).length⟩ [leaf .identifier (n + gap.length + 1) name.length]] := by
    refine hold_nothing (List.forall_mem_singleton.mpr ?_) _ n
    exact Node.avoids_mk (by decide) (List.forall_mem_singleton.mpr (Node.avoids_leaf _ _ (by decide)))
  exact silent.append holdMore

/-! ### Statements -/

/-- A statement that returns an element holds what the element does. -/
theorem hold_return {text gap close : List Char} {n : Nat} {node : Node}
    (isReturn : IsReturn gap text close (Hold forest text) n node) : Hold forest (returnText gap text close) n [node] := by
  obtain ⟨_, rfl, _, rfl, _, rfl, inner, rfl, hold⟩ := isReturn
  have inside : Hold forest (parenthesizedText gap text close) (n + 7)
      [.mk .parenthesized .plain ⟨n + 7, n + 7 + (parenthesizedText gap text close).length⟩ [inner]] :=
    hold.mk (by decide) (fun source holds => holds.right.left.right) _ _
  exact inside.mk (by decide) (fun source holds => holds.right.left.right) _ _

end Markup

end Script

end AnimationCode
