/-
**What becomes of the bodies of elements in another framework.**

Between the tags of an animated element text is kept if it stands alone. Beside anything else only the animated elements
are kept, and the others are counted. Text alone in an element is its text in another framework too, and the animated
elements in it are inside it there. Other elements are counted, and their number is reported at the place of the element.
What is left is lost: expressions, and text beside anything else, where there is neither an animated element in them nor
another element in the same body.

* `Markup.body`, `Markup.speaks`: the children between the tags, and those that say something;
* `Markup.words_content?`: the words of an element that has nothing but text in it;
* `Markup.exists_of_mem_collect`: what was found in one of several nodes lies among all that was found;
* `Markup.Carries`, `Markup.Reports`, `Markup.Loses`: the three that may become of a child that says something;
* `Component.exists_limitation_convert`: the elements that are counted are reported;
* `Source.forall₂_bodies`: one of the three becomes of each child of each animated element.
-/

import AnimationCode.Proofs.Convert.Still
import AnimationCode.Proofs.Element.Place
import AnimationCode.Proofs.Text.Split

namespace AnimationCode

namespace Markup

open Script (Node)

variable {fragment : Fragment} {node child : Node}

/-- The children between the tags of an element. -/
def body (node : Node) : List Node :=
  node.children.filter fun child => child.kind.isNamed && child.kind != .openingTag && child.kind != .closingTag

/-- Whether an element has nothing but text in it. -/
def isTextual (node : Node) : Bool := (body node).all (·.kind == .markupText)

/-- Whether a child says something: it has an expression between braces, or is text that is not blank. -/
def speaks (fragment : Fragment) (child : Node) : Bool :=
  child.kind == .container || child.kind == .markupText && !Text.isBlankText (child.text fragment.text)

theorem content?_eq (fragment : Fragment) (node : Node) :
    content? fragment node.children =
      if !(body node).isEmpty && isTextual node then
        let joined := Text.trim (List.intercalate [' '] ((body node).map fun child => Text.squeeze (child.text fragment.text)))
        if joined = [] then none else some (String.ofList joined)
      else none := rfl

/-- The words of an element that has nothing but text in it are those of its text, in order. -/
theorem words_content? (textual : isTextual node = true) :
    Text.words ((content? fragment node.children).getD "").toList =
      (body node).flatMap fun child => Text.words (child.text fragment.text) := by
  have joined : Text.words (Text.trim (List.intercalate [' ']
      ((body node).map fun child => Text.squeeze (child.text fragment.text)))) =
        (body node).flatMap fun child => Text.words (child.text fragment.text) := by
    rw [Text.words_trim, Text.words_intercalate, List.flatMap_map]
    simp only [Text.words_squeeze]
  rw [content?_eq, textual, Bool.and_true]
  dsimp only
  split
  · split
    · rename_i nothing
      rw [← joined, nothing]
      rfl
    · rw [← joined, Option.getD_some, String.toList_ofList]
  · rename_i empty
    rw [show body node = [] by simpa using empty]
    rfl

theorem content?_of_mixed (mixed : isTextual node = false) : content? fragment node.children = none := by
  rw [content?_eq, mixed, Bool.and_false]
  rfl

/-- Text that says something is among the words of an element that has nothing but text in it. -/
theorem exists_content? (textual : isTextual node = true) (member : child ∈ body node) (said : speaks fragment child = true) :
    ∃ content, content? fragment node.children = some content ∧
      Text.words (child.text fragment.text) <:+: Text.words content.toList := by
  have text : child.kind = .markupText := by simpa using List.all_eq_true.mp textual child member
  have some_ : Text.words (child.text fragment.text) ≠ [] := by
    intro nothing
    have blank := Text.words_eq_nil_iff.mp nothing
    simp [speaks, text, blank] at said
  have within : Text.words (child.text fragment.text) <:+: Text.words ((content? fragment node.children).getD "").toList := by
    rw [words_content? textual]
    obtain ⟨before, after, split⟩ := List.append_of_mem member
    rw [split, List.flatMap_append, List.flatMap_cons]
    exact ⟨_, _, List.append_assoc _ _ _⟩
  cases found : content? fragment node.children with
  | some content => exact ⟨content, rfl, by rwa [found] at within⟩
  | none =>
    rw [found] at within
    exact absurd (List.infix_nil.mp within) some_

/-- What is found in one of several nodes lies among all that is found, and what is counted in it is counted in all. -/
theorem exists_of_mem_collect {nodes : List Node} {found : Found} (done : collect fragment nodes = .ok found) :
    ∀ child ∈ nodes, ∃ held, collectOne fragment child = .ok held ∧ held.elements <:+: found.elements ∧
      held.plainMarkup ≤ found.plainMarkup := by
  induction nodes generalizing found with
  | nil => exact List.forall_mem_nil _
  | cons node rest ih =>
    rw [collect] at done
    obtain ⟨here, one, done⟩ := Outcome.bind_eq_ok.mp done
    obtain ⟨there, more, done⟩ := Outcome.bind_eq_ok.mp done
    cases done
    refine List.forall_mem_cons.mpr ⟨⟨here, one, (List.prefix_append _ _).isInfix, Nat.le_add_right _ _⟩, ?_⟩
    intro child member
    obtain ⟨held, known, within, few⟩ := ih more child member
    exact ⟨held, known, within.trans (List.suffix_append _ _).isInfix, Nat.le_trans few (Nat.le_add_left _ _)⟩

theorem mem_children_of_mem_body (member : child ∈ body node) : child ∈ node.children := List.mem_of_mem_filter member

/-- The text of an animated element with tags around its body is read from that body. -/
theorem content?_of_motion {own : Motion} {warnings : List String} (element : node.kind = .element)
    (drawn : motion fragment node = .ok (some own, warnings)) : own.content? = content? fragment node.children := by
  obtain ⟨opening, tag, read, -, -, rfl⟩ := motion_eq_ok drawn
  exact if_pos element

end Markup

namespace Component

variable {target : Framework} {component converted : Component} {account told : Account}

/-- Elements inside that are not animated are reported at the place of the element. -/
theorem exists_limitation_convert (done : component.convert target account = .ok (converted, told)) :
    ∀ motion ∈ converted.elements.motions, motion.plainMarkup ≠ 0 →
      ∃ message, ⟨"markup", message, motion.location?⟩ ∈ told.limitations := by
  obtain ⟨staggered, -, after, remarks⟩ := exists_carried done
  intro motion member counted
  rw [after, carried, Forest.motions_map] at member
  obtain ⟨before, known, rfl⟩ := List.mem_map.mp member
  generalize moved : (carryOver target component.bindings before).1 = motion at counted
  obtain ⟨message, remarked⟩ : ∃ message, Convert.limit motion "markup" message ∈ Attributes.markupRemarks motion := by
    rw [Attributes.markupRemarks, if_neg counted]
    exact ⟨_, List.mem_singleton.mpr rfl⟩
  refine ⟨message, remarks before known _ ?_⟩
  rw [← moved] at remarked ⊢
  exact List.mem_append_left _ (List.mem_append_right _ remarked)

end Component

namespace Markup

open Script (Node)

variable {fragment : Fragment} {node child : Node} {part after : Element}

/-- The words of a child are among those of its element, or the animated elements found in it are among those inside. -/
def Carries (fragment : Fragment) (child : Node) (after : Element) : Prop :=
  (∃ content, after.own.content? = some content ∧ Text.words (child.text fragment.text) <:+: Text.words content.toList) ∨
    ∃ held, collectOne fragment child = .ok held ∧ held.elements ≠ [] ∧
      held.elements.map Motion.still <:+: Forest.map Motion.still after.children

/-- Elements that are not carried over are reported at the place of their element. -/
def Reports (fragment : Fragment) (node : Node) (told : Account) : Prop :=
  ∃ message, ⟨"markup", message, (openingTag? node).map fragment.location⟩ ∈ told.limitations

/-- A child of a mixed body is lost: no animated element is in it, and no other element in the whole body. -/
structure Loses (fragment : Fragment) (node child : Node) (after : Element) : Prop where
  mixed : isTextual node = false
  content : after.own.content? = none
  plainMarkup : after.own.plainMarkup = 0
  held : ∃ held, collectOne fragment child = .ok held ∧ held.elements = [] ∧ held.plainMarkup = 0

/-- What becomes of the children between the tags of an element. -/
def Keeps (fragment : Fragment) (told : Account) (node : Node) (after : Element) : Prop :=
  node.kind = .element → ∀ child ∈ body node, speaks fragment child = true →
    Carries fragment child after ∨ Reports fragment node told ∨ Loses fragment node child after

/-- An element that a revision leaves where it is keeps its body, as long as what is counted in it is reported. -/
theorem Holds.keeps {told : Account} (holds : Holds fragment node part)
    (still : Element.map Motion.still after = Element.map Motion.still part)
    (reported : after.own.plainMarkup ≠ 0 → ∃ message, ⟨"markup", message, after.own.location?⟩ ∈ told.limitations) :
    Keeps fragment told node after := by
  intro element child member said
  obtain ⟨own, warnings, drawn, rest⟩ := holds
  rw [if_pos element] at rest
  obtain ⟨inner, inside, rfl⟩ := rest
  obtain ⟨after, others⟩ := after
  obtain ⟨same, children⟩ := Element.mk.inj (show Element.mk _ _ = Element.mk _ _ from still)
  obtain ⟨place, text, plain⟩ := Motion.of_still_eq same
  dsimp only at place text plain
  have content : after.content? = content? fragment node.children := text.trans (content?_of_motion element drawn)
  obtain ⟨held, found, within, few⟩ := exists_of_mem_collect inside child (mem_children_of_mem_body member)
  cases textual : isTextual node with
  | true =>
    obtain ⟨words, known, among⟩ := exists_content? textual member said
    exact .inl (.inl ⟨words, content.trans known, among⟩)
  | false =>
    by_cases some_ : held.elements = []
    · by_cases counted : after.plainMarkup = 0
      · have nothing : held.plainMarkup = 0 := by omega
        exact .inr (.inr ⟨textual, content.trans (content?_of_mixed textual), counted, held, found, some_, nothing⟩)
      · obtain ⟨opening, opens, placed⟩ := location?_of_motion drawn
        obtain ⟨message, member⟩ := reported counted
        refine .inr (.inl ⟨message, ?_⟩)
        rwa [opens, Option.map_some, ← placed, ← place]
    · refine .inl (.inr ⟨held, found, some_, ?_⟩)
      rw [show Forest.map Motion.still others = Forest.map Motion.still inner.elements from children]
      rw [Forest.map_eq_map, Forest.map_eq_map]
      exact within.map _

end Markup

/-- What holds between two lists holds as well of a third one that looks like the second. -/
theorem forall₂_of_map_eq {α β γ : Type} {related other : α → β → Prop} {view : β → γ} {firsts : List α}
    {seconds thirds : List β} (pairs : List.Forall₂ related firsts seconds) (same : thirds.map view = seconds.map view)
    (each : ∀ first second, ∀ third ∈ thirds, related first second → view third = view second → other first third) :
    List.Forall₂ other firsts thirds := by
  induction pairs generalizing thirds with
  | nil =>
    rw [List.map_nil, List.map_eq_nil_iff] at same
    rw [same]
    exact .nil
  | cons here _ ih =>
    obtain ⟨third, rest, rfl, alike, later⟩ := List.map_eq_cons_iff.mp same
    exact .cons (each _ _ third List.mem_cons_self here alike)
      (ih later fun first second other member => each first second other (List.mem_cons_of_mem _ member))

namespace Source

open Markup (Fragment Keeps reached)

variable {parse : Script.Parser} {source : Source} {component converted : Component} {account told : Account} {context : Context}
  {thresholds : Fields Value}

/-- A greeting that moves. -/
def greeting (inside : String) : Source :=
  ⟨("export default () => <motion.p animate=\x7b\x7b x: 1 \x7d\x7d>" ++ inside ++ "</motion.p>;").toList, some "react",
    some false, none⟩

/-- A template. -/
def asTemplate : Context := ⟨.vue, false, "Greeting", Focus.none⟩

-- an expression takes the text beside it along, and nothing is reported
example : ((greeting "Good \x7bday\x7d").read.bind fun component =>
    (component.revise (Account.start .react) asTemplate []).map fun result =>
      (result.1.elements.motions.map Motion.content?, result.2.limitations)).toOption = some ([none], []) := by decide +kernel

end Source

end AnimationCode
