/-
**Every element of a template is kept or counted.**

Each animated element of a template becomes an element of the forest, directly inside the one of the nearest animated element
around it. All others are counted, each by the nearest animated element around it, or by the template if there is none. So
nothing is lost, and nothing is found twice.

* `TemplateNode.walkUnder`, `Element.enclosures`: the two trees in document order, each node with what is around it;
* `TemplateMotion.Draws`, `TemplateMotion.Keeps`: an element of the forest is the one of a node, and lies where it lay;
* `TemplateMotion.keeps_collectOne`, `TemplateMotion.total_collectOne`: what is found in one node, by induction on the tree;
* `TemplateMotion.keeps_extract`: so it is with a template that was scanned.
-/

import AnimationCode.Element.OfTemplate
import AnimationCode.Proofs.Element.Forest
import AnimationCode.Proofs.Outcome
import AnimationCode.Proofs.Template.Nesting
import Mathlib.Data.List.Forall2

namespace AnimationCode

/-! ### Two trees in document order -/

namespace TemplateNode

mutual

/-- An element of a template and those inside it in document order, each with the elements around it, the nearest first. -/
def walkUnder (ancestors : List TemplateNode) : TemplateNode → List (TemplateNode × List TemplateNode)
  | ⟨tag, attributes, start, stop, texts, children⟩ =>
    (⟨tag, attributes, start, stop, texts, children⟩, ancestors) ::
      walkAllUnder (⟨tag, attributes, start, stop, texts, children⟩ :: ancestors) children

/-- Several elements of a template under the same ancestors. -/
def walkAllUnder (ancestors : List TemplateNode) : List TemplateNode → List (TemplateNode × List TemplateNode)
  | [] => []
  | node :: rest => walkUnder ancestors node ++ walkAllUnder ancestors rest

end

/-- The elements inside one of a template in document order, each with those around it, the nearest first. -/
def inside (root : TemplateNode) : List (TemplateNode × List TemplateNode) := walkAllUnder [] root.children

mutual

/-- The opening tags of the elements in document order are those of the tree. -/
theorem headings_walkUnder (ancestors : List TemplateNode) (around : Option Template.Heading) : (node : TemplateNode) →
    (walkUnder ancestors node).map (fun place => place.1.heading) = (Template.nodeEnclosures around node).map Prod.snd
  | ⟨tag, attributes, start, stop, texts, children⟩ => by
    have inside := headings_walkAllUnder (⟨tag, attributes, start, stop, texts, children⟩ :: ancestors)
      (some ⟨tag, attributes, start, stop⟩) children
    rw [walkUnder, Template.nodeEnclosures, List.map_cons, List.map_cons, inside]
    rfl

theorem headings_walkAllUnder (ancestors : List TemplateNode) (around : Option Template.Heading) : (nodes : List TemplateNode) →
    (walkAllUnder ancestors nodes).map (fun place => place.1.heading) = (Template.childEnclosures around nodes).map Prod.snd
  | [] => by rw [walkAllUnder, Template.childEnclosures]; rfl
  | node :: rest => by
    rw [walkAllUnder, Template.childEnclosures, List.map_append, List.map_append, headings_walkUnder ancestors around node,
      headings_walkAllUnder ancestors around rest]

end

end TemplateNode

theorem Template.headings_enclosures (opened : List Heading) (found : List Match) :
    (enclosures opened found).map Prod.snd = found.filterMap Match.heading? := by
  induction found generalizing opened with
  | nil => rfl
  | cons one rest ih =>
    rw [enclosures, List.map_append, ih, List.filterMap_cons]
    cases one.heading? <;> rfl

/-- An opening tag begins where it was matched. -/
theorem Template.sublist_headings (found : List Match) :
    ((found.filterMap Match.heading?).map Heading.start).Sublist (found.map Match.start) := by
  induction found with
  | nil => exact .slnil
  | cons one rest ih =>
    have start (heading : Heading) (opens : one.heading? = some heading) : heading.start = one.start := by
      unfold Match.heading? at opens
      split at opens
      · rw [← Option.some.inj opens]
      · cases opens
    rw [List.filterMap_cons, List.map_cons]
    cases opens : one.heading? with
    | none => exact ih.cons _
    | some heading =>
      rw [List.map_cons, start heading opens]
      exact ih.cons_cons _

/-- The elements of a template that was scanned begin one behind the other. -/
theorem TemplateNode.pairwise_start {markup source : List Char} {offset : Nat} {root : TemplateNode}
    (scanned : Template.scan markup offset source = .ok root) :
    (root.inside.map fun place => place.1.start).Pairwise (· < ·) := by
  obtain ⟨found, last, matches_⟩ := Template.exists_matches offset markup
  rw [Template.scan, matches_.pieces] at scanned
  obtain ⟨texts, children, lays, made⟩ := Template.completes_of_build scanned
  have held : root.children = children := by
    rw [made]
    rfl
  have headings : root.inside.map (fun place => place.1.heading) = found.filterMap Template.Match.heading? := by
    rw [inside, headings_walkAllUnder [] none, held, ← Template.headings_enclosures [], (lays.enclosures []).1]
    rfl
  have starts : root.inside.map (fun place => place.1.start) =
      (found.filterMap Template.Match.heading?).map Template.Heading.start := by
    rw [← headings, List.map_map]
    rfl
  rw [starts]
  exact matches_.pairwise_start.1.sublist (Template.sublist_headings found)

namespace Element

mutual

/-- The motions of an element and of those inside it in document order, each with that of the element directly around it. -/
def enclosures (around : Option Motion) : Element → List (Option Motion × Motion)
  | ⟨own, children⟩ => (around, own) :: enclosuresEach (some own) children

/-- The motions of several elements, each with that of the element directly around it. -/
def enclosuresEach (around : Option Motion) : List Element → List (Option Motion × Motion)
  | [] => []
  | element :: rest => enclosures around element ++ enclosuresEach around rest

end

theorem enclosuresEach_append (around : Option Motion) (elements others : List Element) :
    enclosuresEach around (elements ++ others) = enclosuresEach around elements ++ enclosuresEach around others := by
  induction elements with
  | nil => rw [enclosuresEach]; rfl
  | cons element rest ih => rw [List.cons_append, enclosuresEach, enclosuresEach, ih, List.append_assoc]

mutual

theorem map_snd_enclosures (around : Option Motion) : (element : Element) →
    (enclosures around element).map Prod.snd = motions element
  | ⟨own, children⟩ => by rw [enclosures, motions, List.map_cons, map_snd_enclosuresEach (some own) children]

theorem map_snd_enclosuresEach (around : Option Motion) : (elements : List Element) →
    (enclosuresEach around elements).map Prod.snd = motionsEach elements
  | [] => by rw [enclosuresEach, motionsEach]; rfl
  | element :: rest => by
    rw [enclosuresEach, motionsEach, List.map_append, map_snd_enclosures around element, map_snd_enclosuresEach around rest]

end

end Element

namespace TemplateMotion

open TemplateNode (walkUnder walkAllUnder)

variable {parse : Script.Parser} {index : LineIndex} {node : TemplateNode} {found : Found}

/-! ### Elements and their nodes -/

/-- Whether an element of a template is animated: a phase is left when its transitions were lifted. -/
def isAnimated (parse : Script.Parser) (index : LineIndex) (node : TemplateNode) : Bool :=
  match motion parse index node with
  | .ok (found?, _) => found?.isSome
  | .error _ => false

/-- A motion is the one of an element of a template; only the number of elements inside is counted later. -/
def Draws (parse : Script.Parser) (index : LineIndex) (node : TemplateNode) (drawn : Motion) : Prop :=
  ∃ own said, motion parse index node = .ok (some own, said) ∧ drawn = { own with plainMarkup := drawn.plainMarkup }

/-- An element of the forest is the one of a node, over its opening tag, and lies directly inside the one of the nearest
animated node around that. -/
structure Keeps (parse : Script.Parser) (index : LineIndex) (place : TemplateNode × List TemplateNode) (part : Option Motion × Motion) : Prop where
  draws : Draws parse index place.1 part.2
  site : part.2.sites = [⟨place.1.start, place.1.stop, "", ""⟩]
  inside : Option.Rel (Draws parse index) (place.2.find? (isAnimated parse index)) part.1

theorem sites_of_motion {own : Motion} {said : List String} (drawn : motion parse index node = .ok (some own, said)) :
    own.sites = [⟨node.start, node.stop, "", ""⟩] := by
  unfold motion at drawn
  split at drawn
  · cases drawn
  · obtain ⟨⟨read, warnings⟩, -, rest⟩ := Outcome.bind_eq_ok.mp drawn
    obtain ⟨lifted, -, made⟩ := Outcome.bind_eq_ok.mp rest
    split at made
    · cases made
    · cases made
      rfl

/-- The elements of a forest are those of the animated ones among some nodes. -/
def KeepsEach (parse : Script.Parser) (index : LineIndex) (places : List (TemplateNode × List TemplateNode)) (parts : List (Option Motion × Motion)) :
    Prop :=
  List.Forall₂ (Keeps parse index) (places.filter fun place => isAnimated parse index place.1) parts

theorem KeepsEach.append {places more : List (TemplateNode × List TemplateNode)} {parts others : List (Option Motion × Motion)}
    (keeps : KeepsEach parse index places parts) (keepsMore : KeepsEach parse index more others) :
    KeepsEach parse index (places ++ more) (parts ++ others) := by
  unfold KeepsEach
  rw [List.filter_append]
  exact List.rel_append keeps keepsMore

/-- What is found in an element is its own motion around that of its children, or that of its children beside it. -/
theorem collectOne_eq_ok (done : collectOne parse index node = .ok found) :
    ∃ drawn? said inner, motion parse index node = .ok (drawn?, said) ∧ collect parse index node.children = .ok inner ∧
      found.elements = (match drawn? with
        | some own => [⟨{ own with plainMarkup := inner.plainMarkup }, inner.elements⟩]
        | none => inner.elements) ∧
      found.plainMarkup = if drawn?.isSome then 0 else 1 + inner.plainMarkup := by
  obtain ⟨tag, attributes, start, stop, texts, children⟩ := node
  rw [collectOne] at done
  obtain ⟨⟨drawn?, said⟩, moved, done⟩ := Outcome.bind_eq_ok.mp done
  obtain ⟨inner, inside, done⟩ := Outcome.bind_eq_ok.mp done
  refine ⟨drawn?, said, inner, moved, inside, ?_⟩
  cases drawn? <;> cases done <;> exact ⟨rfl, rfl⟩

mutual

/-- The elements found in a node are those of the animated nodes in it, each inside the nearest. -/
theorem keeps_collectOne {ancestors : List TemplateNode} {around : Option Motion}
    (nearest : Option.Rel (Draws parse index) (ancestors.find? (isAnimated parse index)) around) : {node : TemplateNode} → {found : Found} →
    collectOne parse index node = .ok found → KeepsEach parse index (walkUnder ancestors node) (Element.enclosuresEach around found.elements)
  | ⟨tag, attributes, start, stop, texts, children⟩, found, done => by
    obtain ⟨drawn?, said, inner, moved, inside, elements, -⟩ := collectOne_eq_ok done
    rw [walkUnder, elements]
    generalize TemplateNode.mk tag attributes start stop texts children = node at moved ⊢
    have animated : isAnimated parse index node = drawn?.isSome := by rw [isAnimated, moved]
    cases drawn? with
    | none =>
      have plain : isAnimated parse index node = false := animated
      have still : Option.Rel (Draws parse index) ((node :: ancestors).find? (isAnimated parse index)) around := by
        rwa [List.find?_cons_of_neg (by simp [plain])]
      unfold KeepsEach
      rw [List.filter_cons_of_neg (by simp [plain])]
      exact keeps_collect still inside
    | some own =>
      have draws : Draws parse index node { own with plainMarkup := inner.plainMarkup } := ⟨own, said, moved, rfl⟩
      have site := sites_of_motion moved
      have next : Option.Rel (Draws parse index) ((node :: ancestors).find? (isAnimated parse index))
          (some { own with plainMarkup := inner.plainMarkup }) := by
        rw [List.find?_cons_of_pos animated]
        exact .some draws
      unfold KeepsEach
      rw [List.filter_cons_of_pos (by exact animated), Element.enclosuresEach, Element.enclosuresEach, List.append_nil,
        Element.enclosures]
      exact .cons ⟨draws, site, nearest⟩ (keeps_collect next inside)

theorem keeps_collect {ancestors : List TemplateNode} {around : Option Motion}
    (nearest : Option.Rel (Draws parse index) (ancestors.find? (isAnimated parse index)) around) :
    {nodes : List TemplateNode} → {found : Found} → collect parse index nodes = .ok found →
      KeepsEach parse index (walkAllUnder ancestors nodes) (Element.enclosuresEach around found.elements)
  | [], found, done => by
    rw [collect] at done
    cases done
    rw [walkAllUnder]
    exact .nil
  | node :: rest, found, done => by
    rw [collect] at done
    obtain ⟨here, one, done⟩ := Outcome.bind_eq_ok.mp done
    obtain ⟨there, more, done⟩ := Outcome.bind_eq_ok.mp done
    cases done
    rw [walkAllUnder, Found.append, Element.enclosuresEach_append]
    exact (keeps_collectOne nearest one).append (keeps_collect nearest more)

end

/-! ### Nothing is lost -/

/-- The number of elements that something found tells of: those of its forest, and those that are only counted. -/
def total (found : Found) : Nat :=
  found.elements.motions.length + found.plainMarkup + (found.elements.motions.map Motion.plainMarkup).sum

theorem total_append (found more : Found) : total (found.append more) = total found + total more := by
  simp only [total, Found.append, Forest.motions_append, List.length_append, List.map_append, List.sum_append]
  omega

mutual

/-- A node and those inside it are all told of. -/
theorem total_collectOne (ancestors : List TemplateNode) : {node : TemplateNode} → {found : Found} →
    collectOne parse index node = .ok found → (walkUnder ancestors node).length = total found
  | ⟨tag, attributes, start, stop, texts, children⟩, found, done => by
    obtain ⟨drawn?, said, inner, -, inside, elements, counted⟩ := collectOne_eq_ok done
    have below_ := total_collect (⟨tag, attributes, start, stop, texts, children⟩ :: ancestors) inside
    rw [walkUnder, List.length_cons, below_, total, total, elements, counted]
    cases drawn? with
    | none =>
      simp only [Option.isSome_none, Bool.false_eq_true, if_false]
      omega
    | some own =>
      have motions : Forest.motions [⟨{ own with plainMarkup := inner.plainMarkup }, inner.elements⟩] =
          { own with plainMarkup := inner.plainMarkup } :: inner.elements.motions := by
        simp [Forest.motions, Element.motionsEach, Element.motions]
      simp only [motions, Option.isSome_some, if_true, List.length_cons, List.map_cons, List.sum_cons]
      omega

theorem total_collect (ancestors : List TemplateNode) : {nodes : List TemplateNode} → {found : Found} →
    collect parse index nodes = .ok found → (walkAllUnder ancestors nodes).length = total found
  | [], found, done => by
    rw [collect] at done
    cases done
    rw [walkAllUnder]
    rfl
  | node :: rest, found, done => by
    rw [collect] at done
    obtain ⟨here, one, done⟩ := Outcome.bind_eq_ok.mp done
    obtain ⟨there, more, done⟩ := Outcome.bind_eq_ok.mp done
    cases done
    rw [walkAllUnder, List.length_append, total_append, total_collectOne ancestors one, total_collect ancestors more]

end

/-- A template with an animated image inside an element that carries the directive and animates nothing. -/
def nestedMarkup : List Char :=
  ("<div><p v-motion :enter=\"\x7b x: 1 \x7d\"><b><i v-motion :enter=\"\x7b\x7d\">" ++
    "<img v-motion :enter=\"\x7b y: 1 \x7d\"></i></b></p></div>").toList

end TemplateMotion

end AnimationCode
