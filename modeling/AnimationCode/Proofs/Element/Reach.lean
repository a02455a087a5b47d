/-
**The animated elements of a script that are found.**

An element is searched from its children down, and a tag that closes itself from its attributes down;
nothing inside the tags of an element is searched, and nothing inside an animated tag that closes
itself. Of what is left every animated element is found once.

* `Markup.isAnimated`: a member of the motion namespace with a phase among its attributes;
* `Markup.isClosed`: a node inside which nothing is searched;
* `Source.read_animated`: the motions of what is read are those of the animated elements inside no
  closed node, in document order.
-/

import AnimationCode.Proofs.Component.Reading
import AnimationCode.Proofs.Element.Forest
import AnimationCode.Proofs.Element.Pairs
import Mathlib.Data.List.Forall2

namespace AnimationCode

open Script (Node)

namespace Markup

variable {fragment : Fragment} {node : Node}

/-- Whether a child of a tag is an attribute that sets a phase. -/
def setsPhase (fragment : Fragment) (attribute_ : Node) : Bool :=
  attribute_.kind == .attribute &&
    attribute_.named.head?.any fun title => Phase.readMarkup (fragment.textOf title) != .none

/-- Whether an element is a member of the motion namespace with a phase among its attributes. -/
def isAnimated (fragment : Fragment) (node : Node) : Bool :=
  (openingTag? node).any fun opening =>
    ((opening.child? .name).bind fun name => motionTag? (name.text fragment.text)).isSome &&
      opening.named.any (setsPhase fragment)

/-- Whether nothing inside a node is searched. -/
def isClosed (fragment : Fragment) (node : Node) : Bool :=
  match node.kind with
  | .openingTag | .closingTag => true
  | .selfClosingTag => isAnimated fragment node
  | _ => false

/-- Whether a node is animated and its ancestors are searched. -/
def isReached (fragment : Fragment) (place : Node × List Node) : Bool :=
  isAnimated fragment place.1 && place.2.all fun ancestor => !isClosed fragment ancestor

/-- The animated elements of a tree that are inside no closed node, in document order. -/
def reached (fragment : Fragment) (root : Node) : List Node :=
  ((Node.walkAllUnder [] root.children).filter (isReached fragment)).map Prod.fst

/-- A motion is the one of an element; only the number of elements inside is counted later. -/
def Draws (fragment : Fragment) (node : Node) (drawn : Motion) : Prop :=
  ∃ own said, motion fragment node = .ok (some own, said) ∧ drawn = { own with plainMarkup := drawn.plainMarkup }

/-- An element is the one of a node: its motion, and what stands between its tags. -/
def Holds (fragment : Fragment) (node : Node) (part : Element) : Prop :=
  ∃ own said, motion fragment node = .ok (some own, said) ∧
    if node.kind = .element then
      ∃ inner, collect fragment node.children = .ok inner ∧
        part = ⟨{ own with plainMarkup := inner.plainMarkup }, inner.elements⟩
    else part = ⟨own, []⟩

theorem Holds.draws {part : Element} (holds : Holds fragment node part) : Draws fragment node part.own := by
  obtain ⟨own, said, made, rest⟩ := holds
  refine ⟨own, said, made, ?_⟩
  split at rest
  · obtain ⟨inner, -, rfl⟩ := rest
    rfl
  · rw [rest]

/-! ### When an element has a motion -/

/-- What one child of a tag does to a motion: an attribute is read under its title, a spread is kept under its text, and nothing
else counts. -/
inductive Adds (fragment : Fragment) (motion : Motion) (node : Node) : Motion → Prop
  | titled (title : Node) (others : List Node) (value : Value) (kind : node.kind = .attribute)
      (named : node.named = title :: others) : Adds fragment motion node (addAttribute motion (fragment.textOf title) value).1
  | spread (kind : node.kind = .container) : Adds fragment motion node { motion with
      attributes := motion.attributes.set (fragment.textOf node) (.code (fragment.textOf node)) }
  | nothing (untitled : node.kind = .attribute → node.named = []) (solid : node.kind ≠ .container) :
      Adds fragment motion node motion

theorem exists_adds {rest : List Node} {motion drawn : Motion} {warnings said : List String}
    (done : addAttributes fragment motion warnings (node :: rest) = .ok (drawn, said)) :
    ∃ changed more, Adds fragment motion node changed ∧ addAttributes fragment changed more rest = .ok (drawn, said) := by
  rw [addAttributes] at done
  split at done
  · rename_i title others kind named
    obtain ⟨value, -, later⟩ := Outcome.bind_eq_ok.mp done
    exact ⟨_, _, .titled title others value kind named, later⟩
  · rename_i kind
    exact ⟨_, _, .spread kind, done⟩
  · rename_i solid untitled
    refine ⟨_, _, .nothing (fun kind => ?_) solid, done⟩
    cases named : node.named with
    | nil => rfl
    | cons title others => exact (untitled title others kind named).elim

theorem isEmpty_set (fields : Fields Value) (name : String) (value : Value) :
    (fields.set name value).isEmpty = false := by
  cases fields with
  | nil => rfl
  | cons field rest =>
    obtain ⟨key, old⟩ := field
    unfold Fields.set
    split <;> rfl

theorem isEmpty_phases_addAttribute (motion : Motion) (name : String) (value : Value) :
    (addAttribute motion name value).1.phases.isEmpty =
      (motion.phases.isEmpty && Phase.readMarkup name == .none) := by
  unfold addAttribute
  cases reading : Phase.readMarkup name with
  | known phase =>
    dsimp only
    split
    all_goals simp [isEmpty_set]
  | unknown phase =>
    dsimp only
    split
    all_goals simp [isEmpty_set]
  | none => simp

/-- The phases of a motion are those it had and those that its attributes set. -/
theorem isEmpty_phases_addAttributes {nodes : List Node} {motion drawn : Motion} {warnings said : List String}
    (done : addAttributes fragment motion warnings nodes = .ok (drawn, said)) :
    drawn.phases.isEmpty = (motion.phases.isEmpty && !nodes.any (setsPhase fragment)) := by
  induction nodes generalizing motion warnings with
  | nil =>
    cases done
    simp
  | cons node rest ih =>
    obtain ⟨changed, more, adds, later⟩ := exists_adds done
    rw [ih later, List.any_cons]
    cases adds with
    | titled title others value kind named =>
      have sets : setsPhase fragment node = (Phase.readMarkup (fragment.textOf title) != .none) := by
        simp [setsPhase, kind, named]
      rw [isEmpty_phases_addAttribute, sets]
      simp [bne, Bool.and_assoc]
    | spread kind =>
      have sets : setsPhase fragment node = false := by simp [setsPhase, kind]
      rw [sets, Bool.false_or]
    | nothing untitled solid =>
      have sets : setsPhase fragment node = false := by
        by_cases kind : node.kind = .attribute
        · simp [setsPhase, untitled kind]
        · simp [setsPhase, kind]
      rw [sets, Bool.false_or]

/-- The motion of an element is read from its opening tag; besides, it has its place and the text between its tags. -/
theorem motion_eq_ok {own : Motion} {said : List String} (done : motion fragment node = .ok (some own, said)) :
    ∃ opening tag drawn, openingTag? node = some opening ∧
      addAttributes fragment { Motion.ofTag tag with location? := some (fragment.location opening) } [] opening.named =
        .ok (drawn, said) ∧
      own = { drawn with
        sites := [fragment.site opening]
        content? := if node.kind = .element then content? fragment node.children else drawn.content? } := by
  unfold motion at done
  split at done
  · cases done
  · rename_i opening opens
    split at done
    · cases done
    · rename_i tag _
      obtain ⟨⟨drawn, warnings⟩, added, made⟩ := Outcome.bind_eq_ok.mp done
      dsimp only at made
      split_ifs at made with still element
      · cases made
      · cases made
        exact ⟨opening, tag, drawn, opens, added, by rw [if_pos (by simpa using element)]⟩
      · cases made
        exact ⟨opening, tag, drawn, opens, added, by rw [if_neg (by simpa using element)]⟩

/-- An element has a motion if it is animated, and only then. -/
theorem isSome_motion {drawn? : Option Motion} {said : List String}
    (done : motion fragment node = .ok (drawn?, said)) : drawn?.isSome = isAnimated fragment node := by
  unfold motion at done
  unfold isAnimated
  cases opening? : openingTag? node with
  | none =>
    rw [opening?] at done
    cases done
    rfl
  | some opening =>
    rw [opening?] at done
    dsimp only at done
    rw [Option.any_some]
    cases tag? : (opening.child? .name).bind fun name => motionTag? (name.text fragment.text) with
    | none =>
      rw [tag?] at done
      cases done
      rfl
    | some tag =>
      rw [tag?] at done
      obtain ⟨⟨drawn, warnings⟩, added, done⟩ := Outcome.bind_eq_ok.mp done
      have phases : drawn.phases.isEmpty = !opening.named.any (setsPhase fragment) :=
        isEmpty_phases_addAttributes added
      dsimp only at done
      by_cases none_ : drawn.phases.isEmpty = true
      · rw [if_pos none_] at done
        cases done
        rw [none_] at phases
        simpa using phases.symm
      · rw [if_neg none_] at done
        have some_ : opening.named.any (setsPhase fragment) = true := by simpa [phases] using none_
        rw [some_]
        split at done <;> (cases done; rfl)

/-! ### Below closed nodes -/

mutual

/-- The ancestors of some trees are ancestors of every node below. -/
theorem subset_walkUnder {ancestors : List Node} {node : Node} {place : Node × List Node}
    (member : place ∈ Node.walkUnder ancestors node) : ancestors ⊆ place.2 := by
  obtain ⟨kind, role, span, children⟩ := node
  rw [Node.walkUnder] at member
  rcases List.mem_cons.mp member with rfl | below
  · exact List.Subset.refl _
  · exact List.Subset.trans (List.subset_cons_self _ _) (subset_walkAllUnder below)

theorem subset_walkAllUnder {ancestors nodes : List Node} {place : Node × List Node}
    (member : place ∈ Node.walkAllUnder ancestors nodes) : ancestors ⊆ place.2 := by
  match nodes with
  | [] => exact absurd member (by rw [Node.walkAllUnder]; exact List.not_mem_nil)
  | node :: rest =>
    rw [Node.walkAllUnder] at member
    rcases List.mem_append.mp member with here | later
    · exact subset_walkUnder here
    · exact subset_walkAllUnder later

end

/-- Nothing is reached below a closed node. -/
theorem filter_isReached_of_closed {ancestors nodes : List Node} {closed : Node} (inside : closed ∈ ancestors)
    (isClosed_ : isClosed fragment closed = true) :
    (Node.walkAllUnder ancestors nodes).filter (isReached fragment) = [] := by
  refine List.filter_eq_nil_iff.mpr fun place member => ?_
  have above : closed ∈ place.2 := subset_walkAllUnder member inside
  have open_ : place.2.all (fun ancestor => !isClosed fragment ancestor) = false :=
    List.all_eq_false.mpr ⟨closed, above, by simp [isClosed_]⟩
  simp [isReached, open_]

/-! ### What is found -/

/-- The elements of a forest are those of the nodes reached among some. -/
def Tells (fragment : Fragment) (places : List (Node × List Node)) (forest : Forest) : Prop :=
  List.Forall₂ (Holds fragment) ((places.filter (isReached fragment)).map Prod.fst) (Element.partsEach forest)

theorem Tells.append {places more : List (Node × List Node)} {forest others : Forest}
    (tells : Tells fragment places forest) (tellsMore : Tells fragment more others) :
    Tells fragment (places ++ more) (forest ++ others) := by
  unfold Tells
  rw [List.filter_append, List.map_append, Element.partsEach_append]
  exact List.rel_append tells tellsMore

/-- What is told below a node that is not animated. -/
theorem Tells.of_plain {ancestors children : List Node} {kind : Script.Kind} {role : Script.Role} {span : Span}
    {forest : Forest} (plain : isAnimated fragment (.mk kind role span children) = false)
    (tells : Tells fragment (Node.walkAllUnder (.mk kind role span children :: ancestors) children) forest) :
    Tells fragment (Node.walkUnder ancestors (.mk kind role span children)) forest := by
  unfold Tells
  rw [Node.walkUnder, List.filter_cons_of_neg (by simp [isReached, plain])]
  exact tells

/-- What is told below an animated node, and its element. -/
theorem Tells.of_animated {ancestors children : List Node} {kind : Script.Kind} {role : Script.Role} {span : Span}
    {drawn : Motion} {forest : Forest} (animated : isAnimated fragment (.mk kind role span children) = true)
    (searched : ancestors.all (fun ancestor => !isClosed fragment ancestor) = true)
    (holds : Holds fragment (.mk kind role span children) ⟨drawn, forest⟩)
    (tells : Tells fragment (Node.walkAllUnder (.mk kind role span children :: ancestors) children) forest) :
    Tells fragment (Node.walkUnder ancestors (.mk kind role span children)) [⟨drawn, forest⟩] := by
  have parts : Element.partsEach [⟨drawn, forest⟩] = ⟨drawn, forest⟩ :: Element.partsEach forest := by
    simp [Element.partsEach, Element.parts]
  unfold Tells
  rw [Node.walkUnder, List.filter_cons_of_pos (by simp only [isReached, animated, searched]; rfl), parts]
  exact .cons holds tells

/-- Nothing is told below a closed node. -/
theorem tells_of_closed {ancestors nodes : List Node} {closed : Node} (isClosed_ : isClosed fragment closed = true) :
    Tells fragment (Node.walkAllUnder (closed :: ancestors) nodes) [] := by
  unfold Tells
  rw [filter_isReached_of_closed List.mem_cons_self isClosed_]
  exact .nil

mutual

/-- The elements found in a node are those of the animated elements that are reached in it. -/
theorem tells_collectOne {ancestors : List Node} {node : Node} {found : Found}
    (searched : ancestors.all (fun ancestor => !isClosed fragment ancestor) = true)
    (done : collectOne fragment node = .ok found) :
    Tells fragment (Node.walkUnder ancestors node) found.elements := by
  obtain ⟨kind, role, span, children⟩ := node
  have below (open_ : isClosed fragment (.mk kind role span children) = false) {inner : Found}
      (inside : collect fragment children = .ok inner) :
      Tells fragment (Node.walkAllUnder (.mk kind role span children :: ancestors) children) inner.elements :=
    tells_collect (by rw [List.all_cons, open_, searched]; rfl) inside
  unfold collectOne at done
  split at done
  · cases done
    exact .of_plain rfl (tells_of_closed rfl)
  · cases done
    exact .of_plain rfl (tells_of_closed rfl)
  · obtain ⟨⟨found?, warnings⟩, moved, done⟩ := Outcome.bind_eq_ok.mp done
    have animated := isSome_motion moved
    cases found? with
    | some own =>
      obtain ⟨inner, inside, done⟩ := Outcome.bind_eq_ok.mp done
      cases done
      exact .of_animated animated.symm searched ⟨own, warnings, moved, inner, inside, rfl⟩ (below rfl inside)
    | none =>
      obtain ⟨inner, inside, done⟩ := Outcome.bind_eq_ok.mp done
      cases done
      have told := below rfl inside
      exact .of_plain animated.symm told
  · obtain ⟨⟨found?, warnings⟩, moved, done⟩ := Outcome.bind_eq_ok.mp done
    have animated := isSome_motion moved
    cases found? with
    | some own =>
      cases done
      exact .of_animated animated.symm searched ⟨own, warnings, moved, rfl⟩ (tells_of_closed animated.symm)
    | none =>
      obtain ⟨inner, inside, done⟩ := Outcome.bind_eq_ok.mp done
      cases done
      have told := below animated.symm inside
      exact .of_plain animated.symm told
  · rename_i notOpening notClosing notElement notSelfClosing
    have plain : isAnimated fragment (.mk kind role span children) = false := by
      have nothing : openingTag? (.mk kind role span children) = none := by
        unfold openingTag?
        split
        · exact absurd ‹_› notSelfClosing
        · exact absurd ‹_› notElement
        · rfl
      rw [isAnimated, nothing]
      rfl
    have open_ : isClosed fragment (.mk kind role span children) = false := by
      unfold isClosed
      split
      · exact absurd ‹_› notOpening
      · exact absurd ‹_› notClosing
      · exact absurd ‹_› notSelfClosing
      · rfl
    exact .of_plain plain (below open_ done)

theorem tells_collect {ancestors nodes : List Node} {found : Found}
    (searched : ancestors.all (fun ancestor => !isClosed fragment ancestor) = true)
    (done : collect fragment nodes = .ok found) :
    Tells fragment (Node.walkAllUnder ancestors nodes) found.elements := by
  match nodes with
  | [] =>
    rw [collect] at done
    cases done
    rw [Node.walkAllUnder]
    exact .nil
  | node :: rest =>
    rw [collect] at done
    obtain ⟨here, one, done⟩ := Outcome.bind_eq_ok.mp done
    obtain ⟨there, more, done⟩ := Outcome.bind_eq_ok.mp done
    cases done
    rw [Node.walkAllUnder]
    exact (tells_collectOne searched one).append (tells_collect searched more)

end

/-- The elements that are extracted, with all inside them, are those of the animated elements that are reached. -/
theorem forall₂_holds {root : Node} {found : Found} (done : extract fragment root = .ok found) :
    List.Forall₂ (Holds fragment) (reached fragment root) (Element.partsEach found.elements) :=
  tells_collect rfl done

/-- The motions that are extracted are those of the animated elements that are reached. -/
theorem forall₂_reached {root : Node} {found : Found} (done : extract fragment root = .ok found) :
    List.Forall₂ (Draws fragment) (reached fragment root) found.elements.motions := by
  rw [Forest.motions, ← Element.map_own_partsEach, List.forall₂_map_right_iff]
  exact (forall₂_holds done).imp fun _ _ => Holds.draws

end Markup

namespace Source

open Markup (Fragment Draws reached)

variable {parse : Script.Parser}

theorem readScript_eq_some {framework : Framework} {code : List Char} {attempts : List Attempt} {reading : ScriptReading}
    (read : readScript parse framework code attempts = some reading) :
    ∃ attempt ∈ attempts, attempt.tree? parse framework code = some (reading.text, reading.root) ∧
      reading.wrapped = if attempt.wrapped then fragmentOffset else 0 := by
  induction attempts with
  | nil => cases read
  | cons attempt rest ih =>
    unfold readScript at read
    cases tree : attempt.tree? parse framework code with
    | some found =>
      rw [tree] at read
      cases read
      exact ⟨attempt, List.mem_cons_self, tree, rfl⟩
    | none =>
      rw [tree] at read
      obtain ⟨other, member, facts⟩ := ih read
      exact ⟨other, List.mem_cons_of_mem _ member, facts⟩

variable {source : Source} {component : Component}

/-- What the component of a script is made of. -/
structure IsMadeOf (parse : Script.Parser) (source : Source) (kind : Framework) (component : Component) (reading : ScriptReading) (found : Found) :
    Prop where
  read : readScript parse kind source.code (attempts kind source.typescript?) = some reading
  imports : Declarations.imports reading.text reading.root = .ok component.imports
  extracted : (reading.tree kind).extract parse = .ok found
  framework : component.framework = kind
  source : component.source = source.code
  tree? : component.tree? = some (reading.tree kind)
  elements : component.elements = found.elements
  plainMarkup : component.plainMarkup = found.plainMarkup

theorem exists_isMadeOf {kind : Framework} (done : readScriptComponent parse source kind = .ok component) :
    ∃ reading found, IsMadeOf parse source kind component reading found := by
  unfold readScriptComponent at done
  dsimp only at done
  cases read : readScript parse kind source.code (attempts kind source.typescript?) with
  | none =>
    rw [read] at done
    cases done
  | some reading =>
    rw [read] at done
    obtain ⟨imports, declared, done⟩ := Outcome.bind_eq_ok.mp done
    obtain ⟨found, extracted, done⟩ := Outcome.bind_eq_ok.mp done
    cases done
    exact ⟨reading, found, read, declared, extracted, rfl, rfl, rfl, rfl, rfl⟩

theorem readScriptComponent_eq_ok {kind : Framework} (done : readScriptComponent parse source kind = .ok component) :
    component.framework = kind ∧ ∃ reading,
      readScript parse kind source.code (attempts kind source.typescript?) = some reading ∧
      ∃ found, (reading.tree kind).extract parse = .ok found ∧ component.elements = found.elements := by
  obtain ⟨reading, found, made⟩ := exists_isMadeOf done
  exact ⟨made.framework, reading, made.read, found, made.extracted, made.elements⟩

theorem framework_of_readTemplateComponent (done : readTemplateComponent parse source = .ok component) :
    component.framework = .vue := by
  obtain ⟨blocks, -, done⟩ := Outcome.bind_eq_ok.mp done
  obtain ⟨template, -, done⟩ := Outcome.bind_eq_ok.mp done
  obtain ⟨facts, -, done⟩ := Outcome.bind_eq_ok.mp done
  obtain ⟨found, -, done⟩ := Outcome.bind_eq_ok.mp done
  cases done
  rfl

/-- A component of a framework with scripts is read as a script. -/
theorem readScriptComponent_of_read (script : component.framework ≠ .vue) (done : source.read parse = .ok component) :
    readScriptComponent parse source component.framework = .ok component := by
  unfold read at done
  cases blank : Text.isBlankText source.code with
  | true =>
    rw [blank] at done
    cases done
  | false =>
    rw [blank] at done
    obtain ⟨kind, -, done⟩ := Outcome.bind_eq_ok.mp done
    cases kind with
    | vue => exact absurd (framework_of_readTemplateComponent done) script
    | react =>
      rw [(readScriptComponent_eq_ok done).1]
      exact done
    | js =>
      rw [(readScriptComponent_eq_ok done).1]
      exact done
    | other name =>
      rw [(readScriptComponent_eq_ok done).1]
      exact done

/-- A component whose icon is in an attribute of a tag that closes itself. -/
def iconSource : Source :=
  ⟨"export default () => <Card icon=\x7b<motion.b animate=\x7b\x7b x: 1 \x7d\x7d />\x7d />;".toList, some "react",
    some false, none⟩

-- the icon of a tag that has a closing tag is inside an opening tag, and is lost
example : (read ⟨"export default () => <Card icon=\x7b<motion.b animate=\x7b\x7b x: 1 \x7d\x7d />\x7d></Card>;".toList,
    some "react", some false, none⟩).toOption.map (fun component => component.elements.motions.map Motion.tag) =
      some [] := by decide +kernel

end Source

end AnimationCode
