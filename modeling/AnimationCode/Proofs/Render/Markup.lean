/-
**What is written as markup is read back.**

* `IsWritable`: a motion that markup says all of;
* `isMotionTag`: the attributes of its tag say what the motion does;
* `areElement_tree`: the lines that a component returns are an element that holds the forest.
-/

import AnimationCode.Proofs.Element.States
import AnimationCode.Proofs.Render.Lines
import AnimationCode.Proofs.Script.Held
import AnimationCode.Render.Markup

namespace AnimationCode

namespace MarkupRender

open Layout (behind_indented gapAt indent_succ)
open Script (Blank)
open Script.Markup

/-! ### What can be written -/

/-- The name of a tag: small letters and digits, a letter first. -/
def IsTag (tag : String) : Prop :=
  ∃ c rest, tag.toList = c :: rest ∧ c.isLower = true ∧ ∀ e ∈ rest, e.isLower = true ∨ e.isDigit = true

/-- What a phase may animate to: properties with literal values, or for a state the label of a variant. -/
def IsPhaseValue (phase : String) (value : Value) : Prop :=
  (∃ fields, value = .object fields ∧ value.IsLiteral) ∨
    phase ∈ Phase.stateNames ∧ ∃ label, value = .text label ∧ IsLabel label.toList ∧ '\n' ∉ label.toList

/-- A motion of which a tag says all: it has phases that all frameworks share, and no other attributes. -/
structure IsWritable (motion : Motion) : Prop where
  tag : IsTag motion.tag
  moves : motion.phases ≠ []
  nodup : (Fields.keys motion.phases).Nodup
  phases : ∀ field ∈ motion.phases, field.1 ∈ Phase.names ∧ IsPhaseValue field.1 field.2
  attributes : motion.attributes = []
  content : motion.content?.getD "" = ""
  guard : motion.reducedMotion = true → motion.hasPhase .transition = true

/-! ### The attributes of a tag -/

/-- A phase as an attribute: its name, and a value by the grammar. -/
def phaseText (motion : Motion) (phase : String) : AttributeText where
  name := (Phase.spelling phase .markup).toList
  value := ⟨(valueText (phaseValue motion phase)).toList,
    HasValue (phaseValue motion phase).normal (valueText (phaseValue motion phase)).toList⟩

/-- What the attribute of a phase says. -/
def phaseSaid (motion : Motion) (phase : String) : List Char × Value :=
  ((Phase.spelling phase .markup).toList, (phaseValue motion phase).normal)

theorem say_phases (motion : Motion) (phases : List String) :
    Say (phases.map (phaseText motion)) (phases.map (phaseSaid motion)) :=
  List.forall₂_map_left_iff.mpr (List.forall₂_map_right_iff.mpr (List.forall₂_same.mpr fun _ _ => ⟨rfl, fun _ hasValue => hasValue⟩))

theorem toList_phaseItem (motion : Motion) (phase : String) :
    (phaseItem motion phase).toList = (phaseText motion phase).whole := by
  simp [phaseItem, phaseText, AttributeText.whole]

theorem isTagWord_spelling : ∀ phase ∈ Phase.names, IsTagWord (Phase.spelling phase .markup).toList := by
  intro phase member
  simp only [Phase.names, Phase.order, List.map_cons, List.map_nil, List.mem_cons, List.not_mem_nil, or_false] at member
  rcases member with rfl | rfl | rfl | rfl | rfl | rfl | rfl | rfl | rfl <;>
    exact ⟨⟨Script.isWord_of_check rfl, by decide⟩, by decide⟩

theorem isValue_literal {value : Value} (literal : value.IsLiteral) (other : ∀ label, value ≠ .text label) :
    IsValue ⟨(valueText value).toList, HasValue value.normal (valueText value).toList⟩ := by
  have text : (valueText value).toList = bracedText value.print.toList := by
    have braced : valueText value = "\x7b" ++ value.print ++ "\x7d" := by
      unfold valueText
      split
      · rename_i label
        exact absurd rfl (other label)
      · rfl
    rw [braced]
    simp [bracedText]
  rw [text]
  exact isValue_braced (Script.denotes_print value literal)

theorem isValue_variant {label : String} (isLabel : IsLabel label.toList) (noFeed : '\n' ∉ label.toList) :
    IsValue ⟨(valueText (.text label)).toList, HasValue (Value.text label).normal (valueText (.text label)).toList⟩ := by
  have noQuote : '"' ∉ label.toList := fun member => (isLabel '"' member).1 rfl
  have text : (valueText (.text label)).toList = labelText label.toList := by
    have plain : valueText (.text label) = "\"" ++ label ++ "\"" := by
      unfold valueText
      simp [noQuote, noFeed]
    rw [plain]
    simp [labelText]
  have same := isValue_label isLabel
  rw [String.ofList_toList] at same
  rw [text]
  exact same

theorem phaseValue_of_get? {motion : Motion} {phase : String} {value : Value}
    (found : motion.phases.get? phase = some value) :
    phaseValue motion phase =
      if phase = Phase.transition.name ∧ motion.reducedMotion = true then .guarded value else value := by
  rw [phaseValue, found]
  rfl

theorem isPhaseValue_of_get? {motion : Motion} (writable : IsWritable motion) {phase : String} {value : Value}
    (found : motion.phases.get? phase = some value) : phase ∈ Phase.names ∧ IsPhaseValue phase value :=
  writable.phases (phase, value) (Fields.mem_of_get? found)

/-- The attribute of a phase is one by the grammar. -/
theorem isDerived_phase {motion : Motion} (writable : IsWritable motion) {phase : String}
    (present : motion.phases.has phase = true) : (phaseText motion phase).IsDerived := by
  obtain ⟨value, found⟩ := Option.isSome_iff_exists.mp present
  obtain ⟨named, isPhaseValue⟩ := isPhaseValue_of_get? writable found
  refine ⟨isTagWord_spelling phase named, ?_⟩
  unfold phaseText
  dsimp only
  rw [phaseValue_of_get? found]
  obtain ⟨fields, rfl, literal⟩ | ⟨isState, label, rfl, isLabel, noFeed⟩ := isPhaseValue
  · split
    · exact @isValue_literal (.guarded (.object fields)) literal fun _ => by simp
    · exact isValue_literal literal fun _ => by simp
  · rw [if_neg]
    · exact isValue_variant isLabel noFeed
    · rintro ⟨rfl, -⟩
      exact absurd isState (by decide)

/-! ### The motion of a tag -/

theorem readMarkup_spelling :
    ∀ phase ∈ Phase.names, Phase.readMarkup (Phase.spelling phase .markup) = .known phase := by decide

/-- Whether the value of a phase is written as a guard. -/
def isGuarded (motion : Motion) (phase : String) : Bool :=
  phase == Phase.transition.name && motion.reducedMotion

theorem addAttribute_phase {motion : Motion} (writable : IsWritable motion) {phase : String} {value : Value}
    (found : motion.phases.get? phase = some value) (start : Motion) :
    Markup.addAttribute start (Phase.spelling phase .markup) (phaseSaid motion phase).2 =
      ({ start with phases := start.phases.set phase value.normal,
                    reducedMotion := start.reducedMotion || isGuarded motion phase }, []) := by
  obtain ⟨named, isPhaseValue⟩ := isPhaseValue_of_get? writable found
  have known := readMarkup_spelling phase named
  have plain : ∀ inner, value.normal ≠ .guarded inner := by
    obtain ⟨fields, rfl, -⟩ | ⟨-, label, rfl, -⟩ := isPhaseValue <;>
    · intro inner same
      cases same
  unfold Markup.addAttribute phaseSaid
  dsimp only
  rw [known, phaseValue_of_get? found]
  by_cases guard : phase = Phase.transition.name ∧ motion.reducedMotion = true
  · obtain ⟨rfl, reduced⟩ := guard
    rw [if_pos ⟨rfl, reduced⟩]
    have guarded_ : isGuarded motion Phase.transition.name = true := by rw [isGuarded, reduced]; rfl
    rw [guarded_, Bool.or_true]
    rfl
  · have unguarded : isGuarded motion phase = false := by
      rw [isGuarded, Bool.and_eq_false_iff, beq_eq_false_iff_ne]
      by_contra both
      rw [not_or, not_not, Bool.not_eq_false] at both
      exact guard both
    rw [if_neg guard, unguarded, Bool.or_false]
    dsimp only
    split
    · rename_i inner same
      exact absurd same (plain inner)
    · rfl

/-- What the attributes of some phases make of a motion. -/
theorem addedAttributes_phases {motion : Motion} (writable : IsWritable motion) {phases : List String}
    (present : ∀ phase ∈ phases, motion.phases.has phase = true) (start : Motion) (said : List String) :
    (addedAttributes (start, said) (phases.map (phaseSaid motion))).1.tag = start.tag ∧
      (∀ name, (addedAttributes (start, said) (phases.map (phaseSaid motion))).1.phases.get? name =
        if name ∈ phases then (motion.phases.get? name).map Value.normal else start.phases.get? name) ∧
      (addedAttributes (start, said) (phases.map (phaseSaid motion))).1.reducedMotion =
        (start.reducedMotion || phases.any (isGuarded motion)) := by
  induction phases generalizing start said with
  | nil => simp [addedAttributes]
  | cons phase rest ih =>
    obtain ⟨value, found⟩ := Option.isSome_iff_exists.mp (present phase List.mem_cons_self)
    have step := addAttribute_phase writable found start
    obtain ⟨tag, phases, reduced⟩ := ih (fun other member => present other (List.mem_cons_of_mem _ member))
      { start with phases := start.phases.set phase value.normal,
                   reducedMotion := start.reducedMotion || isGuarded motion phase } (said ++ [])
    have added : addedAttributes (start, said) ((phase :: rest).map (phaseSaid motion)) =
        addedAttributes ({ start with phases := start.phases.set phase value.normal,
                                      reducedMotion := start.reducedMotion || isGuarded motion phase }, said ++ [])
          (rest.map (phaseSaid motion)) := by
      have name : String.ofList (phaseSaid motion phase).1 = Phase.spelling phase .markup :=
        String.ofList_toList
      rw [addedAttributes, List.map_cons, List.foldl_cons, name, step]
      rfl
    rw [added]
    refine ⟨tag, fun name => ?_, ?_⟩
    · rw [phases name, Fields.get?_set]
      by_cases later : name ∈ rest
      · rw [if_pos later, if_pos (List.mem_cons_of_mem _ later)]
      · rw [if_neg later]
        by_cases here : name = phase
        · subst here
          rw [if_pos rfl, if_pos List.mem_cons_self, found]
          rfl
        · rw [if_neg here, if_neg (by simp [here, later])]
    · rw [reduced, List.any_cons, Bool.or_assoc]

/-- The attributes of a tag say what its motion does. -/
theorem added_orderedPhases {motion : Motion} (writable : IsWritable motion) {start : Motion}
    (tag : start.tag = motion.tag) (blank : start.phases = [] ∧ start.reducedMotion = false) :
    (addedAttributes (start, []) (motion.orderedPhases.map (phaseSaid motion))).1.phases ≠ [] ∧
      (addedAttributes (start, []) (motion.orderedPhases.map (phaseSaid motion))).1.Agrees motion := by
  obtain ⟨sameTag, phases, reduced⟩ := addedAttributes_phases writable
    (fun phase member => Motion.mem_orderedPhases.mp member) start []
  have agree : ∀ name, (addedAttributes (start, []) (motion.orderedPhases.map (phaseSaid motion))).1.phases.get? name =
      (motion.phases.get? name).map Value.normal := by
    intro name
    rw [phases name]
    split
    · rfl
    · rename_i absent
      rw [Motion.mem_orderedPhases, Fields.has, Bool.not_eq_true, Option.isSome_eq_false_iff,
        Option.isNone_iff_eq_none] at absent
      rw [absent, blank.1]
      rfl
  refine ⟨fun none_ => ?_, ⟨agree, ?_⟩, sameTag.trans tag⟩
  · obtain ⟨⟨name, value⟩, rest, same⟩ := List.exists_cons_of_ne_nil writable.moves
    have some_ := agree name
    rw [none_, same, Fields.get?_cons, if_pos rfl] at some_
    cases some_
  · rw [reduced, blank.2, Bool.false_or]
    cases wish : motion.reducedMotion with
    | false => simp [isGuarded, wish]
    | true =>
      refine List.any_eq_true.mpr ⟨Phase.transition.name, ?_, ?_⟩
      · exact Motion.mem_orderedPhases.mpr (writable.guard wish)
      · rw [isGuarded, wish]
        rfl

/-! ### The text of a tag -/

/-- A tag with its attributes: one stands behind the name, several stand on lines of their own. -/
def tagText (name base : List Char) (items : List AttributeText) (selfClosing : Bool) : TagText :=
  match items with
  | [] | [_] => ⟨name, [' '], items, if selfClosing then [' '] else []⟩
  | _ => ⟨name, '\n' :: (base ++ Layout.unit.toList), items, '\n' :: base⟩

/-- The text of a tag up to its end. -/
def closedText (tag : TagText) (selfClosing : Bool) : List Char := if selfClosing then tag.selfClosing else tag.opening

theorem toList_tag (name base : String) {α : Type} (write : α → String) (item : α → AttributeText)
    (same : ∀ part, (write part).toList = (item part).whole) (parts : List α) (selfClosing : Bool) :
    (Layout.tag name (parts.map write) base selfClosing).toList =
      closedText (tagText name.toList base.toList (parts.map item) selfClosing) selfClosing := by
  have split_ : tagText name.toList base.toList (parts.map item) selfClosing =
      ⟨name.toList, Layout.itemGap base parts.length, parts.map item, Layout.endGap base parts.length selfClosing⟩ := by
    match parts with
    | [] | [_] | _ :: _ :: _ => rfl
  rw [Layout.toList_tag, split_, List.flatMap_map, List.length_map]
  cases selfClosing <;>
    simp [closedText, TagText.selfClosing, TagText.opening, TagText.head, attributesText, List.flatMap_map, same]

section TagText

variable (name base : List Char) (items : List AttributeText) (selfClosing : Bool)

@[simp] theorem tagText_name : (tagText name base items selfClosing).name = name := by
  unfold tagText
  split <;> rfl

@[simp] theorem tagText_items : (tagText name base items selfClosing).items = items := by
  unfold tagText
  split <;> rfl

theorem blank_tagText (blank : Blank base) :
    (Blank (tagText name base items selfClosing).gap ∧ (tagText name base items selfClosing).gap ≠ []) ∧
      Blank (tagText name base items selfClosing).endGap := by
  have feed : Blank ['\n'] := Script.blank_of_all rfl
  have unit : Blank Layout.unit.toList := Script.blank_of_all rfl
  have single : Blank (if selfClosing then [' '] else []) := by
    cases selfClosing
    · exact Script.blank_nil
    · exact Script.blank_space
  unfold tagText
  split
  · exact ⟨⟨Script.blank_space, by simp⟩, single⟩
  · exact ⟨⟨Script.blank_space, by simp⟩, single⟩
  · exact ⟨⟨feed.append (blank.append unit), by simp⟩, feed.append blank⟩

end TagText

/-- The tag of a motion on a line at a depth. -/
def motionTag (motion : Motion) (depth : Nat) (selfClosing : Bool) : TagText :=
  tagText ("motion.".toList ++ motion.tag.toList) (List.replicate (2 * depth) ' ')
    (motion.orderedPhases.map (phaseText motion)) selfClosing

theorem toList_opening {motion : Motion} (writable : IsWritable motion) (depth : Nat) (selfClosing : Bool) :
    ((style motionSpace).opening motion (Layout.indent depth) selfClosing).toList =
      closedText (motionTag motion depth selfClosing) selfClosing := by
  have items_ : items motion = motion.orderedPhases.map (phaseItem motion) := by
    rw [items, writable.attributes]
    exact List.append_nil _
  show (Layout.tag (motionSpace ++ motion.tag) (items motion) (Layout.indent depth) selfClosing).toList = _
  rw [items_, toList_tag _ _ (phaseItem motion) (phaseText motion) (toList_phaseItem motion), Layout.toList_indent,
    String.toList_append]
  rfl

theorem blank_replicate (count : Nat) : Blank (List.replicate count ' ') := fun c member => by
  rw [(List.mem_replicate.mp member).2]
  rfl

theorem IsTag.isWord {tag : String} (isTag : IsTag tag) : Script.IsWord tag.toList := by
  obtain ⟨c, rest, same, lower, others⟩ := isTag
  rw [same]
  refine ⟨fun e member => Script.isNameRest_of_isAlphanum ?_, ?_, List.cons_ne_nil _ _⟩
  · have part : e.isLower = true ∨ e.isDigit = true := by
      rcases List.mem_cons.mp member with rfl | among
      · exact Or.inl lower
      · exact others e among
    rw [Char.isAlphanum, Bool.or_eq_true, Script.isAlpha_iff]
    exact part.imp_left Or.inr
  · rintro e ⟨⟩
    exact Script.isDigit_of_isAlpha (Script.isAlpha_iff.mpr (.inr lower))

theorem isMemberName {motion : Motion} (writable : IsWritable motion) (depth : Nat) (selfClosing : Bool) :
    IsMemberName (motionTag motion depth selfClosing).name := by
  have space : IsTagWord "motion".toList := ⟨⟨Script.isWord_of_check rfl, by decide⟩, by decide⟩
  rw [motionTag, tagText_name]
  exact ⟨"motion".toList, motion.tag.toList, by simp, space, writable.tag.isWord⟩

theorem isDerived_motionTag {motion : Motion} (writable : IsWritable motion) (depth : Nat) (selfClosing : Bool) :
    (motionTag motion depth selfClosing).IsDerived := by
  obtain ⟨gap, endGap⟩ := blank_tagText ("motion.".toList ++ motion.tag.toList) (List.replicate (2 * depth) ' ')
    (motion.orderedPhases.map (phaseText motion)) selfClosing (blank_replicate _)
  refine ⟨?_, gap, endGap⟩
  rw [motionTag, tagText_items]
  exact List.forall_mem_map.mpr fun phase member => isDerived_phase writable (Motion.mem_orderedPhases.mp member)

theorem isMotionTag {motion : Motion} (writable : IsWritable motion) (depth : Nat) (selfClosing : Bool) :
    IsMotionTag (motionTag motion depth selfClosing) motion where
  name := tagText_name _ _ _ _
  agrees := by
    rw [motionTag, tagText_items]
    exact ⟨_, say_phases motion motion.orderedPhases, fun place => added_orderedPhases writable rfl ⟨rfl, rfl⟩⟩

/-! ### Elements and what is inside them -/

theorem isGap_gapAt (depth : Nat) : IsGap (gapAt depth) := ⟨2 * depth, rfl⟩

/-- Lines are an element that begins on a line of its own. -/
def AreElement (forest : Forest) (depth : Nat) (lines : List String) : Prop :=
  ∃ text, Layout.behind lines = gapAt depth ++ text ∧ IsElement forest text

theorem areElement_selfClosing {motion : Motion} (writable : IsWritable motion) (depth : Nat) :
    AreElement [⟨motion, []⟩] depth
      [Layout.indent depth ++ (style motionSpace).opening motion (Layout.indent depth) true] := by
  refine ⟨(motionTag motion depth true).selfClosing, ?_, ?_⟩
  · rw [behind_indented, toList_opening writable]
    simp [closedText]
  · exact isElement_selfClosing (isMemberName writable depth true) (isDerived_motionTag writable depth true)
      (isMotionTag writable depth true)

theorem areElement_around {motion : Motion} (writable : IsWritable motion) (depth : Nat) {children : Forest}
    {inner : List String} (isContent : IsContent children (Layout.behind inner)) :
    AreElement [⟨motion, children⟩] depth
      ((Layout.indent depth ++ (style motionSpace).opening motion (Layout.indent depth) false) :: inner ++
        [Layout.indent depth ++ "</" ++ (style motionSpace).name motion ++ ">"]) := by
  refine ⟨(motionTag motion depth false).around (Layout.behind inner) (gapAt depth), ?_, ?_⟩
  · have name : (motionTag motion depth false).name = "motion.".toList ++ motion.tag.toList := tagText_name _ _ _ _
    rw [List.cons_append, behind_indented, toList_opening writable, Layout.behind_append, String.append_assoc,
      String.append_assoc, behind_indented, TagText.around, enclosedText, closingText, name]
    simp [closedText, TagText.opening, style, motionSpace]
  · exact isElement_motion (isMemberName writable depth false) (isDerived_motionTag writable depth false)
      (isMotionTag writable depth false) isContent (isGap_gapAt depth)

/-- What stands in for the content of a component: a place for what others put in. -/
def slot : String := "\x7bchildren\x7d"

theorem isContent_slot (depth : Nat) :
    IsContent [] (Layout.behind [Layout.indent depth ++ Layout.unit ++ slot]) := by
  have isIdentifier : Script.IsIdentifier "children".toList := ⟨⟨Script.isWord_of_check rfl, by decide⟩, by decide⟩
  rw [indent_succ, behind_indented, ← List.append_assoc]
  exact IsContent.slot isIdentifier (isGap_gapAt (depth + 1)) isContent_nil

theorem filling_eq {motion : Motion} (writable : IsWritable motion) (standIn : Option String) :
    Layout.filling motion standIn = standIn := by
  have content := writable.content
  unfold Layout.filling
  cases found : motion.content? with
  | none => rfl
  | some text =>
    rw [found, Option.getD_some] at content
    exact if_pos content

mutual

/-- The lines of an element are read as the element. -/
theorem areElement_elementLines (depth : Nat) {standIn : Option String} (room : standIn ∈ [none, some slot])
    (element : Element) (writable : ∀ motion ∈ element.motions, IsWritable motion) :
    AreElement [element] depth (Layout.elementLines (style motionSpace) depth standIn element) := by
  obtain ⟨own, children⟩ := element
  have writableOwn : IsWritable own := writable own (by simp [Element.motions])
  match children with
  | [] =>
    rw [Layout.elementLines, filling_eq writableOwn]
    simp only [List.mem_cons, List.not_mem_nil, or_false] at room
    rcases room with rfl | rfl
    · exact areElement_selfClosing writableOwn depth
    · exact areElement_around writableOwn depth (isContent_slot depth)
  | child :: others =>
    have inside := isContent_forestLines (depth + 1) (child :: others) fun motion member =>
      writable motion (by rw [Element.motions]; exact List.mem_cons_of_mem _ member)
    have some_ := Layout.forestLines_ne_nil (style motionSpace) (depth + 1) child others
    rw [Layout.elementLines, if_neg (by rwa [List.isEmpty_iff])]
    exact areElement_around writableOwn depth inside

/-- The lines of elements side by side are read as the elements. -/
theorem isContent_forestLines (depth : Nat) (forest : List Element)
    (writable : ∀ motion ∈ Element.motionsEach forest, IsWritable motion) :
    IsContent forest (Layout.behind (Layout.forestLines (style motionSpace) depth forest)) := by
  match forest with
  | [] => exact isContent_nil
  | element :: rest =>
    obtain ⟨text, lines, isElement⟩ := areElement_elementLines depth List.mem_cons_self element fun motion member =>
      writable motion (by rw [Element.motionsEach]; exact List.mem_append_left _ member)
    have others := isContent_forestLines depth rest fun motion member =>
      writable motion (by rw [Element.motionsEach]; exact List.mem_append_right _ member)
    rw [Layout.forestLines, Layout.behind_append, lines]
    exact IsContent.child isElement (isGap_gapAt depth) others

end

/-! ### What a component returns -/

theorem AreElement.isContent {forest : Forest} {depth : Nat} {lines : List String}
    (areElement : AreElement forest depth lines) : IsContent forest (Layout.behind lines) := by
  obtain ⟨text, same, isElement⟩ := areElement
  rw [same]
  have whole := IsContent.child isElement (isGap_gapAt depth) isContent_nil
  rwa [List.append_nil, List.append_nil] at whole

/-- Lines between the tags of a fragment. -/
theorem areElement_fragment {forest : Forest} (depth : Nat) {inner : List String}
    (isContent : IsContent forest (Layout.behind inner)) :
    AreElement forest depth ((Layout.indent depth ++ "<>") :: inner ++ [Layout.indent depth ++ "</>"]) := by
  refine ⟨enclosedText ['<'] [] (Layout.behind inner) (gapAt depth) [], ?_, ?_⟩
  · rw [List.cons_append, behind_indented, Layout.behind_append, behind_indented, enclosedText, closingText]
    simp
  · exact isElement_fragment isContent (isGap_gapAt depth)

/-- The name of what lets elements leave. -/
def presenceName : List Char := "AnimatePresence".toList

theorem isTagWord_presenceName : IsTagWord presenceName := ⟨⟨Script.isWord_of_check rfl, by decide⟩, by decide⟩

/-- Lines between the tags of what lets elements leave. -/
theorem areElement_presence {forest : Forest} (depth : Nat) {inner : List String}
    (areElement : AreElement forest (depth + 1) inner) :
    AreElement forest depth ((Layout.indent depth ++ "<AnimatePresence>") :: inner ++
      [Layout.indent depth ++ "</AnimatePresence>"]) := by
  refine ⟨enclosedText ('<' :: presenceName) [] (Layout.behind inner) (gapAt depth) presenceName, ?_, ?_⟩
  · have tags : "<AnimatePresence>".toList = '<' :: (presenceName ++ ['>']) ∧
        "</AnimatePresence>".toList = ['<', '/'] ++ (presenceName ++ ['>']) := ⟨rfl, rfl⟩
    rw [List.cons_append, behind_indented, Layout.behind_append, behind_indented, tags.1, tags.2]
    simp only [enclosedText, closingText, Layout.behind_nil, List.append_nil, List.nil_append, List.cons_append,
      List.append_assoc]
  · exact isElement_plain isTagWord_presenceName rfl areElement.isContent (isGap_gapAt depth)

/-- The lines of a forest in which there is room for what others put in. -/
theorem exists_of_hasRoom {forest : Forest} (room : Layout.hasRoom forest = true) :
    ∃ own, forest = [⟨own, []⟩] := by
  unfold Layout.hasRoom at room
  split at room
  · rename_i element
    obtain ⟨own, children⟩ := element
    rw [Bool.and_eq_true, List.isEmpty_iff] at room
    obtain rfl : children = [] := room.1
    exact ⟨own, rfl⟩
  · cases room

theorem isContent_rootLines (depth : Nat) (forest : Forest)
    (writable : ∀ motion ∈ forest.motions, IsWritable motion) :
    IsContent forest (Layout.behind (Layout.rootLines (style motionSpace) depth slot forest)) := by
  unfold Layout.rootLines
  split
  · rename_i room
    obtain ⟨own, rfl⟩ := exists_of_hasRoom room
    have areElement := @areElement_elementLines depth (some slot) (by simp) ⟨own, []⟩
      fun motion member => writable motion (by simpa [Forest.motions, Element.motionsEach] using member)
    rw [List.flatMap_cons, List.flatMap_nil, List.append_nil]
    exact areElement.isContent
  · exact isContent_forestLines depth forest writable

/-- The lines of one element. -/
theorem areElement_rootLines (depth : Nat) (element : Element)
    (writable : ∀ motion ∈ element.motions, IsWritable motion) :
    AreElement [element] depth (Layout.rootLines (style motionSpace) depth slot [element]) := by
  unfold Layout.rootLines
  split
  · rw [List.flatMap_cons, List.flatMap_nil, List.append_nil]
    exact areElement_elementLines depth (by simp) element writable
  · rw [Layout.forestLines, Layout.forestLines, List.append_nil]
    exact areElement_elementLines depth (by simp) element writable

/-- The lines that a component returns are read as the forest. -/
theorem areElement_tree {forest : Forest} (some_ : forest ≠ []) (presence : Bool)
    (writable : ∀ motion ∈ forest.motions, IsWritable motion) : AreElement forest 2 (tree forest presence) := by
  have core (depth : Nat) : AreElement forest depth
      (if 1 < forest.length then
        (Layout.indent depth ++ "<>") :: Layout.rootLines (style motionSpace) (depth + 1) slot forest ++
          [Layout.indent depth ++ "</>"]
      else Layout.rootLines (style motionSpace) depth slot forest) := by
    split
    · exact areElement_fragment depth (isContent_rootLines (depth + 1) forest writable)
    · rename_i few
      obtain ⟨element, rest, rfl⟩ := List.exists_cons_of_ne_nil some_
      obtain rfl : rest = [] := by
        rw [List.length_cons, Nat.lt_add_left_iff_pos, Nat.not_lt, Nat.le_zero] at few
        exact List.length_eq_zero_iff.mp few
      exact areElement_rootLines depth element fun motion member =>
        writable motion (by simpa [Forest.motions, Element.motionsEach] using member)
  unfold tree
  cases presence with
  | false =>
    by_cases several : 1 < forest.length
    · have lines := core 2
      rw [if_pos several] at lines
      simpa [several, slot] using lines
    · have lines := core 2
      rw [if_neg several] at lines
      simpa [several, slot] using lines
  | true =>
    have lines := areElement_presence 2 (core 3)
    by_cases several : 1 < forest.length
    · rw [if_pos several] at lines
      simpa [several, slot] using lines
    · rw [if_neg several] at lines
      simpa [several, slot] using lines

end MarkupRender

end AnimationCode
