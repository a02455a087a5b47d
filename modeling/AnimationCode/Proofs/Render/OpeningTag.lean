/-
**The opening tag of an element is read as it is written.**

Whatever the values of an element are, its opening tag is one tag of the template, with the attributes that were written. A
value is escaped, so that it ends where it was written to end, and stands for the text that was escaped. Only the names have
to be names: those of the attributes, and those of the phases that no framework here knows.

* `TemplateRender.Item.isReadable`: an attribute with a name is read as it is written;
* `TemplateRender.isNamed_directiveItems`, `TemplateRender.isNamed_componentItems`: the attributes of an element have names;
* `TemplateRender.isReadAs_tag`: a tag of named attributes is read as it is written;
* `TemplateRender.isReadAs_opening`: so is the opening tag of an element, in both ways of writing it.
-/

import AnimationCode.Proofs.Fields
import AnimationCode.Proofs.Render.Lines
import AnimationCode.Proofs.Template.Tag
import AnimationCode.Proofs.Text.Quoted
import AnimationCode.Render.Template

namespace AnimationCode

open Template (IsAttributeName IsTagName IsGap isAttributePart)

/-! ### Small letters in names -/

/-- Where the characters of names stand among all characters. -/
def Template.partRanges : List (Nat × Nat) :=
  [(63, 0x84), (0xa1, 0x167f), (0x1681, 0x1fff), (0x2030, 0x205e), (0x2060, 0x2fff), (0x3001, 0x10ffff)]

theorem Template.isAttributePart_ofNat {low high n : Nat} (among : (low, high) ∈ partRanges) (above : low ≤ n)
    (below : n ≤ high) : isAttributePart (Char.ofNat n) = true := by
  by_cases valid : n.isValidChar
  · have code : (Char.ofNat n).toNat = n := by
      rw [Char.ofNat, dif_pos valid]
      rfl
    have sign : ∀ d : Char, n ≠ d.toNat → Char.ofNat n ≠ d := fun d other same => other (by rw [← same, code])
    have range : 63 ≤ n ∧ n ≤ 0x84 ∨ 0xa1 ≤ n ∧ n ≤ 0x167f ∨ 0x1681 ≤ n ∧ n ≤ 0x1fff ∨ 0x2030 ≤ n ∧ n ≤ 0x205e ∨
        0x2060 ≤ n ∧ n ≤ 0x2fff ∨ 0x3001 ≤ n := by
      simp only [partRanges, List.mem_cons, Prod.mk.injEq, List.not_mem_nil, or_false] at among
      omega
    have noBlank : Text.isBlank (Char.ofNat n) = false := by
      rw [Bool.eq_false_iff]
      intro blank
      simp only [Text.isBlank, code, Bool.or_eq_true, Bool.and_eq_true, decide_eq_true_eq, beq_iff_eq] at blank
      omega
    have noSign : Char.ofNat n ≠ '=' ∧ Char.ofNat n ≠ '>' ∧ Char.ofNat n ≠ '/' ∧ Char.ofNat n ≠ '"' ∧
        Char.ofNat n ≠ '\'' := by
      have signs : '='.toNat = 61 ∧ '>'.toNat = 62 ∧ '/'.toNat = 47 ∧ '"'.toNat = 34 ∧ '\''.toNat = 39 := by decide
      exact ⟨sign _ (by omega), sign _ (by omega), sign _ (by omega), sign _ (by omega), sign _ (by omega)⟩
    simp [isAttributePart, noBlank, noSign]
  · rw [Char.ofNat, dif_neg valid]
    decide

/-- The small letters of a run stand where characters of names stand. -/
theorem Text.toLowerRuns_within : ∀ run ∈ Text.toLowerRuns, Template.partRanges.any fun range =>
    decide ((range.1 : Int) ≤ run.1 + run.2.2.2 ∧ (run.2.1 : Int) + run.2.2.2 ≤ range.2) := by
  decide +kernel

theorem Text.isAttributePart_toLower : ∀ n < 128, isAttributePart (Char.ofNat n) = true →
    isAttributePart (Char.ofNat n).toLower = true := by
  decide +kernel

theorem Text.isAttributePart_lower {c : Char} (part : isAttributePart c = true) : isAttributePart (Text.lower c) = true := by
  unfold Text.lower
  split
  · rename_i basic
    have small := Text.isAttributePart_toLower c.toNat basic
    rw [Char.ofNat_toNat] at small
    exact small part
  · unfold Text.shifted
    split
    · rename_i first last step distance found
      have inside := List.find?_some found
      simp only [Text.inRun, Bool.and_eq_true, decide_eq_true_eq] at inside
      have within := Text.toLowerRuns_within _ (List.mem_of_find?_eq_some found)
      obtain ⟨⟨low, high⟩, among, holds⟩ := List.any_eq_true.mp within
      rw [decide_eq_true_eq] at holds
      dsimp only at holds
      exact Template.isAttributePart_ofNat among (by omega) (by omega)
    · exact part

theorem Text.isAttributePart_lowerForm {c : Char} (part : isAttributePart c = true) :
    ∀ d ∈ Text.lowerForm c, isAttributePart d = true := by
  unfold Text.lowerForm
  split
  · decide
  · exact List.forall_mem_singleton.mpr (Text.isAttributePart_lower part)

namespace TemplateRender

/-! ### Attributes that are read as they are written -/

namespace Item

/-- An attribute as it is written. -/
def written (item : Item) : Template.WrittenAttribute :=
  ⟨item.name.toList, item.content?.map fun content => Text.escapeAttribute content.toList⟩

/-- An attribute as it stands in a template: its text escaped. -/
def raw (item : Item) : Template.Attribute :=
  (item.name, item.content?.map fun content => String.ofList (Text.escapeAttribute content.toList))

/-- An attribute that has a name. -/
def IsNamed (item : Item) : Prop := IsAttributeName item.name.toList

theorem toList_text (item : Item) : item.text.toList = item.written.text := by
  obtain ⟨name, content?⟩ := item
  cases content? with
  | none => rfl
  | some content => simp [text, written, Template.WrittenAttribute.text]

theorem pair_written (item : Item) : item.written.pair = item.raw := by
  obtain ⟨name, content?⟩ := item
  cases content? <;> simp [written, raw, Template.WrittenAttribute.pair]

/-- An attribute with a name is read as it is written. -/
theorem isReadable {item : Item} (named : item.IsNamed) : item.written.IsReadable := by
  refine ⟨named, fun value given => ?_⟩
  obtain ⟨content, -, rfl⟩ := Option.map_eq_some_iff.mp given
  exact Text.quote_not_mem_escapeAttribute _

end Item

/-- The attribute that an attribute of a template says: the references in its text resolved. -/
def said (attribute_ : Template.Attribute) : Item :=
  ⟨attribute_.1, attribute_.2.map fun value => String.ofList (Text.unescape value.toList)⟩

/-- An attribute says what was written. -/
theorem said_raw (item : Item) : said item.raw = item := by
  obtain ⟨name, content?⟩ := item
  cases content? with
  | none => rfl
  | some content => simp [said, Item.raw, Text.unescape_escapeAttribute]

/-! ### The names of an element -/

/-- The attributes of a motion have names, and so have the phases that no framework here knows. -/
structure HasNames (motion : Motion) : Prop where
  attributes : ∀ name ∈ motion.attributes.keys, IsAttributeName name.toList
  phases : ∀ name ∈ motion.phases.keys, name ∉ Phase.names → IsAttributeName name.toList

variable {motion : Motion} {name : String}

theorem isAttributeName_cons {c : Char} {name : List Char} (part : isAttributePart c = true) (named : IsAttributeName name) :
    IsAttributeName (c :: name) :=
  ⟨List.cons_ne_nil _ _, List.forall_mem_cons.mpr ⟨part, named.2⟩⟩

theorem isNamed_bound (named : IsAttributeName name.toList) (value : Value) : (bound name value).IsNamed := by
  show IsAttributeName (":" ++ name).toList
  rw [String.toList_append]
  exact isAttributeName_cons (by decide) named

theorem isAttributeName_orderedPhases (names : HasNames motion) {phase : String} (member : phase ∈ motion.orderedPhases) :
    IsAttributeName phase.toList := by
  have known : ∀ phase ∈ Phase.names, IsAttributeName phase.toList := by decide
  rcases List.mem_append.mp member with among | among
  · exact known phase (List.mem_filter.mp among).1
  · obtain ⟨key, unknown⟩ := List.mem_filter.mp among
    exact names.phases phase key (by simpa using unknown)

theorem isAttributeName_spelling (named : IsAttributeName name.toList) (style : Phase.Style) :
    IsAttributeName (Phase.spelling name style).toList := by
  have spelled : ∀ style : Phase.Style, ∀ entry ∈ style.spellings, IsAttributeName entry.2.toList := by
    intro style
    cases style <;> decide
  unfold Phase.spelling
  cases found : style.spellings.lookup name with
  | none => exact named
  | some spelling =>
    obtain ⟨before, after, same, -⟩ := List.lookup_eq_some_iff.mp found
    exact spelled style (name, spelling) (same ▸ List.mem_append_right _ List.mem_cons_self)

theorem isAttributeName_bindingName (named : IsAttributeName name.toList) :
    IsAttributeName (bindingName motion name).toList := by
  unfold bindingName
  split
  · decide
  · split
    · decide
    · exact isAttributeName_spelling named _

theorem isNamed_plain (named : IsAttributeName name.toList) {value : Value} {item : Item}
    (written : attributeItem?.plain name value = some item) : item.IsNamed := by
  unfold attributeItem?.plain at written
  split at written
  · obtain rfl := Option.some.inj written
    exact named
  · obtain rfl := Option.some.inj written
    exact named
  · obtain rfl := Option.some.inj written
    exact isNamed_bound named _

theorem isNamed_attributeItem? (named : IsAttributeName name.toList) {value : Value} {item : Item}
    (written : attributeItem? (name, value) = some item) : item.IsNamed := by
  unfold attributeItem? at written
  dsimp only at written
  split at written
  · cases written
  · have here : IsAttributeName (if name = "className" then "class" else name).toList := by
      split
      · decide
      · exact named
    generalize (if name = "className" then "class" else name) = name at here written
    split at written
    · rename_i c rest opens
      split at written
      · obtain rfl := Option.some.inj written
        have parts : ∀ e ∈ 'o' :: 'n' :: c :: rest, isAttributePart e = true := opens ▸ here.2
        rw [List.forall_mem_cons, List.forall_mem_cons, List.forall_mem_cons] at parts
        show IsAttributeName (String.ofList ('@' :: Text.lowerForm c ++ rest)).toList
        rw [String.toList_ofList]
        refine ⟨List.cons_ne_nil _ _, List.forall_mem_cons.mpr ⟨by decide, ?_⟩⟩
        exact List.forall_mem_append.mpr ⟨Text.isAttributePart_lowerForm parts.2.2.1, parts.2.2.2⟩
      · exact isNamed_plain here written
    · exact isNamed_plain here written

theorem isNamed_plainItems (names : HasNames motion) {item : Item} (member : item ∈ plainItems motion) : item.IsNamed := by
  obtain ⟨⟨name, value⟩, field, written⟩ := List.mem_filterMap.mp member
  exact isNamed_attributeItem? (names.attributes name (List.mem_map_of_mem field)) written

/-- The attributes of an element that carries the directive have names. -/
theorem isNamed_directiveItems (names : HasNames motion) : ∀ item ∈ directiveItems motion, item.IsNamed := by
  intro item member
  unfold directiveItems at member
  dsimp only at member
  rw [List.mem_append, List.mem_append, List.mem_cons] at member
  rcases member with ((rfl | lone) | phase) | plain
  · exact (by decide : IsAttributeName "v-motion".toList)
  · split at lone
    · split at lone
      · obtain rfl := List.mem_singleton.mp lone
        exact isNamed_bound (by decide) _
      · cases lone
    · cases lone
  · obtain ⟨phase, ordered, rfl⟩ := List.mem_map.mp phase
    exact isNamed_bound (isAttributeName_bindingName (isAttributeName_orderedPhases names (List.mem_filter.mp ordered).1)) _
  · exact isNamed_plainItems names plain

/-- The attributes of an element that is a motion component have names. -/
theorem isNamed_componentItems (names : HasNames motion) : ∀ item ∈ componentItems motion, item.IsNamed := by
  intro item member
  unfold componentItems at member
  dsimp only at member
  rw [List.mem_append, List.mem_append] at member
  rcases member with (phase | viewport) | plain
  · obtain ⟨phase, ordered, rfl⟩ := List.mem_map.mp phase
    exact isNamed_bound (isAttributeName_spelling (isAttributeName_orderedPhases names ordered) _) _
  · split at viewport
    · obtain rfl := List.mem_singleton.mp viewport
      exact isNamed_bound (by decide) _
    · cases viewport
  · exact isNamed_plainItems names plain

/-! ### Tags -/

theorem isGap_itemGap {base : String} (blank : IsGap base.toList) (count : Nat) :
    IsGap (Layout.itemGap base count) ∧ Layout.itemGap base count ≠ [] := by
  have space : IsGap [' '] := List.forall_mem_singleton.mpr (by decide)
  have feed : IsGap ['\n'] := List.forall_mem_singleton.mpr (by decide)
  have unit : IsGap Layout.unit.toList := by unfold IsGap; decide
  unfold Layout.itemGap
  split
  · exact ⟨space, List.cons_ne_nil _ _⟩
  · exact ⟨feed.append (blank.append unit), List.cons_ne_nil _ _⟩

theorem isGap_endGap {base : String} (blank : IsGap base.toList) (count : Nat) (selfClosing : Bool) :
    IsGap (Layout.endGap base count selfClosing) := by
  have none_ : IsGap [] := List.forall_mem_nil _
  have space : IsGap [' '] := List.forall_mem_singleton.mpr (by decide)
  have feed : IsGap ['\n'] := List.forall_mem_singleton.mpr (by decide)
  unfold Layout.endGap
  split
  · cases selfClosing
    · exact none_
    · exact space
  · exact feed.append blank

/-- The characters of a tag, its attributes behind gaps. -/
theorem toList_tag (name : String) (items : List Item) (base : String) (selfClosing : Bool) :
    (Layout.tag name (items.map Item.text) base selfClosing).toList =
      Template.tagText name.toList (Layout.itemGap base items.length) (items.map Item.written)
        (Layout.endGap base items.length selfClosing) selfClosing := by
  rw [Layout.toList_tag, Template.tagText, Template.attributesText, Template.tagEnd, List.flatMap_map, List.flatMap_map,
    List.length_map]
  simp only [Item.toList_text]

theorem toList_closing (name : String) : ("</" ++ name ++ ">").toList = Template.closeText name.toList := by
  simp [Template.closeText]

theorem isReadable_written {items : List Item} (named : ∀ item ∈ items, item.IsNamed) :
    ∀ item ∈ items.map Item.written, item.IsReadable := by
  intro item member
  obtain ⟨item, among, rfl⟩ := List.mem_map.mp member
  exact Item.isReadable (named item among)

theorem map_pair_written (items : List Item) :
    (items.map Item.written).map Template.WrittenAttribute.pair = items.map Item.raw := by
  rw [List.map_map]
  exact List.map_congr_left fun item _ => item.pair_written

/-- A tag of some name and attributes, with its closing tag if it stays open, is a template with one element: this tag with
its attributes in order, each saying what was written. -/
def IsReadAs (tag name : String) (items : List Item) (selfClosing : Bool) : Prop :=
  ∀ (source : List Char) (offset : Nat), ∃ root node,
    Template.scan (tag.toList ++ if Template.staysOpen name selfClosing then ("</" ++ name ++ ">").toList else [])
      offset source = .ok root ∧
    root.children = [node] ∧ node.tag = name ∧ node.start = offset ∧ node.stop = offset + tag.toList.length ∧
    node.children = [] ∧ node.attributes = items.map Item.raw ∧ node.attributes.map said = items

theorem isReadAs_tag (isName : IsTagName name.toList) {items : List Item} (named : ∀ item ∈ items, item.IsNamed)
    {base : String} (blank : IsGap base.toList) (selfClosing : Bool) :
    IsReadAs (Layout.tag name (items.map Item.text) base selfClosing) name items selfClosing := by
  intro source offset
  obtain ⟨isGap, someGap⟩ := isGap_itemGap blank items.length
  have isEnd := isGap_endGap blank items.length selfClosing
  obtain ⟨texts, read⟩ :=
    Template.scan_written isName isGap someGap isEnd (isReadable_written named) selfClosing source offset
  rw [String.ofList_toList, map_pair_written, ← toList_tag, ← toList_closing] at read
  refine ⟨_, _, read, rfl, rfl, rfl, rfl, rfl, rfl, ?_⟩
  rw [List.map_map]
  exact (List.map_congr_left fun item _ => said_raw item).trans (List.map_id _)

/-- The opening tag of an element, as it carries the directive or as a component of some name, is read as it is written, and
any text that is escaped stands for itself. -/
theorem isReadAs_opening (motion : Motion) (names : HasNames motion) (base : String) (blank : IsGap base.toList)
    (selfClosing : Bool) :
    (IsTagName motion.tag.toList →
      IsReadAs (directiveStyle.opening motion base selfClosing) motion.tag (directiveItems motion) selfClosing) ∧
    (∀ name, IsTagName name.toList →
      IsReadAs ((componentStyle name).opening motion base selfClosing) name (componentItems motion) selfClosing) ∧
    ∀ text, Text.unescape (Text.escapeAttribute text) = text :=
  ⟨fun isName => isReadAs_tag isName (isNamed_directiveItems names) blank selfClosing,
    fun _ isName => isReadAs_tag isName (isNamed_componentItems names) blank selfClosing, Text.unescape_escapeAttribute⟩

/-- A card with a text full of signs that mean something in a template. -/
def card : Motion :=
  { Motion.ofTag "div" with
    phases := [("animate", .object [("x", .int 1)]), ("whileFocus", .object [("scale", .int 2)])]
    attributes := [("title", .text "a > \"b\" && 'c' &amp; <d/>"), ("onClick", .code "() => open(\"x\")")] }

/-- The names of the card are names. -/
theorem hasNames_card : HasNames card := ⟨by decide, by decide⟩

/-- The card is read as it is written, in both ways. -/
theorem isReadAs_card :
    IsReadAs (directiveStyle.opening card "  " false) "div" (directiveItems card) false ∧
      IsReadAs ((componentStyle "motion.div").opening card "  " false) "motion.div" (componentItems card) false :=
  have read := isReadAs_opening card hasNames_card "  " (by unfold IsGap; decide) false
  ⟨read.1 (by decide), read.2.1 "motion.div" (by decide)⟩

end TemplateRender

end AnimationCode
