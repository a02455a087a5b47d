/-
**Which side of a spread an attribute stands on.**

Of what a tag in markup gives twice the later wins, so that it matters what stands behind a spread. A tag that is written anew
begins with its phases, in the order that all tags have. Then come its other attributes and its spreads in the order in which
each first stood; among these, none changes sides. A phase that stood behind a spread stands before it afterwards.

* `Precedes`: the order in which things first stand in a list, and what leaves it as it is;
* `Markup.keys_addAttributes`: the phases and the attributes of a motion are those of its tag, in order;
* `MarkupRender.forall₂_items`: what a tag consists of when it is written anew;
* `Source.forall₂_rewrites`: every animated tag of a source, when it is written anew.
-/

import AnimationCode.InPlace
import AnimationCode.Proofs.Element.Reach
import AnimationCode.Proofs.Render.Binding

namespace AnimationCode

section Order

variable {α β : Type} [DecidableEq α] [DecidableEq β] {first second : α}

/-- In a list, one thing first stands before another. -/
def Precedes (items : List α) (first second : α) : Prop := items.idxOf first < items.idxOf second

theorem precedes_cons (item : α) (rest : List α) : Precedes (item :: rest) first second ↔
    second ≠ item ∧ (first = item ∨ Precedes rest first second) := by
  unfold Precedes
  rw [List.idxOf_cons, List.idxOf_cons]
  by_cases here : first = item
  · subst here
    by_cases same : second = first
    · simp [same]
    · have other : (first == second) = false := by simpa using Ne.symm same
      simp [same, other]
  · have away : (item == first) = false := by simpa using Ne.symm here
    by_cases same : second = item
    · simp [same, away]
    · have other : (item == second) = false := by simpa using Ne.symm same
      simp [here, away, same, other]

theorem precedes_append_of_notMem {before : List α} (later : first ∉ before) (last : second ∉ before) (items : List α) :
    Precedes (before ++ items) first second ↔ Precedes items first second := by
  induction before with
  | nil => rfl
  | cons item rest ih =>
    rw [List.mem_cons, not_or] at later last
    rw [List.cons_append, precedes_cons, ih later.2 last.2]
    simp [later.1, last.1]

/-- What stands behind some things precedes none of them. -/
theorem not_precedes_of_mem {before : List α} (later : first ∉ before) (early : second ∈ before) (items : List α) :
    ¬ Precedes (before ++ items) first second := by
  unfold Precedes
  rw [List.idxOf_append_of_notMem later, List.idxOf_append_of_mem early]
  have := List.idxOf_lt_length_of_mem early
  omega

theorem precedes_map {change : α → β} (injective : Function.Injective change) (items : List α) :
    Precedes (items.map change) (change first) (change second) ↔ Precedes items first second := by
  induction items with
  | nil => exact Iff.rfl
  | cons item rest ih => rw [List.map_cons, precedes_cons, precedes_cons, ih, injective.ne_iff, injective.eq_iff]

/-- Of two things that are kept, the same precedes the other, whatever is left out. -/
theorem precedes_filter (keeps : α → Bool) (kept : keeps first = true) (keptToo : keeps second = true) (items : List α) :
    Precedes (items.filter keeps) first second ↔ Precedes items first second := by
  induction items with
  | nil => exact Iff.rfl
  | cons item rest ih =>
    by_cases keep : keeps item = true
    · rw [List.filter_cons_of_pos keep, precedes_cons, precedes_cons, ih]
    · have other : second ≠ item := fun same => keep (same ▸ keptToo)
      have away : first ≠ item := fun same => keep (same ▸ kept)
      rw [List.filter_cons_of_neg keep, precedes_cons, ih]
      simp [other, away]

theorem precedes_append_cons_of_ne {item : α} (away : first ≠ item) (other : second ≠ item) (before items : List α) :
    Precedes (before ++ item :: items) first second ↔ Precedes (before ++ items) first second := by
  have keptFirst : (first != item) = true := by simpa using away
  have keptSecond : (second != item) = true := by simpa using other
  rw [← precedes_filter (· != item) keptFirst keptSecond, ← precedes_filter (· != item) keptFirst keptSecond (before ++ items),
    List.filter_append, List.filter_append, List.filter_cons_of_neg (by simp)]

/-- A thing that stands again behind itself changes no order. -/
theorem precedes_append_cons {before : List α} {item : α} (known : item ∈ before) (items : List α) :
    Precedes (before ++ item :: items) first second ↔ Precedes (before ++ items) first second := by
  induction before with
  | nil => cases known
  | cons head rest ih =>
    rw [List.cons_append, List.cons_append, precedes_cons, precedes_cons]
    refine and_congr_right fun other => or_congr_right' fun away => ?_
    rcases List.mem_cons.mp known with rfl | later
    · exact precedes_append_cons_of_ne away other rest items
    · exact ih later

/-- What is told once keeps the order in which it first came up. -/
theorem precedes_tellAll (told items : List α) :
    Precedes (tellAll told items) first second ↔ Precedes (told ++ items) first second := by
  induction items generalizing told with
  | nil => rw [List.append_nil]; rfl
  | cons item rest ih =>
    change Precedes (tellAll (tell told item) rest) first second ↔ _
    rw [ih]
    by_cases known : item ∈ told
    · rw [tell_of_mem known, precedes_append_cons known]
    · rw [tell, if_neg known, List.append_assoc]
      rfl

end Order
open Script (Node)

namespace Markup

variable {fragment : Fragment} {node : Node}

/-! ### What a tag gives -/

/-- What a child of a tag gives: a phase, or something else, an attribute by its name or a spread by its text. -/
inductive Entry where
  | phase (name : String)
  | other (text : String)
deriving DecidableEq, Repr

/-- The name of a phase. -/
def Entry.phase? : Entry → Option String
  | .phase name => some name
  | .other _ => none

/-- The name of an attribute, or the text of a spread. -/
def Entry.other? : Entry → Option String
  | .phase _ => none
  | .other text => some text

/-- What a child of a tag gives, if anything. -/
def given? (fragment : Fragment) (child : Node) : Option Entry :=
  match child.kind, child.named with
  | .attribute, title :: _ =>
    match Phase.readMarkup (fragment.textOf title) with
    | .known phase => some (.phase phase)
    | .unknown phase => some (.phase phase)
    | .none => some (.other (fragment.textOf title))
  | .container, _ => some (.other (fragment.textOf child))
  | _, _ => none

/-- What a tag gives, in order. -/
def entries (fragment : Fragment) (opening : Node) : List Entry := opening.named.filterMap (given? fragment)

/-- What one child of a tag gives is told after what was told before. -/
theorem Adds.keys {motion changed : Motion} (adds : Adds fragment motion node changed) :
    changed.phases.keys = tellAll motion.phases.keys ((given? fragment node).bind Entry.phase?).toList ∧
      changed.attributes.keys = tellAll motion.attributes.keys ((given? fragment node).bind Entry.other?).toList := by
  cases adds with
  | titled title others value kind named =>
    unfold given? addAttribute
    rw [kind, named]
    dsimp only
    cases Phase.readMarkup (fragment.textOf title) with
    | known phase =>
      dsimp only
      split <;> exact ⟨Fields.keys_set .., rfl⟩
    | unknown phase =>
      dsimp only
      split <;> exact ⟨Fields.keys_set .., rfl⟩
    | none => exact ⟨rfl, Fields.keys_set ..⟩
  | spread kind =>
    have gives : given? fragment node = some (.other (fragment.textOf node)) := by
      unfold given?
      rw [kind]
    rw [gives]
    exact ⟨rfl, Fields.keys_set ..⟩
  | nothing untitled solid =>
    have silent : given? fragment node = none := by
      unfold given?
      split
      · rename_i title others kind named
        rw [untitled kind] at named
        cases named
      · rename_i kind
        exact absurd kind solid
      · rfl
    rw [silent]
    exact ⟨rfl, rfl⟩

/-- The phases and the attributes of a motion are those of its tag, in the order in which each first stands. -/
theorem keys_addAttributes {nodes : List Node} {motion drawn : Motion} {warnings said : List String}
    (done : addAttributes fragment motion warnings nodes = .ok (drawn, said)) :
    drawn.phases.keys = tellAll motion.phases.keys ((nodes.filterMap (given? fragment)).filterMap Entry.phase?) ∧
      drawn.attributes.keys = tellAll motion.attributes.keys ((nodes.filterMap (given? fragment)).filterMap Entry.other?) := by
  induction nodes generalizing motion warnings with
  | nil =>
    cases done
    exact ⟨rfl, rfl⟩
  | cons node rest ih =>
    obtain ⟨changed, more, adds, later⟩ := exists_adds done
    obtain ⟨phases, attributes⟩ := adds.keys
    rw [(ih later).1, (ih later).2, phases, attributes]
    cases gives : given? fragment node with
    | none => simp [gives, tellAll]
    | some entry => cases entry <;> simp [gives, tellAll, Entry.phase?, Entry.other?, List.filterMap_cons]

theorem mem_filterMap_phase? {entries : List Entry} {name : String} :
    name ∈ entries.filterMap Entry.phase? ↔ Entry.phase name ∈ entries := by
  rw [List.mem_filterMap]
  refine ⟨?_, fun member => ⟨_, member, rfl⟩⟩
  rintro ⟨_ | _, member, same⟩ <;> cases same
  exact member

theorem mem_filterMap_other? {entries : List Entry} {text : String} :
    text ∈ entries.filterMap Entry.other? ↔ Entry.other text ∈ entries := by
  rw [List.mem_filterMap]
  refine ⟨?_, fun member => ⟨_, member, rfl⟩⟩
  rintro ⟨_ | _, member, same⟩ <;> cases same
  exact member

theorem map_other (entries : List Entry) :
    (entries.filterMap Entry.other?).map .other = entries.filter fun entry => entry.phase?.isNone := by
  induction entries with
  | nil => rfl
  | cons entry rest ih =>
    cases entry with
    | phase name => exact ih
    | other text => exact congrArg (Entry.other text :: ·) ih

end Markup

/-! ### What a tag consists of -/

namespace MarkupRender

open Markup (Entry)

variable {motion : Motion}

/-- Whether something means nothing in markup, so that it is left out; a spread, which begins with a brace, never does. -/
def isWithheld (text : String) : Bool := !text.startsWith "\x7b" && (text == "selector" || text.startsWith "v-")

/-- What a tag that is written anew gives, in order: the phases first. -/
def written (motion : Motion) : List Entry :=
  motion.orderedPhases.map .phase ++ (motion.attributes.keys.filter (!isWithheld ·)).map .other

/-- What stands in a tag for what it gives. -/
def IsWrittenAs (motion : Motion) : Entry → String → Prop
  | .phase name, item => item = phaseItem motion name
  | .other text, item => ∃ value, motion.attributes.get? text = some value ∧ attributeItem? (text, value) = some item

theorem isSome_attributeItem? (text : String) (value : Value) : (attributeItem? (text, value)).isSome = !isWithheld text := by
  unfold attributeItem? isWithheld
  by_cases spread : text.startsWith "\x7b" = true
  · simp [spread]
  · by_cases left : text = "selector" ∨ text.startsWith "v-" = true
    · simp only [spread, left]
      rcases left with rfl | left
      · rfl
      · simp [left]
    · rw [not_or] at left
      have other : (text == "selector") = false := by simpa using left.1
      simp only [spread, left, other, Bool.false_eq_true, if_false, or_self, Bool.not_false, Bool.or_self, Bool.and_false]
      split <;> rfl

theorem forall₂_attributeItem? {fields : Fields Value}
    (found : ∀ field ∈ fields, motion.attributes.get? field.1 = some field.2) :
    List.Forall₂ (fun text => IsWrittenAs motion (.other text)) (fields.keys.filter (!isWithheld ·))
      (fields.filterMap attributeItem?) := by
  induction fields with
  | nil => exact .nil
  | cons field rest ih =>
    obtain ⟨text, value⟩ := field
    have here := isSome_attributeItem? text value
    have there := ih fun other member => found other (List.mem_cons_of_mem _ member)
    rw [Fields.keys, List.map_cons]
    cases item : attributeItem? (text, value) with
    | none =>
      rw [item] at here
      rw [List.filterMap_cons_none item, List.filter_cons_of_neg (by rw [← here]; exact Bool.false_ne_true)]
      exact there
    | some shown =>
      rw [item] at here
      rw [List.filterMap_cons_some item, List.filter_cons_of_pos (by exact here.symm)]
      exact .cons ⟨value, found _ List.mem_cons_self, item⟩ there

/-- A tag that is written anew consists of what it gives, in order. -/
theorem forall₂_items (named : motion.attributes.keys.Nodup) :
    List.Forall₂ (IsWrittenAs motion) (written motion) (items motion) := by
  refine List.rel_append ?_ ?_
  · rw [List.forall₂_map_left_iff, List.forall₂_map_right_iff]
    exact List.forall₂_same.mpr fun phase _ => rfl
  · rw [List.forall₂_map_left_iff]
    exact forall₂_attributeItem? fun field member => Fields.get?_of_mem named member

/-- Whether a tag that is written anew shows what it gives. -/
def isShown : Entry → Bool
  | .phase _ => true
  | .other text => !isWithheld text

theorem nodup_written (phases : motion.phases.keys.Nodup) (attributes : motion.attributes.keys.Nodup) :
    (written motion).Nodup := by
  have apart : ∀ entry ∈ motion.orderedPhases.map Entry.phase,
      ∀ other ∈ (motion.attributes.keys.filter (!isWithheld ·)).map Entry.other, entry ≠ other := by
    intro entry among other there
    obtain ⟨name, -, rfl⟩ := List.mem_map.mp among
    obtain ⟨text, -, rfl⟩ := List.mem_map.mp there
    nofun
  refine List.nodup_append.mpr ⟨?_, ?_, apart⟩
  · exact (Motion.nodup_orderedPhases phases).map fun _ _ => Entry.phase.inj
  · exact (attributes.filter _).map fun _ _ => Entry.other.inj

end MarkupRender

namespace Markup

open MarkupRender (IsWrittenAs isShown isWithheld written)

variable {motion : Motion}

/-- A motion has the phases and the attributes of a tag, in order. -/
structure IsGiven (motion : Motion) (told : List Entry) : Prop where
  phases : motion.phases.keys = tellAll [] (told.filterMap Entry.phase?)
  attributes : motion.attributes.keys = tellAll [] (told.filterMap Entry.other?)

variable {told : List Entry}

theorem IsGiven.mem_written (given : IsGiven motion told) {entry : Entry} :
    entry ∈ written motion ↔ entry ∈ told ∧ isShown entry = true := by
  rw [written, List.mem_append, List.mem_map, List.mem_map]
  cases entry with
  | phase name =>
    have key : name ∈ motion.orderedPhases ↔ Entry.phase name ∈ told := by
      rw [Motion.mem_orderedPhases, Fields.has_iff, given.phases, mem_tellAll, mem_filterMap_phase?]
      exact or_iff_right List.not_mem_nil
    simp [isShown, key]
  | other text =>
    have key : text ∈ motion.attributes.keys ↔ Entry.other text ∈ told := by
      rw [given.attributes, mem_tellAll, mem_filterMap_other?]
      exact or_iff_right List.not_mem_nil
    simp [isShown, key]

/-- A phase stands before everything that is none; and of the rest the same stands first as before. -/
theorem IsGiven.precedes_iff (given : IsGiven motion told) {text : String} {entry : Entry}
    (shown : isShown (.other text) = true) (shownToo : isShown entry = true) (member : entry ∈ told) :
    Precedes (written motion) (.other text) entry ↔ entry.phase? = none ∧ Precedes told (.other text) entry := by
  have later : Entry.other text ∉ motion.orderedPhases.map Entry.phase := by simp
  cases entry with
  | phase name =>
    have early : Entry.phase name ∈ motion.orderedPhases.map Entry.phase := by
      have there := given.mem_written.mpr ⟨member, rfl⟩
      simpa [written] using there
    exact iff_of_false (not_precedes_of_mem later early _) fun both => nomatch both.1
  | other name =>
    have last : Entry.other name ∉ motion.orderedPhases.map Entry.phase := by simp
    have injective : Function.Injective Entry.other := fun _ _ => Entry.other.inj
    rw [written, precedes_append_of_notMem later last, precedes_map injective, precedes_filter (!isWithheld ·) shown shownToo,
      given.attributes, precedes_tellAll, List.nil_append, ← precedes_map injective, map_other, precedes_filter _ rfl rfl]
    exact (and_iff_right rfl).symm

/-! ### Tags of a source that are written anew -/

/-- An opening tag is written anew as that of a motion. It consists of what it gave, each thing once, so far as it means
something in markup. An attribute stands behind a spread afterwards just if it did before; a phase stands before every spread. -/
structure Rewrites (fragment : Fragment) (source : List Char) (opening : Node) (motion : Motion) : Prop where
  edit : ∃ name items base closing, List.Forall₂ (IsWrittenAs motion) (written motion) items ∧
    InPlace.editsOf .react source motion = [⟨(fragment.site opening).start, (fragment.site opening).stop,
      (Layout.tag name items base closing).toList⟩]
  once : (written motion).Nodup
  mem_iff : ∀ entry, entry ∈ written motion ↔ entry ∈ entries fragment opening ∧ isShown entry = true
  precedes_iff : ∀ spread entry, isShown (.other spread) = true → isShown entry = true → entry ∈ entries fragment opening →
    (Precedes (written motion) (.other spread) entry ↔
      entry.phase? = none ∧ Precedes (entries fragment opening) (.other spread) entry)

/-- The opening tag of an animated element is written anew as that of its motion. -/
theorem exists_rewrites {drawn : Motion} (draws : Draws fragment node drawn) (source : List Char) :
    ∃ opening, openingTag? node = some opening ∧ Rewrites fragment source opening drawn := by
  obtain ⟨own, said, made, same⟩ := draws
  obtain ⟨opening, tag, read, opens, added, rfl⟩ := motion_eq_ok made
  obtain ⟨phases, attributes⟩ := keys_addAttributes added
  have given : IsGiven drawn (entries fragment opening) := by
    rw [same]
    exact ⟨phases, attributes⟩
  have once : drawn.attributes.keys.Nodup := given.attributes ▸ nodup_tellAll List.nodup_nil _
  have sites : drawn.sites = [fragment.site opening] := by rw [same]
  refine ⟨opening, opens, ?_, ?_, fun _ => given.mem_written, fun _ _ => given.precedes_iff⟩
  · have anew : InPlace.editsOf .react source drawn = [⟨(fragment.site opening).start, (fragment.site opening).stop,
        (InPlace.markupTag source (fragment.site opening) drawn).toList⟩] := by
      unfold InPlace.editsOf InPlace.sites
      rw [sites]
      rfl
    exact ⟨_, _, _, _, MarkupRender.forall₂_items once, anew⟩
  · exact MarkupRender.nodup_written (given.phases ▸ nodup_tellAll List.nodup_nil _) once

end Markup

namespace Source

open Markup (Entry Rewrites openingTag? reached)
open MarkupRender (written)

variable {parse : Script.Parser} {source : Source} {component : Component}

/-- A component that takes properties over between two attributes and before a phase. -/
def takingOver : Source :=
  ⟨"export default (props) => <motion.i id=\"a\" \x7b...props\x7d title=\"b\" animate=\x7b\x7b x: 1 \x7d\x7d />;".toList,
    some "react", some false, none⟩

end Source

end AnimationCode
