/-
**Items between brackets.**

Lists, objects and arguments are items with commas between them and brackets around them.

* `Readable`: a text that a reader takes wherever an expression may end;
* `Lays`: the nodes of items, each where its text begins;
* `takes_enclosed`: items and the brackets around them.
-/

import AnimationCode.Proofs.Script.Primary
import AnimationCode.Proofs.Script.Tree

namespace AnimationCode

namespace Script

open Reader

/-- A text that a reader takes before what ends an expression, and what holds of its tree. -/
structure Item where
  text : List Char
  Fits : (Nat → Node) → Prop

/-- The text of items with commas between them. -/
def commaText : List Item → List Char
  | [] => []
  | item :: rest => item.text ++ rest.flatMap fun other => ',' :: ' ' :: other.text

/-- A reader takes a text before what ends an expression. -/
def Readable (reader : Reader Node) (d : Dialect) (item : Item) : Prop :=
  ∀ space after, Blank space → Stops after →
    ∃ tree, item.Fits tree ∧
      Takes reader d (space ++ item.text) after fun n => tree (n + space.length)

/-- The nodes of items, each from where its text begins. -/
def Lays : List Item → (Nat → List Node) → Prop
  | [], nodes => ∀ n, nodes n = []
  | item :: rest, nodes =>
    ∃ tree others, item.Fits tree ∧ Lays rest others ∧
      ∀ n, nodes n = tree n :: others (n + item.text.length + 2)

theorem stops_of_closer {c : Char} (closer : c ∈ closers) (rest : List Char) : Stops (c :: rest) :=
  ⟨[], c, rest, blank_nil, closer, rfl⟩

variable {reader : Reader Node} {d : Dialect} {after : List Char}

theorem stops_commaTail (rest : List Item) (stops : Stops after) :
    Stops ((rest.flatMap fun other => ',' :: ' ' :: other.text) ++ after) := by
  cases rest with
  | nil => exact stops
  | cons item others => exact stops_of_closer (by decide) _

theorem repeats_commaTail {items : List Item} (readable : ∀ item ∈ items, Readable reader d item)
    (stops : Stops after) (noComma : Refuses (sign ",") d after) :
    ∃ nodes, Lays items nodes ∧
      Repeats (do sign ","; return (← opt (do return [← reader])).getD []) d
        (items.flatMap fun item => ',' :: ' ' :: item.text) after
        fun n => (nodes (n + 2)).map fun node => [node] := by
  induction items with
  | nil => exact ⟨fun _ => [], fun _ => rfl, Refuses.repeats noComma.bind⟩
  | cons item rest ih =>
    obtain ⟨others, laid, repeats⟩ := ih fun other member => readable other (List.mem_cons_of_mem _ member)
    obtain ⟨tree, fits, takes⟩ := readable item List.mem_cons_self [' '] _ blank_space
      (stops_commaTail rest stops)
    refine ⟨fun n => tree n :: others (n + item.text.length + 2), ⟨tree, others, fits, laid, fun _ => rfl⟩, ?_⟩
    have first := Takes.commaItem (takes.map fun node => [node]) (solid_cons _ (by decide) (by decide))
    refine (first.follows.repeats (List.cons_ne_nil _ _) repeats).congr rfl fun n => ?_
    have place : n + (',' :: ([' '] ++ item.text)).length + 2 = n + 2 + item.text.length + 2 := by
      simp only [List.length_cons, List.length_append, List.length_nil]
      omega
    rw [place]
    rfl

theorem takes_commaText {items : List Item} (some_ : items ≠ [])
    (readable : ∀ item ∈ items, Readable reader d item) (stops : Stops after)
    (noComma : Refuses (sign ",") d after) {space : List Char} (blank : Blank space) :
    ∃ nodes, Lays items nodes ∧
      Takes (commaList do return [← reader]) d (space ++ commaText items) after
        fun n => nodes (n + space.length) := by
  cases items with
  | nil => exact absurd rfl some_
  | cons item rest =>
    obtain ⟨others, laid, repeats⟩ := repeats_commaTail
      (fun other member => readable other (List.mem_cons_of_mem _ member)) stops noComma
    obtain ⟨tree, fits, takes⟩ := readable item List.mem_cons_self space _ blank
      (stops_commaTail rest stops)
    refine ⟨fun n => tree n :: others (n + item.text.length + 2), ⟨tree, others, fits, laid, fun _ => rfl⟩, ?_⟩
    refine (Takes.commaList (takes.map fun node => [node]) repeats).congr ?_ fun n => ?_
    · rw [List.append_assoc]
      rfl
    · rw [List.length_append, ← Nat.add_assoc, ← List.flatMap_def, List.flatMap_singleton']
      rfl

/-- Items with brackets around them, and perhaps blanks inside the brackets. -/
theorem takes_enclosed {items : List Item} {opening closing : String} {c : Char} (kind : Kind)
    (some_ : items ≠ []) (readable : ∀ item ∈ items, Readable reader d item)
    (closes : closing.toList = [c]) (closer : c ∈ closers) (noComma : c ≠ ',')
    {space inner : List Char} (blank : Blank space) (blankInner : Blank inner)
    (solid : ∀ rest, Solid (opening.toList ++ rest)) (after : List Char) :
    ∃ nodes, Lays items nodes ∧
      Takes (construct kind do
          sign opening
          let found ← commaList do return [← reader]
          sign closing
          return found) d
        (space ++ (opening.toList ++ (inner ++ commaText items ++ (inner ++ closing.toList)))) after
        fun n => .mk kind .plain ⟨n + space.length, n + space.length +
            (opening.toList ++ (inner ++ commaText items ++ (inner ++ closing.toList))).length⟩
          (nodes (n + space.length + (opening.toList.length + inner.length))) := by
  have stops : Stops (inner ++ c :: after) := ⟨inner, c, after, blankInner, closer, rfl⟩
  have refusesComma : Refuses (sign ",") d (inner ++ c :: after) :=
    refuses_sign blankInner (solid_closer closer after) (startsWith_cons_of_ne [] after noComma.symm)
  obtain ⟨nodes, laid, takes⟩ := takes_commaText some_ readable stops refusesComma blankInner
  refine ⟨nodes, laid, ?_⟩
  have close : Takes (sign closing) d (inner ++ closing.toList) after fun _ => () :=
    takes_sign closing blankInner (by rw [closes]; exact solid_closer closer after)
  have open_ : Takes (sign opening) d ([] ++ opening.toList)
      (inner ++ commaText items ++ (inner ++ closing.toList) ++ after) fun _ => () :=
    takes_sign opening blank_nil (solid _)
  have rest : inner ++ closing.toList ++ after = inner ++ c :: after := by
    rw [closes, List.append_assoc]
    rfl
  rw [← rest] at takes
  have inside : Takes (do
      let found ← commaList do return [← reader]
      sign closing
      return found) d (inner ++ commaText items ++ (inner ++ closing.toList)) after
      fun n => nodes (n + inner.length) :=
    takes.bind (b := fun n _ => nodes (n + inner.length)) fun n =>
      (close.map fun _ => nodes (n + inner.length)).follows
  have whole : Takes (do
      sign opening
      let found ← commaList do return [← reader]
      sign closing
      return found) d ([] ++ opening.toList ++ (inner ++ commaText items ++ (inner ++ closing.toList)))
      after fun n => nodes (n + opening.toList.length + inner.length) :=
    open_.bind (b := fun _ m => nodes (m + inner.length)) fun _ => inside.follows
  rw [List.nil_append] at whole
  refine (whole.construct kind blank ?_).congr rfl fun n => ?_
  · rw [List.append_assoc]
    exact solid _
  · rw [Nat.add_assoc (n + space.length)]

/-- Brackets with nothing inside. -/
theorem takes_enclosed_nil {opening closing : String} {c : Char} (kind : Kind)
    (refuses : Refuses reader d (c :: after)) (closes : closing.toList = [c]) (closer : c ∈ closers)
    (noComma : c ≠ ',') {space : List Char} (blank : Blank space)
    (solid : ∀ rest, Solid (opening.toList ++ rest)) :
    Takes (construct kind do
        sign opening
        let found ← commaList do return [← reader]
        sign closing
        return found) d (space ++ (opening.toList ++ closing.toList)) after
      fun n => .mk kind .plain ⟨n + space.length,
        n + space.length + (opening.toList ++ closing.toList).length⟩ [] := by
  have refusesComma : Refuses (sign ",") d ([] ++ c :: after) :=
    refuses_sign blank_nil (solid_closer closer after) (startsWith_cons_of_ne [] after noComma.symm)
  have close : Takes (sign closing) d ([] ++ closing.toList) after fun _ => () :=
    takes_sign closing blank_nil (by rw [closes]; exact solid_closer closer after)
  have open_ : Takes (sign opening) d ([] ++ opening.toList) (closing.toList ++ after) fun _ => () :=
    takes_sign opening blank_nil (solid _)
  rw [List.nil_append] at close open_ refusesComma
  have none_ : Sees (commaList do return [← reader]) d (closing.toList ++ after) [] := by
    rw [closes]
    exact sees_commaList refuses.bind refusesComma
  have inside : Takes (do
      let found ← commaList do return [← reader]
      sign closing
      return found) d closing.toList after fun _ => [] :=
    none_.takes_bind (close.map fun _ => [])
  refine (open_.bind (b := fun _ _ => []) fun _ => inside.follows).construct kind blank ?_
  rw [List.append_assoc]
  exact solid _

/-! ### Where items stand -/

theorem Holds.tail {source : List Char} {n : Nat} {rest : List Item}
    (holds : Holds source n (rest.flatMap fun other => ',' :: ' ' :: other.text)) :
    Holds source (n + 2) (commaText rest) := by
  cases rest with
  | nil => exact List.nil_prefix
  | cons item others => exact (show Holds source n ([',', ' '] ++ _) from holds).right

/-- Every node fits its item, and stands where the text of the item does. -/
theorem Lays.fits {items : List Item} {nodes : Nat → List Node} (laid : Lays items nodes)
    (source : List Char) (n : Nat) :
    List.Forall₂ (fun item node => ∃ tree m, item.Fits tree ∧ node = tree m ∧
      (Holds source n (commaText items) → Holds source m item.text)) items (nodes n) := by
  induction items generalizing nodes n with
  | nil =>
    rw [show nodes n = [] from laid n]
    exact .nil
  | cons item rest ih =>
    obtain ⟨tree, others, fits, later, same⟩ := laid
    rw [same n]
    refine .cons ⟨tree, n, fits, rfl, fun holds => holds.left⟩ ?_
    refine (ih later (n + item.text.length + 2)).imp ?_
    rintro other node ⟨inner, m, fitsInner, rfl, stands⟩
    exact ⟨inner, m, fitsInner, rfl, fun holds => stands (Holds.tail holds.right)⟩

/-- What holds of every tree of an item holds of every node. -/
theorem Lays.all {items : List Item} {nodes : Nat → List Node} (laid : Lays items nodes)
    {Good : Node → Prop} (each : ∀ item ∈ items, ∀ tree, item.Fits tree → ∀ m, Good (tree m)) (n : Nat) :
    ∀ node ∈ nodes n, Good node := by
  induction items generalizing nodes n with
  | nil =>
    rw [show nodes n = [] from laid n]
    exact List.forall_mem_nil _
  | cons item rest ih =>
    obtain ⟨tree, others, fits, later, same⟩ := laid
    rw [same n]
    refine List.forall_mem_cons.mpr ⟨each item List.mem_cons_self tree fits n, ?_⟩
    exact ih later (fun other member => each other (List.mem_cons_of_mem _ member)) _

theorem length_le_commaText {item : Item} {items : List Item} (member : item ∈ items) :
    item.text.length ≤ (commaText items).length := by
  cases items with
  | nil => cases member
  | cons first rest =>
    rw [commaText, List.length_append]
    rcases List.mem_cons.mp member with rfl | later
    · exact Nat.le_add_right _ _
    · obtain ⟨before, behind, rfl⟩ := List.append_of_mem later
      simp only [List.flatMap_append, List.flatMap_cons, List.length_append, List.length_cons]
      omega

/-- Texts with commas between them. -/
theorem toList_intercalate_comma {α : Type} (write : α → String) (item : α → Item)
    (same : ∀ x, (write x).toList = (item x).text) (parts : List α) :
    (", ".intercalate (parts.map write)).toList = commaText (parts.map item) := by
  induction parts with
  | nil => rfl
  | cons first rest ih =>
    cases rest with
    | nil =>
      rw [List.map_singleton, List.map_singleton, String.intercalate_singleton, same]
      exact (List.append_nil _).symm
    | cons second rest =>
      rw [List.map_cons, List.map_cons, String.intercalate_cons_cons, String.toList_append,
        String.toList_append, ← List.map_cons, ih, same, List.append_assoc]
      rfl

end Script

end AnimationCode
