/-
**The statements that scripts share.**

A script holds the elements that its statements hold. What it imports and declares holds none; a function that it
hands out holds what its block does. It puts a blank line between its statements, and one with an element that gives way
to a wish for reduced motion declares whether there is that wish.

* `hold_along`: parts of which only the last holds something;
* `offers_export`: a function that is handed out;
* `wishPart`: the declaration of the wish as a statement of a script;
* `behind_wish`: its line, where a script has it.
-/

import AnimationCode.Proofs.Render.Lines
import AnimationCode.Proofs.Script.Conforms
import AnimationCode.Proofs.Script.Held
import AnimationCode.ReducedMotion

namespace AnimationCode

namespace Script

open Reader (Covers)
open Script.Markup (Hold hold_nothing)

variable {forest : Forest} {text : List Char} {n : Nat}

/-- The node of a part holds a forest. -/
def Part.Offers (part : Part) (forest : Forest) : Prop :=
  ∀ n node, part.Fits n node → Hold forest part.text n [node]

/-- What the nodes of parts hold, if only the last holds something. -/
theorem hold_along {before : List Part} {last : Part} (offer : ∀ part ∈ before, part.Offers [])
    (offers : last.Offers forest) {nodes : List Node} (along : Along (before ++ [last]) n nodes) :
    Hold forest (partsText (before ++ [last])) n nodes := by
  have shift {part : Part} {held : Forest} {node : Node} {m : Nat}
      (hold : Hold held part.text (m + part.space.length) [node]) : Hold held part.whole m [node] :=
    fun source wrapped holds => hold source wrapped holds.right
  induction before generalizing n nodes with
  | nil =>
    obtain ⟨node, others, rfl, fits, rfl⟩ := along
    have same : partsText ([] ++ [last]) = last.whole := List.append_nil _
    rw [same]
    exact shift (offers _ node fits)
  | cons part rest ih =>
    obtain ⟨node, others, rfl, fits, along⟩ := along
    have here := shift (offer part List.mem_cons_self _ node fits)
    exact here.append (ih (fun other member => offer other (List.mem_cons_of_mem _ member)) along)

theorem offers_nothing {part : Part} (avoids : ∀ n node, part.Fits n node → node.Avoids Node.elementKinds) :
    part.Offers [] := fun n node fits => hold_nothing (List.forall_mem_singleton.mpr (avoids n node fits)) _ _

/-- The import of names. -/
theorem isPart_import {d : Dialect} {space : List Char} {types : Bool} {names : List (List Char)} {module : List Char}
    (blank : Blank space) (some_ : names ≠ []) (importable : ∀ name ∈ names, IsImportable name)
    (noNull : '\x00' ∉ module) (form : types = true → d.typed = true) :
    IsPart d ⟨space, importText types names module, IsImport types names module⟩ :=
  (IsPart.imports blank some_ importable noNull form).weaken fun _ _ imported => imported.isImport importable

theorem offers_import {space : List Char} {types : Bool} {names : List (List Char)} {module : List Char} :
    Part.Offers ⟨space, importText types names module, IsImport types names module⟩ [] :=
  offers_nothing fun _ _ fits => fits.2.1.noElement

theorem offers_wish (space : List Char) : Part.Offers (.ofItem space (constItem guardName wishItem)) [] := by
  refine offers_nothing fun n node fits => ?_
  obtain ⟨tree, fits, rfl⟩ := fits
  exact wish_avoids fits n

/-- Nodes that hold nothing before one that holds a forest. -/
theorem hold_behind {before : List Node} {node : Node} (avoid : ∀ other ∈ before, other.Avoids Node.elementKinds)
    (hold : Hold forest text n [node]) : Hold forest text n (before ++ [node]) := by
  intro source wrapped holds
  obtain ⟨found, here, mirrors⟩ := hold source wrapped holds
  exact ⟨_, Markup.collect_append _ (Markup.collect_of_avoids _ before avoid) here, mirrors⟩

/-- A block holds what its statements do. -/
theorem hold_block {parts : List Part} {close : List Char} {node : Node}
    (inside : ∀ m nodes, Along parts m nodes → Hold forest (partsText parts) m nodes)
    (covers : Covers .block (bracedText parts close) (fun n => Along parts (n + 1)) n node) (role : Role) :
    Hold forest (bracedText parts close) n [node.as role] := by
  obtain ⟨nodes, rfl, along⟩ := covers
  exact (inside _ nodes along).mk (by decide) (fun source holds => holds.right.left) role _

/-- A function that is handed out holds what its block does. -/
theorem offers_export {space title signature_ body : List Char} {default_ : Bool}
    {Parameters : Nat → List Node → Prop} {Body : Nat → Node → Prop}
    (parameters : ∀ n nodes, Parameters n nodes → ∀ node ∈ nodes, node.Avoids Node.elementKinds)
    (inside : ∀ n node, Body n node → Hold forest body n [node.as .body]) :
    Part.Offers ⟨space, exportText default_ title signature_ body,
      IsExport default_ title signature_ body Parameters Body⟩ forest := by
  rintro n node ⟨marks, function_, rfl, inert, items, block_, rfl, items_, fits⟩
  have named : ∀ other ∈ [(Reader.leaf .identifier (n + 6 + (defaultWord default_).length + 1 + 9) title.length).as .name] ++
      items, other.Avoids Node.elementKinds := by
    refine List.forall_mem_append.mpr ⟨List.forall_mem_singleton.mpr ?_, parameters _ items items_⟩
    exact (Node.avoids_leaf _ _ (by decide)).as .name
  have declared (span : Span) : Hold forest (functionText title signature_ body) (n + 6 + (defaultWord default_).length + 1)
      [.mk .functionDeclaration .declaration span ([(Reader.leaf .identifier
        (n + 6 + (defaultWord default_).length + 1 + 9) title.length).as .name] ++ items ++ [block_.as .body])] := by
    refine (hold_behind named (inside _ block_ fits)).mk (by decide) (fun source holds => ?_) .declaration span
    convert holds.right.right.right.right using 1
    simp
    omega
  refine (hold_behind (fun mark member => (inert mark member).noElement) (declared _)).mk (by decide)
    (fun source holds => ?_) .plain _
  simpa [Nat.add_assoc] using holds.right.right.right

end Script

namespace Layout

open Script (Part partsText)

/-- What stands between two statements of a script. -/
def feeds : List Char := ['\n', '\n']

theorem blank_feeds : Script.Blank feeds := Script.blank_of_all rfl

/-- The declaration of the wish for reduced motion. -/
def wishPart : Part := .ofItem feeds (Script.constItem Script.guardName Script.wishItem)

theorem toList_declaration :
    ReducedMotion.declaration.toList = Script.constText Script.guardName Script.wishItem.text := by
  decide +kernel

/-- The line of the declaration, where a script has it. -/
theorem behind_wish (reduces : Bool) (more : List Char) :
    '\n' :: (behind (if reduces = true then [ReducedMotion.declaration, ""] else []) ++ more) =
      partsText (if reduces then [wishPart] else []) ++ '\n' :: more := by
  cases reduces
  · rfl
  · simp [partsText, Part.whole, wishPart, toList_declaration, feeds, Part.ofItem, Script.constItem]

theorem isPart_wishPart {d : Script.Dialect} : Script.IsPart d wishPart :=
  .statement blank_feeds (.const Script.isSubject_guardName .wish)

theorem declares_wishPart : wishPart.Declares [] := Script.declares_nothing fun n node fits => by
  obtain ⟨tree, ⟨inner, -, rfl⟩, rfl⟩ := fits
  exact fun same => Script.Kind.noConfusion same

end Layout

end AnimationCode
