/-
**Trees and the texts under them.**

* `Holds`: a text stands at an offset of a source;
* `Avoids`, `IsInert`: no call, no variable and no element is in a tree;
* `evaluate_as`: the role of a node does not change its value;
* `insertRemarks_nil`: a tree without remarks to put into it.
-/

import AnimationCode.Proofs.Script.Token
import AnimationCode.Script.Literal

namespace AnimationCode

namespace Script

/-- A text stands at an offset of a source. -/
def Holds (source : List Char) (offset : Nat) (text : List Char) : Prop := text <+: source.drop offset

namespace Holds

variable {source text more : List Char} {n : Nat}

theorem left (holds : Holds source n (text ++ more)) : Holds source n text :=
  (List.prefix_append text more).trans holds

theorem right (holds : Holds source n (text ++ more)) : Holds source (n + text.length) more := by
  obtain ⟨rest, same⟩ := holds
  refine ⟨rest, ?_⟩
  rw [← List.drop_drop, ← same, List.append_assoc, List.drop_left]

theorem text_eq (holds : Holds source n text) (node : Node) (span : node.span = ⟨n, n + text.length⟩) :
    node.text source = text := by
  rw [Node.text, span]
  dsimp only
  rw [Nat.add_sub_cancel_left]
  exact (List.prefix_iff_eq_take.mp holds).symm

end Holds

theorem holds_zero (text after : List Char) : Holds (text ++ after) 0 text := List.prefix_append text after

namespace Node

/-! ### Roles -/

@[simp] theorem kind_as (node : Node) (role : Role) : (node.as role).kind = node.kind := by
  cases node
  rfl

@[simp] theorem role_as (node : Node) (role : Role) : (node.as role).role = role := by
  cases node
  rfl

@[simp] theorem span_as (node : Node) (role : Role) : (node.as role).span = node.span := by
  cases node
  rfl

@[simp] theorem children_as (node : Node) (role : Role) : (node.as role).children = node.children := by
  cases node
  rfl

@[simp] theorem text_as (source : List Char) (node : Node) (role : Role) :
    (node.as role).text source = node.text source := by
  rw [text, text, span_as]

/-! ### Trees without some kinds of nodes -/

/-- No node of a tree is of some kinds. -/
def Avoids (kinds : List Kind) (node : Node) : Prop := ∀ inner ∈ node.walk, inner.kind ∉ kinds

theorem walkAll_eq_flatMap (nodes : List Node) : walkAll nodes = nodes.flatMap walk := by
  induction nodes with
  | nil => rw [walkAll, List.flatMap_nil]
  | cons node rest ih => rw [walkAll, ih, List.flatMap_cons]

theorem avoids_mk {kinds : List Kind} {kind : Kind} {role : Role} {span : Span} {children : List Node}
    (other : kind ∉ kinds) (avoid : ∀ child ∈ children, child.Avoids kinds) :
    (mk kind role span children).Avoids kinds := by
  intro inner member
  rw [walk, walkAll_eq_flatMap] at member
  rcases List.mem_cons.mp member with rfl | below
  · exact other
  · obtain ⟨child, among, inside⟩ := List.mem_flatMap.mp below
    exact avoid child among inner inside

theorem avoids_leaf {kinds : List Kind} {kind : Kind} (start length : Nat) (other : kind ∉ kinds) :
    (Reader.leaf kind start length).Avoids kinds := avoids_mk other (List.forall_mem_nil _)

theorem Avoids.as {kinds : List Kind} {node : Node} (avoids : node.Avoids kinds) (role : Role) :
    (node.as role).Avoids kinds := by
  obtain ⟨kind, old, span, children⟩ := node
  intro inner member
  rw [Node.as, walk] at member
  rcases List.mem_cons.mp member with rfl | below
  · exact avoids (mk kind old span children) (by rw [walk]; exact List.mem_cons_self)
  · exact avoids inner (by rw [walk]; exact List.mem_cons_of_mem _ below)

theorem Avoids.child {kinds : List Kind} {kind : Kind} {role : Role} {span : Span} {children : List Node}
    (avoids : (mk kind role span children).Avoids kinds) {child : Node} (member : child ∈ children) :
    child.Avoids kinds := by
  intro inner inside
  refine avoids inner ?_
  rw [walk, walkAll_eq_flatMap]
  exact List.mem_cons_of_mem _ (List.mem_flatMap.mpr ⟨child, member, inside⟩)

theorem Avoids.kind {kinds : List Kind} {node : Node} (avoids : node.Avoids kinds) : node.kind ∉ kinds := by
  obtain ⟨kind, role, span, children⟩ := node
  refine avoids _ ?_
  rw [walk]
  exact List.mem_cons_self

theorem Avoids.of_subset {kinds fewer : List Kind} {node : Node} (avoids : node.Avoids kinds)
    (subset : fewer ⊆ kinds) : node.Avoids fewer := fun inner member among =>
  avoids inner member (subset among)

/-- The kinds of elements. -/
def elementKinds : List Kind := [.element, .selfClosingTag]

/-- The kinds of nodes that are looked for in a script: calls, variables and elements. -/
def marked : List Kind := [.call, .declarator, .element, .selfClosingTag]

/-- No call, no variable and no element is in a tree. -/
def IsInert (node : Node) : Prop := node.Avoids marked

theorem isInert_mk {kind : Kind} {role : Role} {span : Span} {children : List Node}
    (unmarked : kind ∉ marked) (inert : ∀ child ∈ children, child.IsInert) :
    (mk kind role span children).IsInert := avoids_mk unmarked inert

theorem isInert_leaf {kind : Kind} (start length : Nat) (unmarked : kind ∉ marked) :
    (Reader.leaf kind start length).IsInert := avoids_leaf start length unmarked

theorem IsInert.as {node : Node} (inert : node.IsInert) (role : Role) : (node.as role).IsInert :=
  Avoids.as inert role

theorem IsInert.noElement {node : Node} (inert : node.IsInert) : node.Avoids elementKinds :=
  Avoids.of_subset inert (by decide)

/-! ### Remarks -/

mutual

theorem insertRemarks_nil (node : Node) : insertRemarks [] node = node := by
  obtain ⟨kind, role, span, children⟩ := node
  rw [insertRemarks, insertAmong_nil children]

theorem insertAmong_nil (nodes : List Node) : insertAmong [] nodes = nodes := by
  match nodes with
  | [] => rw [insertAmong, List.map_nil]
  | mk kind role span children :: rest =>
    rw [insertAmong]
    dsimp only [List.filter_nil]
    rw [insertRemarks_nil (mk kind role span children), insertAmong_nil rest]
    rfl

end

end Node

/-! ### Values -/

theorem evaluate_as (source : List Char) (node : Node) (role : Role) :
    evaluate source (node.as role) = evaluate source node := by
  obtain ⟨kind, old, span, children⟩ := node
  rw [Node.as]
  unfold evaluate
  rfl

end Script

end AnimationCode
