/-
**The characters of lines.**

A text of lines is what its lines are behind their line breaks, but for the first of these.

* `behind`: lines, each behind a line break;
* `behind_eq`, `toList_document`: the characters of lines as a text;
* `toList_indent`, `gapAt`: the characters of an indentation, and of the line break before it;
* `toList_tag`: the characters of an opening tag, its items behind gaps.
-/

import AnimationCode.Render.Layout

namespace AnimationCode

namespace Layout

/-- The characters of lines, each behind a line break. -/
def behind (lines : List String) : List Char := lines.flatMap fun line => '\n' :: line.toList

@[simp] theorem behind_nil : behind [] = [] := rfl

@[simp] theorem behind_cons (line : String) (rest : List String) :
    behind (line :: rest) = '\n' :: (line.toList ++ behind rest) := rfl

@[simp] theorem behind_append (first second : List String) :
    behind (first ++ second) = behind first ++ behind second := List.flatMap_append

theorem behind_eq {lines : List String} (some_ : lines ≠ []) :
    behind lines = '\n' :: (joined lines).toList := by
  induction lines with
  | nil => exact absurd rfl some_
  | cons line rest ih =>
    cases rest with
    | nil => simp [joined]
    | cons second rest =>
      rw [behind_cons, ih (List.cons_ne_nil _ _)]
      show _ = '\n' :: ("\n".intercalate (line :: second :: rest)).toList
      rw [String.intercalate_cons_cons, String.toList_append, String.toList_append, List.append_assoc]
      rfl

theorem toList_document {lines : List String} (some_ : lines ≠ []) :
    '\n' :: (document lines).toList = behind lines ++ ['\n'] := by
  rw [document, String.toList_append, behind_eq some_]
  rfl

theorem toList_indent (depth : Nat) : (indent depth).toList = List.replicate (2 * depth) ' ' := by
  rw [indent, String.toList_join]
  induction depth with
  | zero => rfl
  | succ depth ih =>
    rw [List.replicate_succ, List.flatMap_cons, ih, Nat.mul_succ, Nat.add_comm,
      ← List.replicate_append_replicate]
    rfl

/-- The line break and the indentation at a depth. -/
def gapAt (depth : Nat) : List Char := '\n' :: List.replicate (2 * depth) ' '

theorem behind_indented (depth : Nat) (line : String) (rest : List String) :
    behind ((indent depth ++ line) :: rest) = gapAt depth ++ (line.toList ++ behind rest) := by
  simp [gapAt, toList_indent]

theorem unit_eq : unit = indent 1 := by decide +kernel

theorem indent_succ (depth : Nat) : indent depth ++ unit = indent (depth + 1) := by
  rw [← String.toList_inj, String.toList_append, toList_indent, toList_indent, Nat.mul_succ,
    ← List.replicate_append_replicate]
  rfl

/-- What stands before each item of a tag: one item stands behind the name, several stand on lines of their own. -/
def itemGap (base : String) (count : Nat) : List Char := if count ≤ 1 then [' '] else '\n' :: (base.toList ++ unit.toList)

/-- What stands between the last item of a tag and its end. -/
def endGap (base : String) (count : Nat) (selfClosing : Bool) : List Char :=
  if count ≤ 1 then (if selfClosing then [' '] else []) else '\n' :: base.toList

theorem toList_tag (name base : String) (items : List String) (selfClosing : Bool) :
    (tag name items base selfClosing).toList = '<' :: (name.toList ++
      (items.flatMap (fun item => itemGap base items.length ++ item.toList) ++
        (endGap base items.length selfClosing ++ if selfClosing then ['/', '>'] else ['>']))) := by
  match items with
  | [] => cases selfClosing <;> simp [tag, itemGap, endGap]
  | [item] => cases selfClosing <;> simp [tag, itemGap, endGap]
  | first :: second :: rest =>
    have lines : '\n' :: (joined ((first :: second :: rest).map fun item => base ++ unit ++ item)).toList =
        (first :: second :: rest).flatMap fun item => itemGap base (first :: second :: rest).length ++ item.toList := by
      rw [← behind_eq (by simp), behind, List.flatMap_map]
      simp [itemGap]
    have whole : tag name (first :: second :: rest) base selfClosing =
        "<" ++ name ++ "\n" ++ joined ((first :: second :: rest).map fun item => base ++ unit ++ item) ++ "\n" ++ base ++
          (if selfClosing then "/>" else ">") := rfl
    rw [whole, ← lines]
    cases selfClosing <;> simp [endGap]

theorem elementLines_ne_nil (style : TagStyle) (depth : Nat) (standIn : Option String) (element : Element) :
    elementLines style depth standIn element ≠ [] := by
  obtain ⟨own, children⟩ := element
  cases children <;>
  · rw [elementLines]
    split <;> exact List.cons_ne_nil _ _

theorem forestLines_ne_nil (style : TagStyle) (depth : Nat) (element : Element) (rest : List Element) :
    forestLines style depth (element :: rest) ≠ [] := by
  rw [forestLines]
  exact List.append_ne_nil_of_left_ne_nil (elementLines_ne_nil style depth none element) _

end Layout

end AnimationCode
