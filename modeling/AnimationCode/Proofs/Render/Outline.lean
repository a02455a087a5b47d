/-
**The template of a component is well formed.**

The elements of a forest stand in the template one inside another, each with its attributes; an only
element without content holds a slot. Their closing tags are those of the elements with something inside,
so the template is read just if none of these is an element that never has content, and then it is read as
the forest that was written.

* `TemplateRender.rootOutlines`: the elements of a forest, and the slot;
* `TemplateRender.prints_rootLines`: the lines of a forest are a text of its elements;
* `TemplateRender.scan_render`: when the template of a component is read, and as what.
-/

import AnimationCode.Component.OfSource
import AnimationCode.Proofs.Render.OpeningTag
import AnimationCode.Proofs.Template.Outline

namespace AnimationCode

namespace TemplateRender

open Layout (behind gapAt indent elementLines forestLines rootLines hasRoom filling)
open Template (IsGap IsTagName IsToken Outline Prints closeEach nodeOutlines scan)

/-! ### Elements in a template -/

/-- A motion whose tag and attributes have names, and that has no text. -/
structure FitsTemplate (motion : Motion) : Prop where
  tag : IsTagName motion.tag.toList
  names : HasNames motion
  noText : motion.content?.getD "" = ""

/-- The element of a motion with elements inside it. -/
def outlineOf (motion : Motion) (children : List Outline) : Outline :=
  ⟨motion.tag, (directiveItems motion).map Item.raw, children⟩

mutual

/-- An element with all inside it. -/
def elementOutline : Element → Outline
  | ⟨own, children⟩ => outlineOf own (forestOutlines children)

/-- Elements with all inside them. -/
def forestOutlines : List Element → List Outline
  | [] => []
  | element :: rest => elementOutline element :: forestOutlines rest

end

/-- The slot. -/
def slotOutline : Outline := ⟨"slot", [], []⟩

/-- The elements of a forest; an only element that has room holds the slot. -/
def rootOutlines (forest : Forest) : List Outline :=
  if hasRoom forest then List.map (fun element => outlineOf element.own [slotOutline]) forest else forestOutlines forest

variable {motion : Motion}

theorem FitsTemplate.filling (fits : FitsTemplate motion) (standIn : Option String) :
    Layout.filling motion standIn = standIn := by
  have noText := fits.noText
  unfold Layout.filling
  split
  · rename_i text given
    rw [given] at noText
    exact if_pos noText
  · rfl

/-! ### Lines of elements -/

theorem isGap_gapAt (depth : Nat) : IsGap (gapAt depth) := by
  have space : Text.isBlank ' ' = true := by decide
  refine List.forall_mem_cons.mpr ⟨by decide, fun c member => ?_⟩
  rw [List.eq_of_mem_replicate member]
  exact space

theorem isGap_indent (depth : Nat) : IsGap (indent depth).toList := by
  rw [Layout.toList_indent]
  exact (List.forall_mem_cons.mp (isGap_gapAt depth)).2

theorem isToken_tag {name : String} (isName : IsTagName name.toList) {items : List Item}
    (named : ∀ item ∈ items, item.IsNamed) {base : String} (blank : IsGap base.toList) (selfClosing : Bool) :
    IsToken (Layout.tag name (items.map Item.text) base selfClosing).toList
      (.opening name (items.map Item.raw) selfClosing) := by
  intro after
  obtain ⟨isGap, someGap⟩ := isGap_itemGap blank items.length
  have isEnd := isGap_endGap blank items.length selfClosing
  have read := Template.token?_written isName isGap someGap isEnd (isReadable_written named) selfClosing after
  rwa [String.ofList_toList, map_pair_written, ← toList_tag] at read

theorem isToken_closing {name : String} (isName : IsTagName name.toList) :
    IsToken ("</" ++ name ++ ">").toList (.closing name) := by
  intro after
  have read := Template.token?_close isName after
  rwa [String.ofList_toList, ← toList_closing] at read

theorem isToken_opening (fits : FitsTemplate motion) (depth : Nat) (selfClosing : Bool) :
    IsToken (directiveStyle.opening motion (indent depth) selfClosing).toList
      (.opening motion.tag ((directiveItems motion).map Item.raw) selfClosing) :=
  isToken_tag fits.tag (isNamed_directiveItems fits.names) (isGap_indent depth) selfClosing

/-- An element without anything inside closes itself. -/
theorem prints_shut (fits : FitsTemplate motion) (depth : Nat) :
    Prints (behind [indent depth ++ directiveStyle.opening motion (indent depth) true]) [outlineOf motion []] := by
  rw [Layout.behind_indented, Layout.behind_nil, List.append_nil]
  exact .shut (isGap_gapAt depth) (isToken_opening fits depth true)

/-- Lines of elements between an opening tag and its closing tag. -/
theorem prints_around (fits : FitsTemplate motion) (depth : Nat) {inner : List String} {children : List Outline}
    (some_ : children ≠ []) (inside : Prints (behind inner) children) :
    Prints (behind ((indent depth ++ directiveStyle.opening motion (indent depth) false) :: inner ++
      [indent depth ++ "</" ++ motion.tag ++ ">"])) [outlineOf motion children] := by
  have closing : indent depth ++ "</" ++ motion.tag ++ ">" = indent depth ++ ("</" ++ motion.tag ++ ">") := by
    simp only [String.append_assoc]
  rw [List.cons_append, Layout.behind_indented, Layout.behind_append, closing, Layout.behind_indented, Layout.behind_nil,
    List.append_nil]
  exact .around (isGap_gapAt depth) (isToken_opening fits depth false) some_ inside (isGap_gapAt depth)
    (isToken_closing fits.tag)

mutual

/-- The lines of an element are a text of it. -/
theorem prints_elementLines (element : Element) (fits : ∀ motion ∈ element.motions, FitsTemplate motion) (depth : Nat) :
    Prints (behind (elementLines directiveStyle depth none element)) [elementOutline element] := by
  obtain ⟨own, children⟩ := element
  have here : FitsTemplate own := fits own (by simp [Element.motions])
  cases children with
  | nil =>
    have lines : elementLines directiveStyle depth none ⟨own, []⟩ =
        [indent depth ++ directiveStyle.opening own (indent depth) true] := by
      rw [elementLines, here.filling]
      rfl
    rw [lines, elementOutline, forestOutlines]
    exact prints_shut here depth
  | cons child others =>
    have inside := prints_forestLines (child :: others)
      (fun motion member => fits motion (by rw [Element.motions]; exact List.mem_cons_of_mem _ member)) (depth + 1)
    have lines : elementLines directiveStyle depth none ⟨own, child :: others⟩ =
        (indent depth ++ directiveStyle.opening own (indent depth) false) ::
          forestLines directiveStyle (depth + 1) (child :: others) ++ [indent depth ++ "</" ++ own.tag ++ ">"] := by
      have some_ := Layout.forestLines_ne_nil directiveStyle (depth + 1) child others
      rw [elementLines, if_neg (by simpa using some_)]
      rfl
    rw [lines, elementOutline]
    exact prints_around here depth (by rw [forestOutlines]; exact List.cons_ne_nil _ _) inside

/-- The lines of elements side by side are a text of them. -/
theorem prints_forestLines (forest : List Element) (fits : ∀ motion ∈ Element.motionsEach forest, FitsTemplate motion)
    (depth : Nat) : Prints (behind (forestLines directiveStyle depth forest)) (forestOutlines forest) := by
  match forest with
  | [] =>
    rw [forestLines, forestOutlines]
    exact .nil
  | element :: rest =>
    rw [forestLines, forestOutlines, Layout.behind_append]
    rw [Element.motionsEach] at fits
    exact .append (prints_elementLines element (fun motion member => fits motion (List.mem_append_left _ member)) depth)
      (prints_forestLines rest (fun motion member => fits motion (List.mem_append_right _ member)) depth)

end

theorem isToken_slot : IsToken "<slot />".toList (.opening "slot" [] true) := by
  have isName : IsTagName "slot".toList := by decide
  have named : ∀ item ∈ ([] : List Item), item.IsNamed := List.forall_mem_nil _
  have blank : IsGap "".toList := List.forall_mem_nil _
  exact isToken_tag isName named blank true

/-- The lines of a forest are a text of its elements and of the slot. -/
theorem prints_rootLines {forest : Forest} (fits : ∀ motion ∈ forest.motions, FitsTemplate motion) (depth : Nat) :
    Prints (behind (rootLines directiveStyle depth "<slot />" forest)) (rootOutlines forest) := by
  by_cases room : hasRoom forest = true
  · obtain ⟨own, rfl⟩ : ∃ own, forest = [⟨own, []⟩] := by
      unfold hasRoom at room
      split at room
      · rename_i element
        obtain ⟨own, children⟩ := element
        rw [Bool.and_eq_true, List.isEmpty_iff] at room
        obtain rfl : children = [] := room.1
        exact ⟨own, rfl⟩
      · cases room
    have here : FitsTemplate own := fits own (by simp [Forest.motions, Element.motionsEach, Element.motions])
    have lines : rootLines directiveStyle depth "<slot />" [⟨own, []⟩] =
        (indent depth ++ directiveStyle.opening own (indent depth) false) :: [indent (depth + 1) ++ "<slot />"] ++
          [indent depth ++ "</" ++ own.tag ++ ">"] := by
      rw [rootLines, if_pos room, List.flatMap_cons, List.flatMap_nil, List.append_nil, elementLines, here.filling,
        ← Layout.indent_succ]
      rfl
    have slot : Prints (behind [indent (depth + 1) ++ "<slot />"]) [slotOutline] := by
      rw [Layout.behind_indented, Layout.behind_nil, List.append_nil]
      exact .shut (isGap_gapAt (depth + 1)) isToken_slot
    rw [lines, rootOutlines, if_pos room]
    exact prints_around here depth (List.cons_ne_nil _ _) slot
  · rw [rootLines, if_neg room, rootOutlines, if_neg room]
    exact prints_forestLines forest fits depth

/-! ### The script after the template -/

/-- A line that holds no sign of a tag. -/
def IsCalm (line : String) : Prop := '<' ∉ line.toList

instance (line : String) : Decidable (IsCalm line) := inferInstanceAs (Decidable (¬ _))

theorem IsCalm.append {first second : String} (calm : IsCalm first) (calmToo : IsCalm second) : IsCalm (first ++ second) := by
  unfold IsCalm
  rw [String.toList_append, List.mem_append]
  exact not_or.mpr ⟨calm, calmToo⟩

theorem eq_of_mem_quoteCharacter {c : Char} (member : '<' ∈ Text.quoteCharacter c) : c = '<' := by
  obtain ⟨escaped, known, written⟩ | ⟨-, written⟩ := Text.quoteCharacter_cases c
  · have apart : ∀ escaped ∈ ['\\', '\'', 'n', 'r'], '<' ∉ ['\\', escaped] := by decide
    exact absurd (written ▸ member) (apart escaped known)
  · exact (List.mem_singleton.mp (written ▸ member)).symm

theorem isCalm_quote {text : String} (calm : IsCalm text) : IsCalm (String.ofList (Text.quote text.toList)) := by
  unfold IsCalm
  rw [String.toList_ofList, Text.quote, List.mem_append, List.mem_cons, List.mem_flatMap, List.mem_singleton]
  rintro ((mark | ⟨c, inside, quoted⟩) | mark)
  · exact absurd mark (by decide)
  · exact calm (eq_of_mem_quoteCharacter quoted ▸ inside)
  · exact absurd mark (by decide)

theorem not_mem_behind {lines : List String} (calm : ∀ line ∈ lines, IsCalm line) : '<' ∉ behind lines := by
  intro member
  obtain ⟨line, among, inside⟩ := List.mem_flatMap.mp member
  rcases List.mem_cons.mp inside with feed | inside
  · exact absurd feed (by decide)
  · exact calm line among inside

/-- The lines inside the setup block. -/
def setupInside (context : Context) (reduced : Bool) (placeholders : List String) : List String :=
  directiveImport.render ++ [""] ++
    ["defineOptions(\x7b name: " ++ String.ofList (Text.quote context.componentName.toList) ++ " \x7d);"] ++
    ["", "const vMotion = MotionDirective();"] ++
    (if reduced then ["", if context.typescript then ReducedMotion.typedDeclaration else ReducedMotion.declaration] else []) ++
    Layout.placeholderLines placeholders

theorem setupLines_eq (context : Context) (reduced : Bool) (placeholders : List String) :
    setupLines directiveImport context reduced placeholders true =
      ("<script setup" ++ (if context.typescript then " lang=\"ts\"" else "") ++ ">") ::
        setupInside context reduced placeholders ++ ["</script>"] := by
  unfold setupLines setupInside
  rfl

theorem isCalm_setupInside {context : Context} {placeholders : List String} (name : IsCalm context.componentName)
    (markers : ∀ text ∈ placeholders, IsCalm text) (reduced : Bool) :
    ∀ line ∈ setupInside context reduced placeholders, IsCalm line := by
  simp only [setupInside, List.forall_mem_append]
  refine ⟨⟨⟨⟨⟨by decide +kernel, by decide⟩, ?_⟩, by decide +kernel⟩, ?_⟩, ?_⟩
  · refine List.forall_mem_singleton.mpr (IsCalm.append (IsCalm.append ?_ (isCalm_quote name)) ?_)
    · decide
    · decide
  · cases reduced <;> cases context.typescript <;> decide +kernel
  · intro line member
    obtain ⟨text, among, rfl⟩ := List.mem_map.mp member
    exact IsCalm.append (by decide) (markers text among)

/-- The setup block of a component holds no closing tag of a template. -/
theorem untilLastClosing?_setup {context : Context} {placeholders : List String} (name : IsCalm context.componentName)
    (markers : ∀ text ∈ placeholders, IsCalm text) (reduced : Bool) :
    Blocks.untilLastClosing? (behind ("" :: setupLines directiveImport context reduced placeholders true) ++ ['\n']) =
      none := by
  have heading : IsCalm ("cript setup" ++ (if context.typescript then " lang=\"ts\"" else "") ++ ">") := by
    cases context.typescript <;> decide
  have split : behind ("" :: setupLines directiveImport context reduced placeholders true) ++ ['\n'] =
      ['\n', '\n'] ++ ('<' :: ('s' :: (("cript setup" ++ (if context.typescript then " lang=\"ts\"" else "") ++ ">").toList ++
        (behind (setupInside context reduced placeholders) ++ ['\n'])) ++ "</script>\n".toList)) := by
    rw [setupLines_eq]
    simp
  have others : '<' ∉ 's' :: (("cript setup" ++ (if context.typescript then " lang=\"ts\"" else "") ++ ">").toList ++
      (behind (setupInside context reduced placeholders) ++ ['\n'])) := by
    have inside := not_mem_behind (isCalm_setupInside name markers reduced)
    rw [List.mem_cons, List.mem_append, List.mem_append]
    rintro (first | early | late | last)
    · exact absurd first (by decide)
    · exact heading early
    · exact inside late
    · exact absurd last (by decide)
  have close : Blocks.untilLastClosing? "</script>\n".toList = none := by decide +kernel
  have rest := Blocks.untilLastClosing?_append others close
  have opening (more : List Char) : Blocks.closing? "template" ('<' :: 's' :: more) = none := rfl
  rw [split]
  refine Blocks.untilLastClosing?_append (by decide) ?_
  rw [Blocks.untilLastClosing?, rest, List.cons_append, opening]
  rfl

/-! ### The whole component -/

/-- The template of a component and the setup block after it. -/
theorem toList_render {forest : Forest} (some_ : forest ≠ []) (context : Context) (placeholders : List String) :
    (render forest context placeholders).toList =
      "<template>".toList ++ ((behind (rootLines directiveStyle 1 "<slot />" forest) ++ ['\n']) ++ ("</template>".toList ++
        (behind ("" :: setupLines directiveImport context forest.reducesMotion placeholders true) ++ ['\n']))) := by
  have notEmpty : forest.isEmpty = false := by simpa using some_
  have lines : render forest context placeholders = Layout.document (["<template>"] ++
      rootLines directiveStyle 1 "<slot />" forest ++ ["</template>", ""] ++
        setupLines directiveImport context forest.reducesMotion placeholders true) := by
    unfold render
    rw [notEmpty]
    rfl
  have some_ : ["<template>"] ++ rootLines directiveStyle 1 "<slot />" forest ++ ["</template>", ""] ++
      setupLines directiveImport context forest.reducesMotion placeholders true ≠ [] := by simp
  have whole := Layout.toList_document some_
  rw [← lines] at whole
  refine List.cons_injective (whole.trans ?_)
  simp

/-- The template of a component is read if nothing is inside an element that never has content, and only then. It is then
read as the elements of the forest, one inside another as in the forest, and the slot. -/
theorem scan_render {forest : Forest} {context : Context} {placeholders : List String} (some_ : forest ≠ [])
    (fits : ∀ motion ∈ forest.motions, FitsTemplate motion) (name : IsCalm context.componentName)
    (markers : ∀ text ∈ placeholders, IsCalm text) :
    ∃ markup offset scripts, Blocks.ofSource (render forest context placeholders).toList =
        .ok ⟨some (markup, offset), scripts, true⟩ ∧
      ((∃ root, scan markup offset (render forest context placeholders).toList = .ok root) ↔
        closeEach (rootOutlines forest) = true) ∧
      ∀ root, scan markup offset (render forest context placeholders).toList = .ok root →
        nodeOutlines root.children = rootOutlines forest := by
  have blocks := Blocks.ofSource_document (toList_render some_ context placeholders)
    (untilLastClosing?_setup name markers forest.reducesMotion)
  have feed : IsGap ['\n'] := List.forall_mem_singleton.mpr (by decide)
  exact ⟨_, _, _, blocks, Template.scan_eq_ok_iff_closes (prints_rootLines fits 1) feed _ _⟩

/-- An element of a tag that moves, with elements inside it. -/
def moving (tag : String) (children : Forest) : Element :=
  ⟨{ Motion.ofTag tag with phases := [("animate", .object [("x", .int 1)])] }, children⟩

/-- A picture inside a frame, and a field beside it. -/
theorem scan_render_frame : ∃ markup offset scripts root,
    let forest := [moving "div" [moving "img" []], moving "input" []]
    let text := (render forest ⟨.vue, false, "Box", ⟨false, false, false⟩⟩ []).toList
    Blocks.ofSource text = .ok ⟨some (markup, offset), scripts, true⟩ ∧ scan markup offset text = .ok root ∧
      nodeOutlines root.children = rootOutlines forest := by
  have fits (tag : String) (isName : IsTagName tag.toList) (children : Forest) : FitsTemplate (moving tag children).own :=
    ⟨isName, ⟨List.forall_mem_nil _, by show ∀ name ∈ ["animate"], _; decide⟩, rfl⟩
  have all : ∀ motion ∈ Forest.motions [moving "div" [moving "img" []], moving "input" []], FitsTemplate motion := by
    simp only [Forest.motions, moving, Element.motionsEach, Element.motions, List.append_nil, List.cons_append,
      List.nil_append, List.forall_mem_cons]
    exact ⟨fits "div" (by decide) [], fits "img" (by decide) [], fits "input" (by decide) [], List.forall_mem_nil _⟩
  obtain ⟨markup, offset, scripts, blocks, closed, outlines⟩ := @scan_render [moving "div" [moving "img" []], moving "input" []]
    ⟨.vue, false, "Box", ⟨false, false, false⟩⟩ [] (List.cons_ne_nil _ _) all (by decide) (List.forall_mem_nil _)
  obtain ⟨root, read⟩ := closed.mpr (by decide +kernel)
  exact ⟨markup, offset, scripts, root, blocks, read, outlines root read⟩

-- an only picture gets the slot and a closing tag, and is not read
example : (Source.read ⟨(render [⟨Motion.ofTag "img", []⟩] ⟨.vue, false, "Box", ⟨false, false, false⟩⟩ []).toList, some "vue",
    none, none⟩).toOption.isNone = true := by decide +kernel

end TemplateRender

end AnimationCode
