/-
**Scripts that are written afresh begin with their import lines.**

No other line of such a script begins with the word, since a value is written on one line and each line begins with a
word of the language, a sign or the name of a phase.

* `Imports.IsQuietLine`: a line that does not begin with the word;
* `MarkupRender.beginsWith_render`: the import lines of a script with markup;
* `CallRender.beginsWith_render?`: the import lines of a script of calls.
-/

import AnimationCode.Proofs.Import.Head
import AnimationCode.Proofs.Render.Component
import AnimationCode.Proofs.Render.Function

namespace AnimationCode

namespace Imports

open ImportLine (isFirm isQuiet)

/-- A line that does not begin with the word. -/
structure IsQuietLine (line : String) : Prop where
  single : '\n' ∉ line.toList
  quiet : isQuiet line.toList = true

theorem isQuietLine_append {first rest : String} (firm : isFirm first.toList = true) (opens : '\n' ∉ first.toList)
    (single : '\n' ∉ rest.toList) : IsQuietLine (first ++ rest) := by
  refine ⟨?_, ?_⟩
  · rw [String.toList_append, List.mem_append]
    exact not_or.mpr ⟨opens, single⟩
  · rw [String.toList_append]
    exact ImportLine.isQuiet_of_isFirm firm _

theorem IsQuietLine.indented {line : String} (isQuietLine : IsQuietLine line) (depth : Nat) :
    IsQuietLine (Layout.indent depth ++ line) := by
  refine ⟨?_, ?_⟩
  · rw [String.toList_append, List.mem_append, Layout.toList_indent]
    exact not_or.mpr ⟨fun member => absurd (List.eq_of_mem_replicate member) (by decide), isQuietLine.single⟩
  · rw [String.toList_append, Layout.toList_indent, ImportLine.isQuiet_indented]
    exact isQuietLine.quiet

theorem IsQuietLine.isQuiet {line : String} (isQuietLine : IsQuietLine line) : IsQuiet line.toList :=
  isQuiet_of_line isQuietLine.quiet isQuietLine.single

/-- An opening tag with its items, at an indentation. -/
theorem isQuiet_tag {name : String} (single : '\n' ∉ name.toList) {items : List String}
    (each : ∀ item ∈ items, IsQuietLine item) (depth : Nat) (selfClosing : Bool) :
    IsQuiet (Layout.indent depth ++ Layout.tag name items (Layout.indent depth) selfClosing).toList := by
  have close : '\n' ∉ (if selfClosing then "/>" else ">").toList ∧ '\n' ∉ (if selfClosing then " " else "").toList := by
    cases selfClosing <;> decide
  match items with
  | [] =>
    have line : IsQuietLine ("<" ++ (name ++ ((if selfClosing then " " else "") ++ if selfClosing then "/>" else ">"))) := by
      refine isQuietLine_append (by decide) (by decide) ?_
      simp only [String.toList_append, List.mem_append, not_or]
      exact ⟨single, close.2, close.1⟩
    rw [← String.append_assoc, ← String.append_assoc] at line
    exact (line.indented depth).isQuiet
  | [item] =>
    have line : IsQuietLine ("<" ++ (name ++ (" " ++ (item ++ ((if selfClosing then " " else "") ++
        if selfClosing then "/>" else ">"))))) := by
      refine isQuietLine_append (by decide) (by decide) ?_
      simp only [String.toList_append, List.mem_append, not_or]
      exact ⟨single, by decide, (each item List.mem_cons_self).single, close.2, close.1⟩
    rw [← String.append_assoc, ← String.append_assoc, ← String.append_assoc, ← String.append_assoc] at line
    exact (line.indented depth).isQuiet
  | first :: second :: rest =>
    have last : IsQuietLine (if selfClosing then "/>" else ">") := by
      cases selfClosing <;> exact ⟨by decide, by decide⟩
    -- several items stand on lines of their own, a level deeper
    have inside : ∀ line ∈ (first :: second :: rest).map (Layout.indent depth ++ Layout.unit ++ ·), IsQuiet line.toList := by
      intro line member
      obtain ⟨item, among, rfl⟩ := List.mem_map.mp member
      rw [Layout.indent_succ]
      exact ((each item among).indented (depth + 1)).isQuiet
    obtain ⟨text, same, quiet⟩ := isQuiet_behind inside (last.indented depth).isQuiet
    rw [Layout.behind_eq (by simp)] at same
    have head : IsQuietLine ("<" ++ name) := isQuietLine_append (by decide) (by decide) single
    refine cast (congrArg IsQuiet ?_) ((head.indented depth).isQuiet.append quiet)
    rw [← same]
    change _ = (Layout.indent depth ++ ("<" ++ name ++ "\n" ++ Layout.joined ((first :: second :: rest).map
      (Layout.indent depth ++ Layout.unit ++ ·)) ++ "\n" ++ Layout.indent depth ++ _)).toList
    simp [String.toList_append]

end Imports

namespace ImportLine

/-- Names from a module on a line of their own. -/
theorem isPlain_namedImport {types : Bool} {names : List (List Char)} {module : List Char} (some_ : names ≠ [])
    (isModule : IsModule module) (each : ∀ name ∈ names, IsSpecifier name) :
    (Script.namedImport types names module).line.IsPlain where
  source := by
    change IsModule (String.ofList module).toList
    rwa [String.toList_ofList]
  default := nofun
  named := by
    intro spec member
    obtain ⟨name, among, rfl⟩ := List.mem_map.mp member
    rw [String.toList_ofList]
    exact each name among
  typed _ := by
    have filled : (names.map String.ofList).isEmpty = false := by simpa using some_
    simp [Script.namedImport, ImportDeclaration.line, binds, filled]
  untyped := nofun

/-- A name, and perhaps another one. -/
theorem forall_isSpecifier {first second : List Char} (here : IsSpecifier first) (there : IsSpecifier second) (both : Bool) :
    ∀ name ∈ first :: (if both = true then [second] else []), IsSpecifier name := by
  refine List.forall_mem_cons.mpr ⟨here, ?_⟩
  split
  · exact List.forall_mem_singleton.mpr there
  · exact List.forall_mem_nil _

end ImportLine

/-- The lines of the declaration of the wish for reduced motion, where a script has it. -/
theorem Layout.isQuiet_wish (reduces : Bool) :
    ∀ line ∈ (if reduces = true then [ReducedMotion.declaration, ""] else []), Imports.IsQuiet line.toList := by
  split
  · exact List.forall_mem_cons.mpr ⟨Imports.IsQuietLine.isQuiet ⟨by decide +kernel, by decide +kernel⟩,
      List.forall_mem_singleton.mpr Imports.isQuiet_nil⟩
  · exact List.forall_mem_nil _

/-- A word is on one line. -/
theorem Script.IsWord.line_not_mem {word : List Char} (isWord : Script.IsWord word) : '\n' ∉ word :=
  fun member => absurd (isWord.all _ member) (by decide)

namespace MarkupRender

open Imports (BeginsWith IsQuiet IsQuietLine)

/-- A value that a tag has for a phase is on one line. -/
theorem line_not_mem_valueText {motion : Motion} (writable : IsWritable motion) {phase : String}
    (present : motion.phases.has phase = true) : '\n' ∉ (valueText (phaseValue motion phase)).toList := by
  have braced {value : Value} (literal : value.IsLiteral) : '\n' ∉ ("\x7b" ++ value.print ++ "\x7d").toList := by
    simp [Value.line_not_mem_print value literal]
  obtain ⟨value, found⟩ := Option.isSome_iff_exists.mp present
  obtain ⟨-, isPhaseValue⟩ := isPhaseValue_of_get? writable found
  rw [phaseValue_of_get? found]
  obtain ⟨fields, rfl, literal⟩ | ⟨isState, label, rfl, isLabel, noFeed⟩ := isPhaseValue
  · split
    · exact @braced (.guarded (.object fields)) literal
    · exact braced literal
  · rw [if_neg (by rintro ⟨rfl, -⟩; exact absurd isState (by decide))]
    have noQuote : '"' ∉ label.toList := fun member => (isLabel '"' member).1 rfl
    simp [valueText, noQuote, noFeed]

theorem isQuietLine_phaseItem {motion : Motion} (writable : IsWritable motion) {phase : String}
    (present : motion.phases.has phase = true) : IsQuietLine (phaseItem motion phase) := by
  have spelled : ∀ phase ∈ Phase.names, ImportLine.isFirm (Phase.spelling phase .markup ++ "=").toList = true ∧
      '\n' ∉ (Phase.spelling phase .markup ++ "=").toList := by decide
  obtain ⟨value, found⟩ := Option.isSome_iff_exists.mp present
  obtain ⟨firm, opens⟩ := spelled phase (isPhaseValue_of_get? writable found).1
  exact Imports.isQuietLine_append firm opens (line_not_mem_valueText writable present)

theorem line_not_mem_name {motion : Motion} (writable : IsWritable motion) :
    '\n' ∉ ((style motionSpace).name motion).toList := by
  rw [style, String.toList_append, List.mem_append]
  exact not_or.mpr ⟨by decide, writable.tag.isWord.line_not_mem⟩

/-- The opening tag of a motion. -/
theorem isQuiet_opening {motion : Motion} (writable : IsWritable motion) (depth : Nat) (selfClosing : Bool) :
    IsQuiet (Layout.indent depth ++ (style motionSpace).opening motion (Layout.indent depth) selfClosing).toList := by
  refine Imports.isQuiet_tag (line_not_mem_name writable) ?_ depth selfClosing
  change ∀ item ∈ items motion, IsQuietLine item
  rw [items, writable.attributes, List.filterMap_nil, List.append_nil]
  refine List.forall_mem_map.mpr fun phase member => ?_
  exact isQuietLine_phaseItem writable (Motion.mem_orderedPhases.mp member)

theorem isQuiet_closing {motion : Motion} (writable : IsWritable motion) (depth : Nat) :
    IsQuiet (Layout.indent depth ++ "</" ++ (style motionSpace).name motion ++ ">").toList := by
  have single : '\n' ∉ ((style motionSpace).name motion ++ ">").toList := by
    rw [String.toList_append, List.mem_append]
    exact not_or.mpr ⟨line_not_mem_name writable, by decide⟩
  have line : IsQuietLine ("</" ++ ((style motionSpace).name motion ++ ">")) :=
    Imports.isQuietLine_append (by decide) (by decide) single
  rw [String.append_assoc, String.append_assoc]
  exact (line.indented depth).isQuiet

mutual

/-- No line of an element begins with the word. -/
theorem isQuiet_elementLines (depth : Nat) {standIn : Option String} (room : standIn ∈ [none, some slot])
    (element : Element) (writable : ∀ motion ∈ element.motions, IsWritable motion) :
    ∀ line ∈ Layout.elementLines (style motionSpace) depth standIn element, IsQuiet line.toList := by
  obtain ⟨own, children⟩ := element
  have writableOwn : IsWritable own := writable own (by simp [Element.motions])
  have around {inner : List String} (inside : ∀ line ∈ inner, IsQuiet line.toList) : ∀ line ∈
      (Layout.indent depth ++ (style motionSpace).opening own (Layout.indent depth) false) :: inner ++
        [Layout.indent depth ++ "</" ++ (style motionSpace).name own ++ ">"], IsQuiet line.toList :=
    List.forall_mem_cons.mpr ⟨isQuiet_opening writableOwn depth false, List.forall_mem_append.mpr
      ⟨inside, List.forall_mem_singleton.mpr (isQuiet_closing writableOwn depth)⟩⟩
  match children with
  | [] =>
    rw [Layout.elementLines, filling_eq writableOwn]
    simp only [List.mem_cons, List.not_mem_nil, or_false] at room
    rcases room with rfl | rfl
    · exact List.forall_mem_singleton.mpr (isQuiet_opening writableOwn depth true)
    · have line : IsQuietLine slot := ⟨by decide, by decide⟩
      refine around (List.forall_mem_singleton.mpr ?_)
      rw [Layout.indent_succ]
      exact (line.indented (depth + 1)).isQuiet
  | child :: others =>
    have inside := isQuiet_forestLines (depth + 1) (child :: others) fun motion member =>
      writable motion (by rw [Element.motions]; exact List.mem_cons_of_mem _ member)
    have some_ := Layout.forestLines_ne_nil (style motionSpace) (depth + 1) child others
    rw [Layout.elementLines, if_neg (by rwa [List.isEmpty_iff])]
    exact around inside

/-- No line of elements side by side begins with the word. -/
theorem isQuiet_forestLines (depth : Nat) (forest : List Element)
    (writable : ∀ motion ∈ Element.motionsEach forest, IsWritable motion) :
    ∀ line ∈ Layout.forestLines (style motionSpace) depth forest, IsQuiet line.toList := by
  match forest with
  | [] => exact List.forall_mem_nil _
  | element :: rest =>
    rw [Layout.forestLines]
    exact List.forall_mem_append.mpr ⟨isQuiet_elementLines depth List.mem_cons_self element fun motion member =>
      writable motion (by rw [Element.motionsEach]; exact List.mem_append_left _ member),
      isQuiet_forestLines depth rest fun motion member =>
        writable motion (by rw [Element.motionsEach]; exact List.mem_append_right _ member)⟩

end

theorem isQuiet_rootLines (depth : Nat) {forest : Forest} (writable : ∀ motion ∈ forest.motions, IsWritable motion) :
    ∀ line ∈ Layout.rootLines (style motionSpace) depth slot forest, IsQuiet line.toList := by
  unfold Layout.rootLines
  split
  · rename_i room
    obtain ⟨own, rfl⟩ := exists_of_hasRoom room
    rw [List.flatMap_cons, List.flatMap_nil, List.append_nil]
    exact isQuiet_elementLines depth (by simp) ⟨own, []⟩ fun motion member =>
      writable motion (by simpa [Forest.motions, Element.motionsEach] using member)
  · exact isQuiet_forestLines depth forest writable

/-- No line of what a component returns begins with the word. -/
theorem isQuiet_tree {forest : Forest} (presence : Bool) (writable : ∀ motion ∈ forest.motions, IsWritable motion) :
    ∀ line ∈ tree forest presence, IsQuiet line.toList := by
  have around {first last : String} (opens : IsQuietLine first) (closes : IsQuietLine last) (depth : Nat) {lines : List String}
      (inside : ∀ line ∈ lines, IsQuiet line.toList) :
      ∀ line ∈ (Layout.indent depth ++ first) :: lines ++ [Layout.indent depth ++ last], IsQuiet line.toList :=
    List.forall_mem_cons.mpr ⟨(opens.indented depth).isQuiet, List.forall_mem_append.mpr
      ⟨inside, List.forall_mem_singleton.mpr (closes.indented depth).isQuiet⟩⟩
  have core (depth : Nat) (several : Bool) : ∀ line ∈ (if several = true then
      (Layout.indent (depth - 1) ++ "<>") :: Layout.rootLines (style motionSpace) depth slot forest ++
        [Layout.indent (depth - 1) ++ "</>"]
      else Layout.rootLines (style motionSpace) depth slot forest), IsQuiet line.toList := by
    cases several with
    | false => exact isQuiet_rootLines depth writable
    | true => exact around ⟨by decide, by decide⟩ ⟨by decide, by decide⟩ _ (isQuiet_rootLines depth writable)
  unfold tree
  cases presence with
  | false => exact core _ _
  | true => exact around ⟨by decide, by decide⟩ ⟨by decide, by decide⟩ _ (core _ _)

theorem isPlain_declarations (presence typed : Bool) :
    ∀ declaration ∈ declarations presence typed, declaration.line.IsPlain := by
  refine List.forall_mem_cons.mpr ⟨ImportLine.isPlain_namedImport (List.cons_ne_nil _ _) ⟨by decide, by decide⟩ ?_, ?_⟩
  · exact ImportLine.forall_isSpecifier ⟨by decide, by decide, by decide⟩ ⟨by decide, by decide, by decide⟩ presence
  · split
    · exact List.forall_mem_singleton.mpr (ImportLine.isPlain_namedImport (List.cons_ne_nil _ _) ⟨by decide, by decide⟩
        (List.forall_mem_singleton.mpr ⟨by decide, by decide, by decide⟩))
    · exact List.forall_mem_nil _

/-- The import lines of a script are those of what it imports. -/
theorem render_declarations {forest : Forest} (some_ : forest ≠ []) (presence typed : Bool) :
    (imports forest presence typed).render = (declarations presence typed).map ImportDeclaration.statement := by
  have full : forest.isEmpty = false := List.isEmpty_eq_false_iff.mpr some_
  rw [imports, full]
  cases presence <;> cases typed <;> rfl

/-- A script with markup begins with what it imports. -/
theorem beginsWith_render {forest : Forest} (some_ : forest ≠ [])
    (writable : ∀ motion ∈ forest.motions, IsWritable motion) {context : Context}
    (pascal : Declarations.isPascal context.componentName = true) :
    BeginsWith (declarations (leaves forest) (isTyped forest context)) (render forest context []).toList := by
  have named := (Script.isCapital_of_isPascal pascal).isWord.line_not_mem
  have plain := isPlain_declarations (leaves forest) (isTyped forest context)
  have imported := render_declarations some_ (leaves forest) (isTyped forest context)
  have inside := isQuiet_tree (leaves forest) writable
  have quiet (line : String) (single : '\n' ∉ line.toList) (other : ImportLine.isQuiet line.toList = true) :
      IsQuiet line.toList := IsQuietLine.isQuiet ⟨single, other⟩
  unfold render
  unfold leaves isTyped at *
  dsimp only
  rw [imported]
  generalize forest.motions.any (·.hasPhase .exit) = presence at *
  generalize (Layout.hasRoom forest && context.typescript) = typed at *
  generalize context.componentName = name at *
  have filled : ((declarations presence typed).map ImportDeclaration.statement).isEmpty = false := rfl
  rw [filled, if_neg Bool.false_ne_true]
  simp only [List.append_assoc]
  refine Imports.beginsWith_document plain ?_ (List.cons_ne_nil _ _)
  simp only [List.forall_mem_append, List.forall_mem_singleton]
  refine ⟨Imports.isQuiet_nil, Layout.isQuiet_wish _, ?_, ?_, List.forall_mem_nil _, ?_, quiet _ (by decide) (by decide)⟩
  · split
    · have first : IsQuiet ("interface " ++ name ++ "Props \x7b").toList := by
        rw [String.append_assoc]
        exact (Imports.isQuietLine_append (by decide) (by decide) (by simp [named])).isQuiet
      exact List.forall_mem_cons.mpr ⟨first, List.forall_mem_cons.mpr ⟨quiet _ (by decide) (by decide),
        List.forall_mem_cons.mpr ⟨quiet _ (by decide) (by decide), List.forall_mem_singleton.mpr Imports.isQuiet_nil⟩⟩⟩
    · exact List.forall_mem_nil _
  · rw [String.append_assoc, String.append_assoc, String.append_assoc]
    refine (Imports.isQuietLine_append (by decide) (by decide) ?_).isQuiet
    cases Layout.hasRoom forest <;> cases typed <;> simp [named]
  · split
    · exact List.forall_mem_singleton.mpr (quiet _ (by decide) (by decide))
    · exact List.forall_mem_cons.mpr ⟨quiet _ (by decide) (by decide), List.forall_mem_append.mpr
        ⟨inside, List.forall_mem_singleton.mpr (quiet _ (by decide) (by decide))⟩⟩

end MarkupRender

namespace CallRender

open Imports (BeginsWith IsQuiet IsQuietLine)

variable {motion : Motion} {target : String} {fields : Fields Value} {options? : Option Value}

theorem isQuietLine_call (single : '\n' ∉ target.toList) (literal : (Value.object fields).IsLiteral)
    (areLiteral : AreLiteral options?) {last : String} (ends_ : '\n' ∉ last.toList) :
    IsQuietLine (call target (.object fields) options? ++ last) := by
  have parts : ∀ text ∈ target :: (Value.object fields).print :: (options?.map Value.print).toList, '\n' ∉ text.toList := by
    refine List.forall_mem_cons.mpr ⟨single, List.forall_mem_cons.mpr ⟨Value.line_not_mem_print _ literal, ?_⟩⟩
    intro text member
    obtain ⟨options, known, rfl⟩ := Option.mem_map.mp (Option.mem_toList.mp member)
    exact Value.line_not_mem_print options (areLiteral options known)
  have closes : '\n' ∉ (")" ++ last).toList := by
    rw [String.toList_append, List.mem_append]
    exact not_or.mpr ⟨by decide, ends_⟩
  have inside := @Value.line_not_mem_joined "" (")" ++ last) _ (by decide) parts closes
  rw [call, String.append_assoc, String.append_assoc]
  rw [String.append_assoc, String.empty_append] at inside
  exact Imports.isQuietLine_append (by decide) (by decide) inside

/-- The lines of a statement in a function that is passed on. -/
theorem isQuietLine_inCallback {head statement : String} (opens : IsQuietLine (head ++ ", () => \x7b"))
    (calls : IsQuietLine (statement ++ ";")) : ∀ line ∈ inCallback head statement, IsQuietLine line := by
  refine List.forall_mem_cons.mpr ⟨opens, List.forall_mem_cons.mpr ⟨?_, List.forall_mem_singleton.mpr
    ⟨by decide, by decide⟩⟩⟩
  rw [String.append_assoc, Layout.unit_eq]
  exact calls.indented 1

/-- The lines for a phase of an element. -/
theorem isQuietLine_phaseStatements (callable : IsCallable motion) {rest : String} (named : target = "el" ++ rest)
    (single : '\n' ∉ rest.toList) (phase : Phase) : ∀ line ∈ phaseStatements motion target phase, IsQuietLine line := by
  have whole : '\n' ∉ target.toList := by
    rw [named, String.toList_append, List.mem_append]
    exact not_or.mpr ⟨by decide, single⟩
  unfold phaseStatements
  cases found : motion.keyframes? phase with
  | none => exact List.forall_mem_nil _
  | some fields =>
    rw [Option.isNone_some, if_neg Bool.false_ne_true]
    have back : IsQuietLine (siteCall motion ("restore:" ++ phase.name) target ++ ";") := by
      rw [siteCall_restore found]
      exact isQuietLine_call whole (literal_restValues callable found) (areLiteral_options? callable) (by decide)
    have here : IsQuietLine (siteCall motion phase.name target ++ ";") := by
      rw [siteCall_phase found]
      split
      · rw [String.append_assoc]
        refine isQuietLine_call whole (literal_keyframes callable found) ?_ (by decide)
        split
        · exact fun _ member => by cases member
        · exact areLiteral_options? callable
      · exact isQuietLine_call whole (literal_keyframes callable found) (areLiteral_options? callable) (by decide)
    have listen (event : String) : IsQuietLine (target ++ ".addEventListener(" ++
        String.ofList (Text.quote event.toList) ++ ", () => \x7b") := by
      rw [named, String.append_assoc, String.append_assoc, String.append_assoc]
      refine Imports.isQuietLine_append (by decide) (by decide) ?_
      simp only [String.toList_append, String.toList_ofList, List.mem_append, not_or]
      exact ⟨single, by decide, Text.line_not_mem_quote _, by decide⟩
    split
    · exact List.forall_mem_append.mpr
        ⟨isQuietLine_inCallback (listen _) here, isQuietLine_inCallback (listen _) back⟩
    · split
      · refine isQuietLine_inCallback ?_ here
        rw [String.append_assoc]
        refine Imports.isQuietLine_append (by decide) (by decide) ?_
        rw [String.toList_append, List.mem_append]
        exact not_or.mpr ⟨whole, by decide⟩
      · exact List.forall_mem_singleton.mpr here

theorem isQuietLine_statements (callable : IsCallable motion) {rest : String} (named : target = "el" ++ rest)
    (single : '\n' ∉ rest.toList) : ∀ line ∈ statements motion target, IsQuietLine line := by
  intro line member
  rw [statements_of_callable callable] at member
  obtain ⟨phase, -, among⟩ := List.mem_flatMap.mp member
  exact isQuietLine_phaseStatements callable named single phase line among

/-- The lines for an element that has to be looked up. -/
theorem isQuietLine_lookedUp (callable : IsCallable motion) (position : Nat) (selector : String) :
    ∀ line ∈ lookedUp position selector motion, IsQuietLine line := by
  have single : '\n' ∉ (toString position).toList := fun member => by
    rw [toList_toString] at member
    exact absurd (List.all_eq_true.mp (Decimal.isDigit_digitsOf position) _ member) (by decide)
  have inside : ∀ line ∈ statements motion ("el" ++ toString position), IsQuietLine line :=
    isQuietLine_statements callable rfl single
  unfold lookedUp
  generalize toString position = number at *
  refine List.forall_mem_append.mpr ⟨List.forall_mem_append.mpr ⟨List.forall_mem_cons.mpr ⟨?_,
    List.forall_mem_singleton.mpr ?_⟩, List.forall_mem_map.mpr fun line member => ?_⟩, List.forall_mem_singleton.mpr
    ⟨by decide, by decide⟩⟩
  · simp only [String.append_assoc]
    refine Imports.isQuietLine_append (by decide) (by decide) ?_
    simp only [String.toList_append, String.toList_ofList, List.mem_append, not_or]
    exact ⟨by decide, single, by decide, by decide, by decide, Text.line_not_mem_quote _, by decide⟩
  · rw [String.append_assoc, String.append_assoc]
    refine Imports.isQuietLine_append (by decide) (by decide) ?_
    simp only [String.toList_append, List.mem_append, not_or]
    exact ⟨by decide, single, by decide⟩
  · rw [Layout.unit_eq]
    exact (inside line member).indented 1

theorem isQuietLine_elementStatements (callable : IsCallable motion) {position : Nat} {lines : List String}
    (written : elementStatements position motion = .ok lines) : ∀ line ∈ lines, IsQuietLine line := by
  have selector : ((motion.attributes.get? "selector").getD .null).isTruthy = false := by
    rw [callable.attributes]
    rfl
  unfold elementStatements at written
  dsimp only at written
  rw [selector, Bool.not_false, if_pos rfl] at written
  obtain ⟨-, rfl⟩ := Value.whenWritable_eq_ok.mp written
  split
  · have named : Calls.rootTarget = "el" ++ "ement" := by decide
    exact isQuietLine_statements callable named (by decide)
  · exact isQuietLine_lookedUp callable position motion.tag

/-- The lines for elements one after another. -/
theorem isQuietLine_bodyFrom {motions : List Motion} (callable : ∀ motion ∈ motions, IsCallable motion) {position : Nat}
    {lines : List String} (written : bodyFrom position motions = .ok lines) : ∀ line ∈ lines, IsQuietLine line := by
  induction motions generalizing position lines with
  | nil =>
    obtain rfl := Except.ok.inj written
    exact List.forall_mem_nil _
  | cons motion rest ih =>
    rw [bodyFrom] at written
    obtain ⟨here, first, written⟩ := Outcome.bind_eq_ok.mp written
    obtain ⟨more, others, written⟩ := Outcome.bind_eq_ok.mp written
    obtain rfl := Except.ok.inj written
    exact List.forall_mem_append.mpr ⟨isQuietLine_elementStatements (callable motion List.mem_cons_self) first,
      ih (fun other member => callable other (List.mem_cons_of_mem _ member)) others⟩

/-- The import lines of a script are those of what it imports. -/
theorem render_namedImport {motions : List Motion} (some_ : motions ≠ []) : (imports motions).render =
    [Script.namedImport false (importedNames motions) "motion".toList].map ImportDeclaration.statement := by
  have full : motions.isEmpty = false := List.isEmpty_eq_false_iff.mpr some_
  unfold imports importedNames
  rw [full]
  cases motions.any fun motion => (motion.keyframes? .inView).isSome <;> rfl

/-- A script of calls begins with what it imports. -/
theorem beginsWith_render? {forest : Forest} (some_ : forest.motions ≠ [])
    (callable : ∀ motion ∈ forest.motions, IsCallable motion) {context : Context}
    (pascal : Declarations.isPascal context.componentName = true) {text : String}
    (rendered : render? forest context [] = .ok text) :
    BeginsWith [Script.namedImport false (importedNames forest.motions) "motion".toList] text.toList := by
  have named := (isName_functionName pascal).toIsWord.line_not_mem
  have plain : ∀ declaration ∈ [Script.namedImport false (importedNames forest.motions) "motion".toList],
      declaration.line.IsPlain :=
    List.forall_mem_singleton.mpr (ImportLine.isPlain_namedImport (List.cons_ne_nil _ _) ⟨by decide, by decide⟩
      (ImportLine.forall_isSpecifier ⟨by decide, by decide, by decide⟩ ⟨by decide, by decide, by decide⟩ _))
  unfold render? at rendered
  dsimp only at rendered
  obtain ⟨body, written, rendered⟩ := Outcome.bind_eq_ok.mp rendered
  obtain rfl := Except.ok.inj rendered
  have inside := isQuietLine_bodyFrom callable written
  rw [render_namedImport some_]
  have filled : ([Script.namedImport false (importedNames forest.motions) "motion".toList].map
    ImportDeclaration.statement).isEmpty = false := rfl
  rw [filled, if_neg Bool.false_ne_true]
  simp only [List.append_assoc]
  refine Imports.beginsWith_document plain ?_ (List.cons_ne_nil _ _)
  simp only [List.forall_mem_append, List.forall_mem_singleton]
  refine ⟨Imports.isQuiet_nil, Layout.isQuiet_wish _, ?_, ?_, IsQuietLine.isQuiet ⟨by decide, by decide⟩⟩
  · unfold functionHead signature
    simp only [String.append_assoc]
    refine (Imports.isQuietLine_append (by decide) (by decide) ?_).isQuiet
    split <;> simp [named, Calls.rootTarget]
  · refine List.forall_mem_map.mpr fun line member => ?_
    rw [Layout.unit_eq]
    exact ((inside line member).indented 1).isQuiet

end CallRender

end AnimationCode
