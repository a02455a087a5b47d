/-
**A component with markup is read back.**

The script of a component imports what it uses, declares the wish for reduced motion and the interface of its
parameter where it needs them, and hands out a function that returns the elements.

* `toList_render`: the script as statements one after another;
* `parse_plain`, `parse_wrapped`: the typed form is no script of the plain form;
* `read_render`: what is read from the script mirrors the forest.
-/

import AnimationCode.Proofs.Component.Reading
import AnimationCode.Proofs.Render.Markup
import AnimationCode.Proofs.Render.Statements

namespace AnimationCode

namespace MarkupRender

open Layout (feeds gapAt wishPart)
open Script (Along Dialect IsExport IsImport IsPart IsSignature Node Part bracedText exportText importText interfaceText partsText
  returnText scriptText shorthandText signatureText)
open Script.Markup (Hold IsElement hold_return)

/-! ### The statements of a script -/

/-- The names that are imported with the elements. -/
def elementNames (presence : Bool) : List (List Char) :=
  "motion".toList :: if presence then [presenceName] else []

/-- What stands inside a component, as what its parameter binds. -/
def slotName : List Char := "children".toList

/-- The name of the interface of a component. -/
def interfaceName (name : String) : List Char := name.toList ++ "Props".toList

/-- The import of what the elements are made of. -/
def importsPart (presence : Bool) : Part :=
  ⟨[], importText false (elementNames presence) "framer-motion".toList,
    IsImport false (elementNames presence) "framer-motion".toList⟩

/-- The import of the type of the parameter. -/
def typesPart : Part :=
  ⟨['\n'], importText true ["ReactNode".toList] "react".toList, IsImport true ["ReactNode".toList] "react".toList⟩

/-- The interface of the parameter. -/
def interfacePart (name : String) : Part :=
  ⟨feeds, interfaceText (interfaceName name) (gapAt 1) ['\n'] slotName "ReactNode".toList, fun _ node =>
    node.kind = .interfaceDeclaration ∧ node.IsInert⟩

/-- The statement of a component. -/
def returnPart (forest : Forest) (text : List Char) : Part :=
  ⟨gapAt 1, returnText (gapAt 2) text (gapAt 1), fun n node => Hold forest (returnText (gapAt 2) text (gapAt 1)) n [node]⟩

/-- The text of a component's block. -/
def bodyText (forest : Forest) (text : List Char) : List Char := bracedText [returnPart forest text] ['\n']

/-- What stands behind the name of a component. -/
def headText (room typed : Bool) (name : String) : List Char :=
  if room then signatureText (shorthandText slotName) (if typed then some (interfaceName name) else none) none
  else ['(', ')']

/-- The nodes of what stands behind the name of a component. -/
def AreParameters (_ : Nat) (nodes : List Node) : Prop := ∀ node ∈ nodes, node.IsInert

/-- The statement that hands the component out. -/
def exportPart (room typed : Bool) (name : String) (forest : Forest) (text : List Char) : Part :=
  ⟨feeds, exportText true name.toList (headText room typed name) (bodyText forest text),
    IsExport true name.toList (headText room typed name) (bodyText forest text) AreParameters
      (Script.Reader.Covers .block (bodyText forest text) fun n => Along [returnPart forest text] (n + 1))⟩

/-- Whether an element leaves. -/
def leaves (forest : Forest) : Bool := forest.motions.any (·.hasPhase .exit)

/-- Whether a script has types: it has an interface if there is room for what others put in. -/
def isTyped (forest : Forest) (context : Context) : Bool := Layout.hasRoom forest && context.typescript

/-- The statements before the component. -/
def partsBefore (presence typed reduces : Bool) (name : String) : List Part :=
  importsPart presence :: ((if typed then [typesPart] else []) ++ (if reduces then [wishPart] else []) ++
    (if typed then [interfacePart name] else []))

/-- The statements of a script, given the text of the elements. -/
def parts (forest : Forest) (context : Context) (text : List Char) : List Part :=
  partsBefore (leaves forest) (isTyped forest context) forest.reducesMotion context.componentName ++
    [exportPart (Layout.hasRoom forest) (isTyped forest context) context.componentName forest text]

/-! ### The text of a script -/

theorem render_imports {forest : Forest} (some_ : forest ≠ []) (presence typed : Bool) :
    (imports forest presence typed).render =
      String.ofList (importText false (elementNames presence) "framer-motion".toList) ::
        if typed then [String.ofList (importText true ["ReactNode".toList] "react".toList)] else [] := by
  have full : forest.isEmpty = false := List.isEmpty_eq_false_iff.mpr some_
  rw [imports, full]
  cases presence <;> cases typed <;> rfl

theorem toList_unit : Layout.unit.toList = [' ', ' '] := rfl

theorem behind_interface (name : String) :
    Layout.behind ["interface " ++ name ++ "Props \x7b", Layout.unit ++ "children?: ReactNode;", "\x7d", ""] =
      '\n' :: (interfaceText (interfaceName name) (gapAt 1) ['\n'] slotName "ReactNode".toList ++ ['\n']) := by
  unfold interfaceText slotName
  simp [Script.objectTypeText, Script.memberText, interfaceName, gapAt, toList_unit]

/-- The line on which a component begins. -/
theorem toList_header (room typed : Bool) (name : String) :
    (("export default function " ++ name ++ "(" ++
      if (!room) = true then "" else if typed = true then "\x7b children \x7d: " ++ name ++ "Props"
      else "\x7b children \x7d") ++ ") \x7b").toList =
      "export".toList ++ (Script.defaultWord true ++ ([' '] ++ ("function".toList ++ ([' '] ++ name.toList ++
        (headText room typed name ++ [' ', '\x7b']))))) := by
  have opening : "export default function ".toList =
      "export".toList ++ (Script.defaultWord true ++ ([' '] ++ ("function".toList ++ [' ']))) := rfl
  have target : "\x7b children \x7d".toList = shorthandText slotName ∧
      "\x7b children \x7d: ".toList = shorthandText slotName ++ [':', ' '] := ⟨rfl, rfl⟩
  have signs : "(".toList = ['('] ∧ ") \x7b".toList = [')', ' ', '\x7b'] ∧ "".toList = [] := ⟨rfl, rfl, rfl⟩
  cases room <;> cases typed <;>
    simp only [String.toList_append, headText, Bool.not_true, Bool.not_false, if_true, if_false, Bool.false_eq_true,
      signatureText, interfaceName, Script.parameterText, Script.typeText, List.append_assoc, opening, target.1, target.2,
      signs.1, signs.2.1, signs.2.2, List.cons_append, List.nil_append, List.append_nil]

/-- A script is statements one after another. -/
theorem toList_render {forest : Forest} (some_ : forest ≠ []) (context : Context) {text : List Char}
    (lines : Layout.behind (tree forest (leaves forest)) = gapAt 2 ++ text) :
    (render forest context []).toList = scriptText (parts forest context text) ['\n'] := by
  have full : (tree forest (leaves forest)).isEmpty = false := by
    cases written : tree forest (leaves forest) with
    | nil =>
      rw [written] at lines
      cases lines
    | cons => rfl
  refine List.cons_injective (a := '\n') ?_
  unfold render parts isTyped
  unfold leaves at *
  dsimp only
  rw [render_imports some_, full,
    Layout.toList_document (List.append_ne_nil_of_right_ne_nil _ (List.cons_ne_nil _ _))]
  generalize forest.motions.any (·.hasPhase .exit) = presence at *
  generalize Layout.hasRoom forest = room
  generalize forest.reducesMotion = reduces
  generalize context.componentName = name
  generalize (room && context.typescript) = typed
  have remarks : Layout.behind (List.map (fun x => Layout.unit ++ x) (Layout.placeholderLines [])) = [] := rfl
  have types : Layout.behind (if typed = true then [String.ofList (importText true ["ReactNode".toList] "react".toList)]
      else []) = partsText (if typed then [typesPart] else []) := by
    cases typed
    · rfl
    · simp [partsText, Part.whole, typesPart]
  have interface_ (more : List Char) : '\n' :: (Layout.behind (if typed = true then ["interface " ++ name ++ "Props \x7b",
      Layout.unit ++ "children?: ReactNode;", "\x7d", ""] else []) ++ more) =
        partsText (if typed then [interfacePart name] else []) ++ '\n' :: more := by
    cases typed
    · rfl
    · rw [if_pos rfl, if_pos rfl, behind_interface]
      simp [partsText, Part.whole, interfacePart, feeds]
  have empty : "".toList = [] := rfl
  rw [List.isEmpty_cons]
  simp only [Bool.false_eq_true, if_false, Layout.behind_append, Layout.behind_cons, Layout.behind_nil, lines,
    toList_header, types, remarks, empty, List.append_assoc, List.cons_append, List.nil_append, List.append_nil,
    Layout.behind_wish, interface_]
  unfold exportPart exportText Script.functionText bodyText returnPart returnText
  simp [scriptText, partsBefore, partsText, importsPart, Part.whole, feeds, bracedText, Script.parenthesizedText, gapAt,
    toList_unit]

/-! ### The statements are derived -/

variable {d : Dialect} {name : String} {typed : Bool} {forest : Forest} {text : List Char}

theorem isCapital_interfaceName (pascal : Declarations.isPascal name = true) : Script.IsCapital (interfaceName name) :=
  (Script.isCapital_of_isPascal pascal).append _ (by decide)

theorem isPart_importsPart (presence : Bool) : IsPart d (importsPart presence) := by
  refine Script.isPart_import Script.blank_nil (List.cons_ne_nil _ _) ?_ (by decide) (absurd · Bool.false_ne_true)
  refine List.forall_mem_cons.mpr ⟨⟨⟨Script.isWord_of_check rfl, by decide⟩, by decide, by decide⟩, ?_⟩
  split
  · exact List.forall_mem_singleton.mpr ⟨isTagWord_presenceName.toIsName, by decide, by decide⟩
  · exact List.forall_mem_nil _

/-- What is imported as a type. -/
theorem isImportable_types : ∀ name ∈ ["ReactNode".toList], Script.IsImportable name :=
  List.forall_mem_singleton.mpr ⟨⟨Script.isWord_of_check rfl, by decide⟩, by decide, by decide⟩

theorem isPart_partsBefore (pascal : Declarations.isPascal name = true) (form : typed = true → d.typed = true)
    (presence reduces : Bool) : ∀ part ∈ partsBefore presence typed reduces name, IsPart d part := by
  have types (is_ : typed = true) : IsPart d typesPart :=
    Script.isPart_import (Script.blank_of_all rfl) (List.cons_ne_nil _ _) isImportable_types (by decide) fun _ => form is_
  have interface_ (is_ : typed = true) : IsPart d (interfacePart name) :=
    .interface Layout.blank_feeds (isCapital_interfaceName pascal).isName ⟨Script.isWord_of_check rfl, by decide⟩
      ⟨Script.isWord_of_check rfl, by decide⟩ (isGap_gapAt 1).blank (Script.blank_of_all rfl) (form is_)
  intro part member
  simp only [partsBefore, List.mem_cons, List.mem_append, List.mem_ite_nil_right, List.not_mem_nil, or_false] at member
  rcases member with rfl | (⟨is_, rfl⟩ | ⟨-, rfl⟩) | ⟨is_, rfl⟩
  · exact isPart_importsPart presence
  · exact types is_
  · exact Layout.isPart_wishPart
  · exact interface_ is_

/-- What stands behind the name of a component: its parameter with its type where the text has types, or nothing. -/
theorem exists_isSignature (pascal : Declarations.isPascal name = true) (room : Bool) (form : typed = true → d.typed = true) :
    ∃ Parameters, IsSignature d (headText room typed name) Parameters ∧ ∀ n nodes, Parameters n nodes → AreParameters n nodes := by
  unfold headText
  split
  · have types : ∀ type ∈ (if typed then some (interfaceName name) else none), Script.IsTypeName type := by
      intro type member
      cases typed with
      | false => cases member
      | true =>
        obtain rfl : interfaceName name = type := Option.some.inj member
        exact (isCapital_interfaceName pascal).isTypeName
    refine ⟨_, .parameter (.shorthand ⟨Script.isWord_of_check rfl, by decide⟩) types nofun
      fun some_ => form (by simpa using some_), fun n nodes same => ?_⟩
    rw [same]
    refine List.forall_mem_singleton.mpr (Node.isInert_mk (by decide) (List.forall_mem_singleton.mpr ?_))
    exact Node.isInert_leaf _ _ (by decide)
  · refine ⟨_, .empty, fun n nodes same => ?_⟩
    rw [same]
    exact List.forall_mem_nil _

theorem isPart_exportPart (pascal : Declarations.isPascal name = true) (room : Bool) (form : typed = true → d.typed = true)
    (markup : d.markup = true) (isElement : IsElement forest text) : IsPart d (exportPart room typed name forest text) := by
  have return_ : ∀ part ∈ [returnPart forest text], IsPart d part := List.forall_mem_singleton.mpr <|
    (IsPart.returns (isGap_gapAt 1).blank (isGap_gapAt 2).blank (isGap_gapAt 1).blank isElement markup).weaken
      fun _ _ isReturn => hold_return isReturn
  obtain ⟨Parameters, isSignature, inert⟩ := exists_isSignature pascal room form
  exact (IsPart.function true (Script.blank_of_all rfl) (Script.isCapital_of_isPascal pascal).isName isSignature return_
    (Script.blank_of_all rfl)).weaken fun _ _ isExport => isExport.parameters inert

/-- The statements of a script are derived, in the plain form if it has no types. -/
theorem isPart_parts {context : Context} (pascal : Declarations.isPascal context.componentName = true)
    (form : isTyped forest context = true → d.typed = true) (markup : d.markup = true) (isElement : IsElement forest text) :
    ∀ part ∈ parts forest context text, IsPart d part :=
  List.forall_mem_append.mpr ⟨isPart_partsBefore pascal form _ _, List.forall_mem_singleton.mpr
    (isPart_exportPart pascal _ form markup isElement)⟩

/-! ### What the statements hold -/

theorem offers_partsBefore (presence typed reduces : Bool) (name : String) :
    ∀ part ∈ partsBefore presence typed reduces name, part.Offers [] := by
  intro part member
  simp only [partsBefore, List.mem_cons, List.mem_append, List.mem_ite_nil_right, List.not_mem_nil, or_false] at member
  rcases member with rfl | (⟨-, rfl⟩ | ⟨-, rfl⟩) | ⟨-, rfl⟩
  · exact Script.offers_import
  · exact Script.offers_import
  · exact Script.offers_wish _
  · exact Script.offers_nothing fun n node fits => fits.2.noElement

theorem offers_exportPart (room typed : Bool) (name : String) (forest : Forest) (text : List Char) :
    (exportPart room typed name forest text).Offers forest := by
  refine Script.offers_export (fun _ _ inert node member => (inert node member).noElement) fun n node covers => ?_
  refine Script.hold_block (fun m nodes along => ?_) covers .body
  have single : Along ([] ++ [returnPart forest text]) m nodes := along
  exact Script.hold_along (List.forall_mem_nil _) (fun _ _ hold => hold) single

/-- The nodes of a script hold its forest. -/
theorem hold_parts {context : Context} {nodes : List Node} (along : Along (parts forest context text) 0 nodes) :
    Hold forest (partsText (parts forest context text)) 0 nodes :=
  Script.hold_along (offers_partsBefore _ _ _ _) (offers_exportPart _ _ _ _ _) along

/-- What a script imports. -/
def declarations (presence typed : Bool) : List ImportDeclaration :=
  Script.namedImport false (elementNames presence) "framer-motion".toList ::
    if typed then [Script.namedImport true ["ReactNode".toList] "react".toList] else []

/-- A script imports what its elements are made of, and the type of its parameter. -/
theorem declare_parts (forest : Forest) (context : Context) (text : List Char) :
    Script.Declare (parts forest context text) (declarations (leaves forest) (isTyped forest context)) := by
  have export_ (room typed : Bool) : (exportPart room typed context.componentName forest text).Declares [] := by
    refine Script.declares_nothing fun n node fits => ?_
    obtain ⟨marks, function_, rfl, -, -⟩ := fits
    exact fun same => Script.Kind.noConfusion same
  have interface_ : (interfacePart context.componentName).Declares [] := by
    refine Script.declares_nothing fun n node fits => ?_
    rw [fits.1]
    exact fun same => Script.Kind.noConfusion same
  unfold parts partsBefore declarations
  generalize Layout.hasRoom forest = room
  generalize isTyped forest context = typed
  have last := (export_ room typed).cons Script.declare_nil
  cases typed <;> cases forest.reducesMotion <;>
    simp only [if_true, if_false, Bool.false_eq_true, List.nil_append, List.append_nil, List.cons_append]
  · exact Script.declares_import.cons last
  · exact Script.declares_import.cons (Layout.declares_wishPart.cons last)
  · exact Script.declares_import.cons (Script.declares_import.cons (interface_.cons last))
  · exact Script.declares_import.cons (Script.declares_import.cons (Layout.declares_wishPart.cons (interface_.cons last)))

/-! ### The typed form is no script of the plain form -/

open Script (IsRun runsText)

/-- The text between the names that a script of the typed form imports. -/
def importRuns (presence : Bool) : List (List Char × List (List Char)) :=
  [("import ".toList, elementNames presence), (" from 'framer-motion';\nimport type ".toList, ["ReactNode".toList])]

theorem whole_imports (presence : Bool) :
    (importsPart presence).whole ++ typesPart.whole = runsText (importRuns presence) " from 'react';".toList := by
  cases presence <;> decide +kernel

theorem isRun_imports (presence : Bool) : ∀ piece ∈ importRuns presence,
    IsRun piece.1 ∧ piece.2 ≠ [] ∧ ∀ name ∈ piece.2, Script.IsIdentifier name := by
  have first : IsRun "import ".toList := ⟨by decide, rfl⟩
  have second : IsRun " from 'framer-motion';\nimport type ".toList := ⟨by decide, rfl⟩
  refine List.forall_mem_cons.mpr ⟨⟨first, List.cons_ne_nil _ _, ?_⟩,
    List.forall_mem_singleton.mpr ⟨second, List.cons_ne_nil _ _, ?_⟩⟩
  · refine List.forall_mem_cons.mpr ⟨⟨⟨Script.isWord_of_check rfl, by decide⟩, by decide⟩, ?_⟩
    split
    · exact List.forall_mem_singleton.mpr ⟨isTagWord_presenceName.toIsName, by decide⟩
    · exact List.forall_mem_nil _
  · exact List.forall_mem_singleton.mpr ⟨⟨Script.isWord_of_check rfl, by decide⟩, by decide⟩

/-- A script of the typed form, read as what stands between tags, is cut short at an operator or at its interface. -/
theorem exists_cut (pascal : Declarations.isPascal name = true) (presence reduces : Bool) (after : List Char) :
    ∃ last cut, partsText (partsBefore presence true reduces name) ++ after = runsText (importRuns presence) last ++ cut ∧
      IsRun last ∧ Script.BreaksOff cut := by
  have imports_ (last rest : List Char) : runsText (importRuns presence) (" from 'react';".toList ++ last) ++ rest =
      (importsPart presence).whole ++ typesPart.whole ++ (last ++ rest) := by
    rw [whole_imports, runsText, runsText]
    simp only [List.append_assoc]
  cases reduces with
  | true =>
    have wish : wishPart.whole = "\n\nconst prefersReducedMotion = typeof window !== 'undefined' ".toList ++
        '&' :: '&' :: " window.matchMedia('(prefers-reduced-motion: reduce)').matches;".toList := by decide +kernel
    refine ⟨" from 'react';".toList ++ "\n\nconst prefersReducedMotion = typeof window !== 'undefined' ".toList,
      '&' :: '&' :: (" window.matchMedia('(prefers-reduced-motion: reduce)').matches;".toList ++
        (partsText [interfacePart name] ++ after)), ?_, ⟨by decide, rfl⟩, .ampersands _⟩
    rw [imports_]
    simp only [partsBefore, if_true, partsText, List.flatMap_cons, List.flatMap_nil, wish, List.append_assoc,
      List.cons_append, List.nil_append, List.append_nil]
  | false =>
    have plain : ∀ c ∈ interfaceName name, Script.Markup.endsText c = false := by
      intro c member
      have part := (isCapital_interfaceName pascal).all c member
      cases ends_ : Script.Markup.endsText c with
      | false => rfl
      | true =>
        have signs : c = '<' ∨ c = '>' ∨ c = '\x7b' ∨ c = '\x7d' ∨ c = '&' := by
          simpa [Script.Markup.endsText, or_assoc] using ends_
        rcases signs with rfl | rfl | rfl | rfl | rfl <;> cases part
    have isIdentifier : Script.IsIdentifier slotName := ⟨⟨Script.isWord_of_check rfl, by decide⟩, by decide⟩
    have interface_ : (interfacePart name).whole = "\n\ninterface ".toList ++ (interfaceName name ++ ([' '] ++
        Script.objectTypeText (gapAt 1) ['\n'] slotName "ReactNode".toList)) := by
      unfold interfacePart interfaceText
      simp [Part.whole, feeds]
    refine ⟨" from 'react';".toList ++ ("\n\ninterface ".toList ++ (interfaceName name ++ [' '])),
      Script.objectTypeText (gapAt 1) ['\n'] slotName "ReactNode".toList ++ after, ?_, ⟨?_, rfl⟩,
      .objectType isIdentifier (isGap_gapAt 1).blank after⟩
    · rw [imports_]
      simp only [partsBefore, if_true, partsText, List.flatMap_cons, List.flatMap_nil, interface_, List.append_assoc,
        List.cons_append, List.append_nil, Bool.false_eq_true, if_false, List.nil_append]
    · refine List.forall_mem_append.mpr ⟨by decide, List.forall_mem_append.mpr ⟨by decide, ?_⟩⟩
      exact List.forall_mem_append.mpr ⟨plain, by decide⟩

variable {context : Context} {parse : Script.Parser}

theorem parts_of_typed (typed_ : isTyped forest context = true) :
    parts forest context text = partsBefore (leaves forest) true forest.reducesMotion context.componentName ++
      [exportPart (Layout.hasRoom forest) true context.componentName forest text] := by
  rw [parts, typed_]

/-- The script as it stands is none of the plain form. -/
theorem parse_plain (conforms : parse.Conforms) (typed_ : isTyped forest context = true) :
    parse ⟨false, true⟩ (scriptText (parts forest context text) ['\n']) = none := by
  obtain ⟨after, same⟩ : ∃ after, scriptText (parts forest context text) ['\n'] = partsText [importsPart (leaves forest)] ++
      (['\n'] ++ (importText true ["ReactNode".toList] "react".toList ++ after)) := by
    rw [parts_of_typed typed_]
    refine ⟨partsText ((if forest.reducesMotion then [wishPart] else []) ++ [interfacePart context.componentName]) ++
      partsText [exportPart (Layout.hasRoom forest) true context.componentName forest text] ++ ['\n'], ?_⟩
    simp only [scriptText, partsBefore, partsText, if_true, List.flatMap_cons, List.flatMap_append, List.flatMap_nil,
      List.append_assoc, List.append_nil, List.nil_append, List.cons_append, typesPart, Part.whole]
  rw [same]
  exact conforms.refusesTyped rfl (List.forall_mem_singleton.mpr (isPart_importsPart _)) (Script.blank_of_all rfl)
    (.imports _ after isImportable_types)

/-- The script between the tags of a fragment is none of the plain form. -/
theorem parse_wrapped (conforms : parse.Conforms) (pascal : Declarations.isPascal context.componentName = true)
    (typed_ : isTyped forest context = true) :
    parse ⟨false, true⟩ ("<>".toList ++ scriptText (parts forest context text) ['\n'] ++ "\n</>".toList) = none := by
  obtain ⟨last, cut, same, isRun, breaksOff⟩ := exists_cut pascal (leaves forest) forest.reducesMotion
    (partsText [exportPart (Layout.hasRoom forest) true context.componentName forest text] ++ (['\n'] ++ "\n</>".toList))
  have whole : "<>".toList ++ scriptText (parts forest context text) ['\n'] ++ "\n</>".toList =
      '<' :: '>' :: (runsText (importRuns (leaves forest)) last ++ cut) := by
    rw [← same, parts_of_typed typed_]
    simp only [scriptText, partsText, List.flatMap_append, List.append_assoc]
    rfl
  rw [whole]
  exact conforms.refusesFragment rfl rfl (isRun_imports _) isRun breaksOff

/-! ### The script is read -/

/-- The script of a component was read as it stands. -/
def IsReading (forest : Forest) (context : Context) (text : List Char) (reading : Source.ScriptReading) : Prop :=
  ∃ typescript span nodes, reading =
      ⟨typescript, 0, scriptText (parts forest context text) ['\n'], .mk .program .plain span nodes⟩ ∧
    Along (parts forest context text) 0 nodes

/-- The first way to read a script is taken if it has types or the script has none. -/
theorem exists_readScript_first (conforms : parse.Conforms) (pascal : Declarations.isPascal context.componentName = true)
    (isElement : IsElement forest text) {typescript : Bool} (form : isTyped forest context = true → typescript = true)
    (others : List Source.Attempt) :
    ∃ reading, Source.readScript parse .react (scriptText (parts forest context text) ['\n'])
        (⟨typescript, false⟩ :: others) = some reading ∧ IsReading forest context text reading := by
  have feed : Script.Blank ['\n'] := Script.blank_of_all rfl
  have statements : ∀ part ∈ parts forest context text, IsPart (Source.dialect .react typescript) part :=
    isPart_parts pascal form rfl isElement
  obtain ⟨span, nodes, parsed, along⟩ := conforms.reads statements feed
  rw [Source.readScript, Source.tree?_plain parsed]
  exact ⟨_, rfl, typescript, span, nodes, rfl, along⟩

/-- A script with types is read as such if nothing is known about it. -/
theorem exists_readScript_typed (conforms : parse.Conforms) (pascal : Declarations.isPascal context.componentName = true)
    (isElement : IsElement forest text) (typed_ : isTyped forest context = true) :
    ∃ reading, Source.readScript parse .react (scriptText (parts forest context text) ['\n'])
        (Source.attempts .react none) = some reading ∧ IsReading forest context text reading := by
  have plain : Source.Attempt.tree? parse ⟨false, false⟩ .react (scriptText (parts forest context text) ['\n']) = none :=
    Source.tree?_of_refused (parse_plain conforms typed_)
  have wrapped : Source.Attempt.tree? parse ⟨false, true⟩ .react (scriptText (parts forest context text) ['\n']) = none :=
    Source.tree?_of_refused (parse_wrapped conforms pascal typed_)
  rw [Source.attempts_none, Source.readScript, plain, Source.readScript, wrapped]
  exact exists_readScript_first conforms pascal isElement (fun _ => rfl) _

/-- A script is read as it stands. -/
theorem exists_readScript (conforms : parse.Conforms) (pascal : Declarations.isPascal context.componentName = true)
    (isElement : IsElement forest text) {typescript? : Option Bool}
    (form : context.typescript = true → typescript? ≠ some false) :
    ∃ reading, Source.readScript parse .react (scriptText (parts forest context text) ['\n'])
        (Source.attempts .react typescript?) = some reading ∧ IsReading forest context text reading := by
  have asked (typed_ : isTyped forest context = true) : typescript? ≠ some false :=
    form (Bool.and_eq_true_iff.mp typed_).2
  cases typescript? with
  | none =>
    by_cases typed_ : isTyped forest context = true
    · exact exists_readScript_typed conforms pascal isElement typed_
    · rw [Source.attempts_none]
      exact exists_readScript_first conforms pascal isElement (fun typed => absurd typed typed_) _
  | some typescript =>
    rw [Source.attempts_some]
    refine exists_readScript_first conforms pascal isElement (fun typed_ => ?_) _
    cases typescript with
    | false => exact absurd rfl (asked typed_)
    | true => rfl

/-- The script of a component is read with its elements and its imports. -/
theorem exists_read (conforms : parse.Conforms) {forest : Forest} (context : Context) {source : Source} (some_ : forest ≠ [])
    (writable : ∀ motion ∈ forest.motions, IsWritable motion)
    (pascal : Declarations.isPascal context.componentName = true)
    (code : source.code = (render forest context []).toList) (framework : source.framework = .ok .react)
    (form : context.typescript = true → source.typescript? ≠ some false) :
    ∃ component, source.read parse = .ok component ∧ component.elements.Mirrors forest ∧
      component.imports = declarations (leaves forest) (isTyped forest context) := by
  obtain ⟨text, lines, isElement⟩ := areElement_tree some_ (leaves forest) writable
  rw [toList_render some_ context lines] at code
  have filled : Text.isBlankText source.code = false := by
    rw [code]
    rfl
  obtain ⟨_, reading, typescript, span, nodes, rfl, along⟩ := exists_readScript conforms pascal isElement form
  obtain ⟨found, extract, mirrors⟩ := hold_parts along _ 0 (Script.holds_zero _ ['\n'])
  rw [Source.read_of_script filled framework (by decide)]
  have imports_ := (declare_parts forest context text).imports_eq along ['\n'] .program .plain span
  change Markup.extract ⟨scriptText (parts forest context text) ['\n'], 0⟩ (.mk .program .plain span nodes) = _ at extract
  rw [← code] at reading imports_ extract
  obtain ⟨component, read, same, imported⟩ := Source.exists_readScriptComponent reading imports_ extract
  exact ⟨component, read, same ▸ mirrors, imported⟩

/-- The values in the attributes of a motion can be written. -/
theorem isWritable_values {motion : Motion} (writable : IsWritable motion) : ∀ value ∈ values motion, value.isWritable = true := by
  rw [values, writable.attributes, List.filterMap_nil, List.append_nil]
  refine List.forall_mem_map.mpr fun field member => ?_
  obtain ⟨-, ⟨fields, -, literal⟩ | ⟨-, label, same, -⟩⟩ := writable.phases field member
  · exact field.2.isWritable_of_isLiteral literal
  · rw [same]
    rfl

/-- A card that fades out, unless reduced motion is preferred, with a heading that moves in. -/
def fadingCard : Forest :=
  [⟨{ Motion.ofTag "div" with
      phases := [("exit", .object [("opacity", .int 0)]), ("transition", .object [("duration", .int 2)])]
      reducedMotion := true },
    [⟨{ Motion.ofTag "h1" with
        phases := [("variants", .object [("shown", .object [("x", .int (-4)), ("--tint", .text "red")])]),
          ("animate", .text "shown")] }, []⟩]⟩]

theorem isWritable_fadingCard : ∀ motion ∈ Forest.motions fadingCard, IsWritable motion := by
  refine List.forall_mem_cons.mpr ⟨⟨⟨'d', _, rfl, rfl, by decide⟩, List.cons_ne_nil _ _, by decide, ?_, rfl, rfl, fun _ => rfl⟩,
    List.forall_mem_singleton.mpr ⟨⟨'h', _, rfl, rfl, by decide⟩, List.cons_ne_nil _ _, by decide, ?_, rfl, rfl, nofun⟩⟩
  · exact List.forall_mem_cons.mpr ⟨⟨by decide, .inl ⟨_, rfl, by decide⟩⟩,
      List.forall_mem_singleton.mpr ⟨by decide, .inl ⟨_, rfl, by decide⟩⟩⟩
  · exact List.forall_mem_cons.mpr ⟨⟨by decide, .inl ⟨_, rfl, by decide⟩⟩,
      List.forall_mem_singleton.mpr ⟨by decide, .inr ⟨by decide, "shown", rfl, by decide, by decide⟩⟩⟩

/-- A rule that grows by an integer of more digits than can be written. -/
def wideRule : Motion :=
  { Motion.ofTag "hr" with phases := [("hover", .object [("width", .int (10 ^ Decimal.digitLimit))])] }

end MarkupRender

end AnimationCode
