/-
**A script that calls the animation function is read back.**

The script imports what it calls, declares the wish for reduced motion if an element gives way to one, and hands out a
function that animates one element after another.

* `toList_render?`: the script as statements one after another;
* `exists_readScript`: the script is read as it stands, the typed form not as the plain one;
* `read_render?`: what is read from the script moves as the elements of the forest do, in document order.
-/

import AnimationCode.Proofs.Component.Reading
import AnimationCode.Proofs.Render.Sayings
import AnimationCode.Proofs.Render.Statements

namespace AnimationCode

namespace CallRender

open Calls (ItemSays Saying Says Tells spokenOf)
open Layout (feeds gapAt wishPart)
open Script (Along Dialect IsExport IsImport IsPart IsSignature Item Node Part bracedText exportText importText lineText partsText scriptText
  signatureText)

/-! ### The statements of a script -/

/-- The statements for elements one after another, after so many others. -/
def bodyItems : Nat → List Motion → List Item
  | _, [] => []
  | position, motion :: rest => elementItems position motion ++ bodyItems (position + 1) rest

/-- The names that a script for such motions imports. -/
def importedNames (motions : List Motion) : List (List Char) :=
  "animate".toList :: if motions.any fun motion => (motion.keyframes? .inView).isSome then ["inView".toList] else []

/-- The import of what is called. -/
def importsPart (motions : List Motion) : Part :=
  ⟨[], importText false (importedNames motions) "motion".toList, IsImport false (importedNames motions) "motion".toList⟩

/-- The parameter and the result of the function, with their types or without. -/
def headText (typed : Bool) : List Char :=
  signatureText Calls.rootTarget.toList (if typed then some "HTMLElement".toList else none)
    (if typed then some "void".toList else none)

/-- The statements in the function. -/
def bodyParts (motions : List Motion) : List Part := (bodyItems 0 motions).map (Part.ofItem (gapAt 1))

/-- The text of the function's block. -/
def bodyText (motions : List Motion) : List Char := bracedText (bodyParts motions) ['\n']

/-- The nodes of the parameters of the function. -/
def AreParameters (_ : Nat) (nodes : List Node) : Prop := ∀ node ∈ nodes, node.IsInert

/-- The function that a script hands out. -/
def exportPart (typed : Bool) (name : String) (motions : List Motion) : Part :=
  ⟨feeds, exportText false (functionName name).toList (headText typed) (bodyText motions),
    IsExport false (functionName name).toList (headText typed) (bodyText motions) AreParameters
      (Script.Reader.Covers .block (bodyText motions) fun n => Along (bodyParts motions) (n + 1))⟩

/-- The statements before the function. -/
def partsBefore (forest : Forest) : List Part :=
  importsPart forest.motions :: if forest.reducesMotion then [wishPart] else []

/-- The statements of a script. -/
def parts (forest : Forest) (context : Context) : List Part :=
  partsBefore forest ++ [exportPart context.typescript context.componentName forest.motions]

/-! ### The text of a script -/

theorem render_imports {motions : List Motion} (some_ : motions ≠ []) :
    (imports motions).render = [String.ofList (importText false (importedNames motions) "motion".toList)] := by
  have full : motions.isEmpty = false := List.isEmpty_eq_false_iff.mpr some_
  unfold imports importedNames
  rw [full]
  cases motions.any fun motion => (motion.keyframes? .inView).isSome <;> rfl

/-- The lines for elements one after another are their statements. -/
theorem behind_bodyFrom {motions : List Motion} (callable : ∀ motion ∈ motions, IsCallable motion) (position : Nat) :
    ∃ lines, bodyFrom position motions = .ok lines ∧
      Layout.behind (lines.map (Layout.indent 1 ++ ·)) = lineText (gapAt 1) (bodyItems position motions) := by
  induction motions generalizing position with
  | nil => exact ⟨[], rfl, rfl⟩
  | cons motion rest ih =>
    obtain ⟨here, written, same⟩ := behind_elementStatements (callable motion List.mem_cons_self) position
    obtain ⟨more, others, sameMore⟩ := ih (fun other member => callable other (List.mem_cons_of_mem _ member)) (position + 1)
    refine ⟨here ++ more, ?_, ?_⟩
    · rw [bodyFrom, written]
      exact congrArg (fun result => Except.bind result fun lines => Except.ok (here ++ lines)) others
    · rw [List.map_append, Layout.behind_append, same, sameMore, bodyItems, lineText, lineText, lineText, List.flatMap_append]

/-- The line on which the function begins. -/
theorem toList_functionHead (context : Context) : (functionHead context).toList =
    "export".toList ++ (Script.defaultWord false ++ ([' '] ++ ("function".toList ++ ([' '] ++
      (functionName context.componentName).toList ++ (headText context.typescript ++ [' ', '\x7b']))))) := by
  have opening : "export function ".toList =
      "export".toList ++ (Script.defaultWord false ++ ([' '] ++ ("function".toList ++ [' ']))) := rfl
  have signs : "(".toList = ['('] ∧ ")".toList = [')'] ∧ " \x7b".toList = [' ', '\x7b'] := ⟨rfl, rfl, rfl⟩
  have types : ": HTMLElement): void".toList =
      [':'] ++ ([' '] ++ "HTMLElement".toList) ++ ([')'] ++ ([':'] ++ ([' '] ++ "void".toList))) := rfl
  unfold functionHead signature headText signatureText Script.parameterText Script.typeText
  cases context.typescript <;>
    simp only [String.toList_append, opening, signs, types, if_true, if_false, Bool.false_eq_true, List.append_assoc,
      List.cons_append, List.nil_append, List.append_nil]

/-- A script is statements one after another. -/
theorem toList_render? {forest : Forest} (some_ : forest.motions ≠ [])
    (callable : ∀ motion ∈ forest.motions, IsCallable motion) (context : Context) :
    ∃ text, render? forest context [] = .ok text ∧ text.toList = scriptText (parts forest context) ['\n'] := by
  obtain ⟨lines, written, same⟩ := behind_bodyFrom callable 0
  unfold render?
  dsimp only
  rw [written, render_imports some_]
  refine ⟨_, rfl, List.cons_injective (a := '\n') ?_⟩
  rw [Layout.toList_document (List.append_ne_nil_of_right_ne_nil _ (List.cons_ne_nil _ _)), List.isEmpty_cons, Layout.unit_eq]
  have empty : "".toList = [] := rfl
  simp only [Bool.false_eq_true, if_false, Layout.behind_append, Layout.behind_cons, Layout.behind_nil, toList_functionHead,
    Layout.placeholderLines, List.map_nil, List.nil_append, same, empty, List.append_assoc, List.cons_append,
    List.append_nil, Layout.behind_wish]
  unfold parts partsBefore exportPart bodyText bodyParts exportText Script.functionText
  simp [scriptText, partsText, importsPart, Part.whole, feeds, bracedText, lineText, Part.ofItem, List.flatMap_map]

/-! ### The statements are derived -/

variable {d : Dialect} {name : String} {motions : List Motion} {forest : Forest} {context : Context}

theorem upper_of_isUpper {c : Char} (upper : c.isUpper = true) : Text.upper c = c := by
  obtain ⟨-, last⟩ := Script.isUpper_iff.mp upper
  rw [Text.upper, if_pos (by omega)]
  refine dif_neg fun lower => ?_
  have first : 97 ≤ c.toNat := UInt32.le_iff_toNat_le.mp lower.1
  omega

theorem upperForm_of_isUpper {c : Char} (upper : c.isUpper = true) : Text.upperForm c = [c] := by
  have beyond : ∀ form ∈ Text.upperForms, 128 ≤ form.1 := by decide
  have single : Text.upperForms.lookup c.toNat = none := List.lookup_eq_none_iff.mpr fun form member => by
    have first := beyond form member
    have last := (Script.isUpper_iff.mp upper).2
    exact bne_iff_ne.mpr (by omega)
  rw [Text.upperForm, single, upper_of_isUpper upper]

theorem toList_functionName (pascal : Declarations.isPascal name = true) :
    (functionName name).toList = "animate".toList ++ name.toList := by
  obtain ⟨-, c, rest, same, upper⟩ := Script.isCapital_of_isPascal pascal
  unfold functionName
  rw [same, String.toList_append, List.take_succ_cons, List.take_zero, List.flatMap_singleton, upperForm_of_isUpper upper,
    List.drop_succ_cons, List.drop_zero, List.singleton_append]
  exact congrArg ("animate".toList ++ ·) String.toList_ofList

theorem isName_functionName (pascal : Declarations.isPascal name = true) : Script.IsName (functionName name).toList := by
  have isCapital := Script.isCapital_of_isPascal pascal
  rw [toList_functionName pascal]
  refine ⟨⟨List.forall_mem_append.mpr ⟨by decide, isCapital.isWord.all⟩, ?_, by simp⟩, fun member => ?_⟩
  · rintro c ⟨⟩
    decide
  · have begins : ∀ word ∈ Script.reservedWords, word.toList.take 7 ≠ "animate".toList := by decide
    refine begins _ member ?_
    rw [String.toList_ofList]
    rfl

theorem isParameter_rootTarget : Script.IsParameter Calls.rootTarget.toList :=
  ⟨⟨Script.isWord_of_check rfl, by decide⟩, by decide⟩

theorem isTypeName_head : Script.IsTypeName "HTMLElement".toList ∧ Script.IsTypeName "void".toList :=
  ⟨⟨Script.isWord_of_check rfl, by decide⟩, ⟨Script.isWord_of_check rfl, by decide⟩⟩

theorem isPart_importsPart (motions : List Motion) : IsPart d (importsPart motions) := by
  refine Script.isPart_import Script.blank_nil (List.cons_ne_nil _ _) ?_ (by decide) (absurd · Bool.false_ne_true)
  refine List.forall_mem_cons.mpr ⟨⟨isSubject_animate.toIsName, by decide, by decide⟩, ?_⟩
  split
  · exact List.forall_mem_singleton.mpr ⟨isSubject_inView.toIsName, by decide, by decide⟩
  · exact List.forall_mem_nil _

/-- The parameter of the function and its result, with their types where the text has types. -/
theorem isSignature_headText {typed : Bool} (form : typed = true → d.typed = true) :
    IsSignature d (headText typed) fun n nodes =>
      nodes = [Script.Reader.leaf .identifier (n + 1) Calls.rootTarget.toList.length] := by
  have types {type : List Char} (isTypeName : Script.IsTypeName type) :
      ∀ given ∈ (if typed then some type else none), Script.IsTypeName given := by
    intro given member
    cases typed with
    | false => cases member
    | true => exact Option.some.inj member ▸ isTypeName
  have some_ {type : List Char} (given : (if typed then some type else none).isSome = true) : d.typed = true := by
    cases typed with
    | false => cases given
    | true => exact form rfl
  exact .parameter (.name isParameter_rootTarget) (types isTypeName_head.1) (types isTypeName_head.2)
    fun given => given.elim some_ some_

theorem derives_bodyItems (callable : ∀ motion ∈ motions, IsCallable motion) (position : Nat) :
    ∀ item ∈ bodyItems position motions, Script.Derives .statement item := by
  induction motions generalizing position with
  | nil => exact List.forall_mem_nil _
  | cons motion rest ih =>
    exact List.forall_mem_append.mpr ⟨derives_elementItems (callable motion List.mem_cons_self) position,
      ih (fun other member => callable other (List.mem_cons_of_mem _ member)) (position + 1)⟩

theorem isPart_exportPart (callable : ∀ motion ∈ motions, IsCallable motion) (pascal : Declarations.isPascal name = true)
    {typed : Bool} (form : typed = true → d.typed = true) : IsPart d (exportPart typed name motions) := by
  have statements : ∀ part ∈ bodyParts motions, IsPart d part := List.forall_mem_map.mpr fun item member =>
    .statement (blank_gapAt 1) (derives_bodyItems callable 0 item member)
  refine (IsPart.function false Layout.blank_feeds (isName_functionName pascal) (isSignature_headText form) statements
    (Script.blank_of_all rfl)).weaken fun n node isExport => isExport.parameters fun n nodes same => ?_
  rw [same]
  exact List.forall_mem_singleton.mpr (Node.isInert_leaf _ _ (by decide))

theorem isPart_partsBefore (forest : Forest) : ∀ part ∈ partsBefore forest, IsPart d part := by
  refine List.forall_mem_cons.mpr ⟨isPart_importsPart _, ?_⟩
  split
  · exact List.forall_mem_singleton.mpr Layout.isPart_wishPart
  · exact List.forall_mem_nil _

/-- The statements of a script are derived, in the plain form if it has no types. -/
theorem isPart_parts (callable : ∀ motion ∈ forest.motions, IsCallable motion)
    (pascal : Declarations.isPascal context.componentName = true) (form : context.typescript = true → d.typed = true) :
    ∀ part ∈ parts forest context, IsPart d part :=
  List.forall_mem_append.mpr ⟨isPart_partsBefore forest, List.forall_mem_singleton.mpr (isPart_exportPart callable pascal form)⟩

/-! ### The typed form is no script of the plain form -/

variable {parse : Script.Parser}

theorem parse_plain (conforms : parse.Conforms) (pascal : Declarations.isPascal context.componentName = true)
    (typed : context.typescript = true) : parse ⟨false, true⟩ (scriptText (parts forest context) ['\n']) = none := by
  have begins : Script.BeginsTyped (exportText false (functionName context.componentName).toList (headText true)
      (bodyText forest.motions) ++ ['\n']) :=
    .function _ _ _ _ (isName_functionName pascal) (.name isParameter_rootTarget)
  have refused := conforms.refusesTyped (d := ⟨false, true⟩) rfl (isPart_partsBefore forest) Layout.blank_feeds begins
  rw [parts, typed]
  simpa only [scriptText, partsText, List.flatMap_append, List.flatMap_singleton, exportPart, Part.whole,
    List.append_assoc] using refused

/-! ### The script is read -/

/-- The script was read as it stands. -/
def IsReading (forest : Forest) (context : Context) (reading : Source.ScriptReading) : Prop :=
  ∃ typescript span nodes, reading =
      ⟨typescript, 0, scriptText (parts forest context) ['\n'], .mk .program .plain span nodes⟩ ∧
    Along (parts forest context) 0 nodes

/-- The first way to read a script is taken if it has types or the script has none. -/
theorem exists_readScript_first (conforms : parse.Conforms) (callable : ∀ motion ∈ forest.motions, IsCallable motion)
    (pascal : Declarations.isPascal context.componentName = true) {typescript : Bool}
    (form : context.typescript = true → typescript = true) (others : List Source.Attempt) :
    ∃ reading, Source.readScript parse .js (scriptText (parts forest context) ['\n']) (⟨typescript, false⟩ :: others) =
      some reading ∧ IsReading forest context reading := by
  have feed : Script.Blank ['\n'] := Script.blank_of_all rfl
  have statements : ∀ part ∈ parts forest context, IsPart (Source.dialect .js typescript) part :=
    isPart_parts callable pascal form
  obtain ⟨span, nodes, parsed, along⟩ := conforms.reads statements feed
  rw [Source.readScript, Source.tree?_plain parsed]
  exact ⟨_, rfl, typescript, span, nodes, rfl, along⟩

/-- A script is read as it stands. -/
theorem exists_readScript (conforms : parse.Conforms) (callable : ∀ motion ∈ forest.motions, IsCallable motion)
    (pascal : Declarations.isPascal context.componentName = true) {typescript? : Option Bool}
    (form : context.typescript = true → typescript? ≠ some false) :
    ∃ reading, Source.readScript parse .js (scriptText (parts forest context) ['\n']) (Source.attempts .js typescript?) =
      some reading ∧ IsReading forest context reading := by
  cases typescript? with
  | none =>
    have attempts : Source.attempts .js none = [⟨false, false⟩, ⟨true, false⟩] := rfl
    rw [attempts]
    by_cases typed : context.typescript = true
    · have plain : Source.Attempt.tree? parse ⟨false, false⟩ .js (scriptText (parts forest context) ['\n']) = none :=
        Source.tree?_of_refused (parse_plain conforms pascal typed)
      rw [Source.readScript, plain]
      exact exists_readScript_first conforms callable pascal (fun _ => rfl) _
    · exact exists_readScript_first conforms callable pascal (fun given => absurd given typed) _
  | some typescript =>
    have attempts : Source.attempts .js (some typescript) = [⟨typescript, false⟩] := rfl
    rw [attempts]
    refine exists_readScript_first conforms callable pascal (fun typed => ?_) _
    cases typescript with
    | false => exact absurd rfl (form typed)
    | true => rfl

/-! ### What the script says -/

/-- What is said of elements one after another, after so many others: each with its target. -/
def bodyBlocks : Nat → List Motion → List (String × List Saying)
  | _, [] => []
  | position, motion :: rest =>
    (String.ofList (targetName position), motionSayings motion (targetName position)) :: bodyBlocks (position + 1) rest

theorem say_bodyItems (position : Nat) (motions : List Motion) :
    Say (bodyItems position motions) ((bodyBlocks position motions).flatMap Prod.snd) := by
  induction motions generalizing position with
  | nil => exact ⟨[], .nil, rfl⟩
  | cons motion rest ih => exact (say_elementItems position motion).append (ih (position + 1))

/-- The function says what its statements do. -/
theorem says_exportPart (typed : Bool) (name : String) (motions : List Motion) :
    Says none (exportPart typed name motions) ((bodyBlocks 0 motions).flatMap Prod.snd) := by
  obtain ⟨each, say, same⟩ := say_bodyItems 0 motions
  have inside (m : Nat) (nodes : List Node) (along : Along (bodyParts motions) m nodes) :
      Tells none ((bodyBlocks 0 motions).flatMap Prod.snd) (partsText (bodyParts motions)) m nodes := by
    rw [← same]
    exact Calls.tells_along (List.forall₂_map_left_iff.mpr (say.imp fun item _ said => Calls.says_item said (gapAt 1))) along
  exact Calls.says_export (fun _ _ inert => inert) fun n node covers => Calls.tells_block inside covers .body

/-- Only the function of a script says something. -/
theorem tells_parts {nodes : List Node} (along : Along (parts forest context) 0 nodes) :
    Tells none ((bodyBlocks 0 forest.motions).flatMap Prod.snd) (partsText (parts forest context)) 0 nodes := by
  have last := says_exportPart context.typescript context.componentName forest.motions
  have wish : Says none wishPart [] := Calls.says_item Calls.says_wish feeds
  have import_ : Says none (importsPart forest.motions) [] := Calls.says_import
  unfold parts partsBefore at along ⊢
  cases reduces : forest.reducesMotion with
  | true =>
    rw [reduces] at along
    simpa using Calls.tells_along (.cons import_ (.cons wish (.cons last .nil))) along
  | false =>
    rw [reduces] at along
    simpa using Calls.tells_along (.cons import_ (.cons last .nil)) along

/-- A script imports what it calls. -/
theorem declare_parts (forest : Forest) (context : Context) :
    Script.Declare (parts forest context) [Script.namedImport false (importedNames forest.motions) "motion".toList] := by
  have export_ : (exportPart context.typescript context.componentName forest.motions).Declares [] := by
    refine Script.declares_nothing fun n node fits => ?_
    obtain ⟨marks, function_, rfl, -, -⟩ := fits
    exact fun same => Script.Kind.noConfusion same
  have last := export_.cons Script.declare_nil
  unfold parts partsBefore
  cases forest.reducesMotion with
  | true => exact Script.declares_import.cons (Layout.declares_wishPart.cons last)
  | false => exact Script.declares_import.cons last

/-! ### The elements that are spoken of -/

/-- Elements are spoken of by names of their own. -/
theorem targetName_injective : Function.Injective targetName := by
  have digits : Function.Injective Decimal.digitsOf := fun first second same => by
    rw [← Decimal.natOf_digitsOf first, same, Decimal.natOf_digitsOf]
  have root (position : Nat) : variableName position ≠ Calls.rootTarget.toList := by
    intro same
    have third : (Decimal.digitsOf position).head? = some 'e' := congrArg (fun name => (name.drop 2).head?) same
    obtain ⟨rest, text⟩ := List.head?_eq_some_iff.mp third
    have digit := List.all_eq_true.mp (Decimal.isDigit_digitsOf position) 'e' (text ▸ List.mem_cons_self)
    cases digit
  intro first second same
  unfold targetName at same
  split at same <;> split at same
  · rename_i here there
    rw [here, there]
  · exact absurd same.symm (root second)
  · exact absurd same (root first)
  · exact digits (List.cons_injective (List.cons_injective same))

theorem exists_position {position : Nat} {block : String × List Saying} (member : block ∈ bodyBlocks position motions) :
    ∃ later, position ≤ later ∧ block.1 = String.ofList (targetName later) := by
  induction motions generalizing position with
  | nil => cases member
  | cons motion rest ih =>
    rcases List.mem_cons.mp member with rfl | member
    · exact ⟨position, le_rfl, rfl⟩
    · obtain ⟨later, after, same⟩ := ih member
      exact ⟨later, by omega, same⟩

theorem nodup_bodyBlocks (position : Nat) (motions : List Motion) : ((bodyBlocks position motions).map Prod.fst).Nodup := by
  induction motions generalizing position with
  | nil => exact List.nodup_nil
  | cons motion rest ih =>
    refine List.nodup_cons.mpr ⟨fun member => ?_, ih (position + 1)⟩
    obtain ⟨block, member, same⟩ := List.mem_map.mp member
    obtain ⟨later, after, named⟩ := exists_position member
    have equal := targetName_injective (String.ofList_injective (named.symm.trans same))
    omega

theorem isSaidOf_bodyBlocks (callable : ∀ motion ∈ motions, IsCallable motion) (position : Nat) :
    ∀ block ∈ bodyBlocks position motions, Calls.IsSaidOf block := by
  induction motions generalizing position with
  | nil => exact List.forall_mem_nil _
  | cons motion rest ih =>
    exact List.forall_mem_cons.mpr ⟨isSaidOf_motion (callable motion List.mem_cons_self) _,
      ih (fun other member => callable other (List.mem_cons_of_mem _ member)) (position + 1)⟩

/-- The groups of the calls on elements move as these do. -/
theorem movesAs_groups (callable : ∀ motion ∈ motions, IsCallable motion) {position : Nat} {groups : Fields Calls.Group}
    (gathered : List.Forall₂ (fun field block => Calls.Gathers field.2 block.2) groups (bodyBlocks position motions)) :
    List.Forall₂ (fun read motion => (!read.phases.isEmpty) = true ∧ read.MovesAs motion)
      (groups.values.map Calls.Group.close) motions := by
  induction motions generalizing position groups with
  | nil =>
    obtain rfl := List.forall₂_nil_right_iff.mp gathered
    exact .nil
  | cons motion rest ih =>
    obtain ⟨field, more, gathers, others, rfl⟩ := List.forall₂_cons_right_iff.mp gathered
    have here := callable motion List.mem_cons_self
    have moves := movesAs_close here gathers
    exact .cons ⟨by simpa using phases_ne_nil here moves, moves⟩
      (ih (fun other member => callable other (List.mem_cons_of_mem _ member)) others)

/-- An element without others inside that moves as a motion does. -/
def Plays (element : Element) (motion : Motion) : Prop := element.children = [] ∧ element.own.MovesAs motion

/-- The elements that the calls speak of are those of the forest. -/
theorem plays_spokenOf (callable : ∀ motion ∈ motions, IsCallable motion) {calls : List Calls.Recognized}
    (same : calls.map Calls.Recognized.saying = (bodyBlocks 0 motions).flatMap Prod.snd) :
    List.Forall₂ Plays (spokenOf calls) motions := by
  obtain ⟨groups, folded, gathered⟩ := @Calls.exists_groups _ (isSaidOf_bodyBlocks callable 0) (nodup_bodyBlocks 0 motions)
    _ same [] fun _ _ => rfl
  obtain ⟨kept, moves⟩ := (List.forall₂_and_left _ _).mp (movesAs_groups callable gathered)
  rw [spokenOf, folded, List.nil_append, List.filter_eq_self.mpr kept]
  exact List.forall₂_map_left_iff.mpr (moves.imp fun read motion moved => ⟨rfl, moved⟩)

theorem motions_ne_nil {forest : Forest} (some_ : forest ≠ []) : forest.motions ≠ [] := by
  obtain ⟨⟨own, children⟩, rest, rfl⟩ := List.exists_cons_of_ne_nil some_
  exact List.cons_ne_nil own _

/-- A script that calls the animation function is read with its elements and its imports. -/
theorem exists_read (conforms : parse.Conforms) {forest : Forest} {context : Context} {source : Source} (some_ : forest ≠ [])
    (callable : ∀ motion ∈ forest.motions, IsCallable motion)
    (pascal : Declarations.isPascal context.componentName = true) {text : String}
    (rendered : render? forest context [] = .ok text) (code : source.code = text.toList)
    (framework : source.framework = .ok .js) (form : context.typescript = true → source.typescript? ≠ some false) :
    ∃ component, source.read parse = .ok component ∧ List.Forall₂ Plays component.elements forest.motions ∧
      component.imports = [Script.namedImport false (importedNames forest.motions) "motion".toList] := by
  obtain ⟨_, again, written⟩ := toList_render? (motions_ne_nil some_) callable context
  obtain rfl := Except.ok.inj (rendered.symm.trans again)
  rw [written] at code
  have filled : Text.isBlankText source.code = false := by
    rw [code]
    rfl
  obtain ⟨_, reading, typescript, span, nodes, rfl, along⟩ := exists_readScript conforms callable pascal form
  have program : Tells none _ (partsText (parts forest context)) 0 [.mk .program .plain span nodes] :=
    (tells_parts along).under (by decide) (fun source holds => holds) .plain span
  have told : Calls.Told (scriptText (parts forest context) ['\n']) [] _ _ := program _ (Script.holds_zero _ ['\n']) [] rfl
  obtain ⟨found, calls, extract, elements, same⟩ := Calls.exists_extract told
  rw [Source.read_of_script filled framework (by decide)]
  have imports_ := (declare_parts forest context).imports_eq along ['\n'] .program .plain span
  rw [← code] at reading imports_ extract
  obtain ⟨component, read, known, imported⟩ := Source.exists_readScriptComponent reading imports_ extract
  refine ⟨component, read, ?_, imported⟩
  rw [known, elements]
  exact plays_spokenOf callable same

/-- A menu that slides in, unless reduced motion is preferred, with an entry that grows under the pointer. -/
def slidingMenu : Forest :=
  [⟨{ Motion.ofTag "nav" with
      phases := [("initial", .object [("x", .int (-40))]), ("animate", .object [("x", .int 0)]),
        ("transition", .object [("duration", .int 2)])]
      reducedMotion := true },
    [⟨{ Motion.ofTag "a" with
        phases := [("hover", .object [("scale", .int 2), ("--tint", .text "red")]),
          ("inView", .object [("opacity", .list [.int 0, .int 1])])] }, []⟩]⟩]

theorem isCallable_slidingMenu : ∀ motion ∈ Forest.motions slidingMenu, IsCallable motion := by
  refine List.forall_mem_cons.mpr ⟨⟨rfl, by decide, by decide, ⟨.initial, by decide, by decide⟩, ?_, nofun, by decide⟩,
    List.forall_mem_singleton.mpr ⟨rfl, by decide, by decide, ⟨.hover, by decide, by decide⟩, ?_, nofun, nofun⟩⟩
  · exact List.forall_mem_cons.mpr ⟨⟨by decide, _, rfl, by decide⟩, List.forall_mem_cons.mpr
      ⟨⟨by decide, _, rfl, by decide⟩, List.forall_mem_singleton.mpr ⟨by decide, _, rfl, by decide⟩⟩⟩
  · exact List.forall_mem_cons.mpr
      ⟨⟨by decide, _, rfl, by decide⟩, List.forall_mem_singleton.mpr ⟨by decide, _, rfl, by decide⟩⟩

theorem elementStatements_of_plain {motion : Motion} (plain : motion.attributes = []) (position : Nat) :
    elementStatements position motion = Value.whenWritable (values motion)
      (if position = 0 then statements motion Calls.rootTarget else lookedUp position motion.tag motion) := by
  have noSelector : (!((Fields.get? motion.attributes "selector").getD .null).isTruthy) = true := by
    rw [plain]
    rfl
  unfold elementStatements
  exact if_pos noSelector

theorem bodyFrom_of_not {motions : List Motion} (plain : ∀ motion ∈ motions, motion.attributes = []) {motion : Motion}
    (among : motion ∈ motions) {value : Value} (member : value ∈ values motion) (unwritable : value.isWritable = false)
    (position : Nat) : bodyFrom position motions = .error .numberTooLong := by
  induction motions generalizing position with
  | nil => cases among
  | cons first rest ih =>
    rw [bodyFrom, elementStatements_of_plain (plain first List.mem_cons_self)]
    rcases List.mem_cons.mp among with rfl | later
    · rw [Value.whenWritable_of_not member unwritable]
      rfl
    · have others := ih (fun other member => plain other (List.mem_cons_of_mem _ member)) later (position + 1)
      -- either the first element cannot be written, or one behind it
      cases here : Value.whenWritable (values first)
        (if position = 0 then statements first Calls.rootTarget else lookedUp position first.tag first) with
      | error failure =>
        obtain rfl : failure = .numberTooLong := Value.failsOnly_whenWritable failure here
        rfl
      | ok lines =>
        dsimp only [bind, Except.bind]
        rw [others]

/-- There is no script for elements with a value that cannot be written. -/
theorem render?_of_not {forest : Forest} (plain : ∀ motion ∈ forest.motions, motion.attributes = []) {motion : Motion}
    (among : motion ∈ forest.motions) {value : Value} (member : value ∈ values motion)
    (unwritable : value.isWritable = false) (context : Context) (placeholders : List String) :
    render? forest context placeholders = .error .numberTooLong := by
  unfold render?
  dsimp only
  rw [bodyFrom_of_not plain among member unwritable]
  rfl

/-- A line that moves by an integer of more digits than can be written. -/
def farLine : Motion :=
  { Motion.ofTag "hr" with phases := [("animate", .object [("x", .int (10 ^ Decimal.digitLimit))])] }

end CallRender

end AnimationCode
