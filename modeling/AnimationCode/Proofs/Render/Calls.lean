/-
**What the calls of an element say.**

Every phase of an element becomes statements that call the animation function: one call that may be finished at
once, an observer, or two listeners. The statements for an element other than the outermost stand under the condition
that it was found.

* `IsCallable`: a motion that calls say all of;
* `behind_elementStatements`: the lines for an element are statements on lines of their own;
* `derives_elementItems`: the statements are derived;
* `say_elementItems`: what they say.
-/

import AnimationCode.Proofs.Element.Grouped
import AnimationCode.Proofs.Element.Forest
import AnimationCode.Proofs.Render.Lines
import AnimationCode.Render.Calls

namespace AnimationCode

namespace CallRender

open Calls (ItemSays Saying animateItem animateText argumentItems completedItem listenerItem lookupItem observerItem spoken)
open Layout (gapAt)
open Script (Derives IsIdentifier IsSubject Item blockText callbackItem chainItem lineText)

/-- A motion of which calls say all: some of the phases that calls set, with literal properties, and perhaps a transition
that is not empty. Only with a transition can it give way to a wish for reduced motion. -/
structure IsCallable (motion : Motion) : Prop where
  attributes : motion.attributes = []
  tag : Value.IsText motion.tag
  named : motion.phases.keys.Nodup
  moves : ∃ phase ∈ callPhases, motion.hasPhase phase = true
  phases : ∀ field ∈ motion.phases, field.1 ∈ (callPhases ++ [Phase.transition]).map Phase.name ∧
    ∃ fields, field.2 = .object fields ∧ field.2.IsLiteral
  transition : motion.phase? .transition ≠ some (.object [])
  guard : motion.reducedMotion = true → motion.hasPhase .transition = true

/-! ### The values that calls write -/

variable {motion : Motion} {phase : Phase} {fields : Fields Value}

/-- What the calls on an element carry: options that a literal writes, if any. -/
def AreLiteral (options? : Option Value) : Prop := ∀ options ∈ options?, options.IsLiteral

theorem get?_of_keyframes? (found : motion.keyframes? phase = some fields) :
    motion.phases.get? phase.name = some (.object fields) := by
  obtain ⟨value, known, isObject⟩ := Option.bind_eq_some_iff.mp found
  cases value <;> cases isObject
  exact known

theorem literal_keyframes (callable : IsCallable motion) (found : motion.keyframes? phase = some fields) :
    (Value.object fields).IsLiteral := by
  obtain ⟨-, -, -, literal⟩ := callable.phases _ (Fields.mem_of_get? (get?_of_keyframes? found))
  exact literal

/-- The transition of a motion of which calls say all. -/
theorem transition_of_callable (callable : IsCallable motion) {value : Value}
    (found : motion.phase? .transition = some value) :
    ∃ options, value = .object options ∧ options ≠ [] ∧ value.IsLiteral := by
  obtain ⟨-, options, rfl, literal⟩ := callable.phases _ (Fields.mem_of_get? found)
  refine ⟨options, rfl, ?_, literal⟩
  rintro rfl
  exact callable.transition found

/-- The options of the calls are the transition, under a guard if the motion asks for it. -/
theorem options?_eq (callable : IsCallable motion) : CallRender.options? motion =
    (motion.phase? .transition).map fun value => if motion.reducedMotion then .guarded value else value := by
  unfold CallRender.options?
  cases found : motion.phase? .transition with
  | none => rfl
  | some value =>
    obtain ⟨options, rfl, some_, -⟩ := transition_of_callable callable found
    cases options with
    | nil => exact absurd rfl some_
    | cons => rfl

theorem areLiteral_options? (callable : IsCallable motion) : AreLiteral (CallRender.options? motion) := by
  rw [options?_eq callable]
  intro written member
  obtain ⟨value, found, rfl⟩ := Option.mem_map.mp member
  obtain ⟨options, rfl, -, literal⟩ := transition_of_callable callable found
  split
  · rwa [Value.IsLiteral]
  · exact literal

/-- What calls say of a motion can be written. -/
theorem isWritable_values (callable : IsCallable motion) : ∀ value ∈ values motion, value.isWritable = true := by
  refine List.forall_mem_append.mpr ⟨fun value member => ?_, fun value member => ?_⟩
  · obtain ⟨field, phase, rfl⟩ := List.mem_map.mp member
    obtain ⟨-, fields, -, literal⟩ := callable.phases field (List.mem_filter.mp phase).1
    exact field.2.isWritable_of_isLiteral literal
  · have options := (List.mem_ite_nil_right.mp member).2
    exact value.isWritable_of_isLiteral (areLiteral_options? callable value (Option.mem_toList.mp options))

/-! ### The statements of an element -/

/-- The call to some properties of an element. -/
def moveItem (motion : Motion) (target : List Char) (fields : Fields Value) : Item :=
  animateItem target (.object fields) (options? motion)

/-- The same call in a listener at a depth. -/
def listenItem (motion : Motion) (target : List Char) (depth : Nat) (event : String) (fields : Fields Value) : Item :=
  listenerItem target event (gapAt (depth + 1)) (gapAt depth) [moveItem motion target fields]

/-- The same call in an observer at a depth. -/
def observeItem (motion : Motion) (target : List Char) (depth : Nat) (fields : Fields Value) : Item :=
  observerItem target (gapAt (depth + 1)) (gapAt depth) [moveItem motion target fields]

/-- The call to the initial state, which carries the options only if no other phase does. -/
def settleItem (motion : Motion) (target : List Char) (fields : Fields Value) : Item :=
  completedItem target (.object fields) (if isCarried motion then none else options? motion)

/-- The statements for a phase of an element at a depth. -/
def phaseItems (motion : Motion) (target : List Char) (depth : Nat) (phase : Phase) : List Item :=
  match motion.keyframes? phase with
  | none => []
  | some fields =>
    match listeners.lookup phase with
    | some (enter, leave) =>
      [listenItem motion target depth enter fields, listenItem motion target depth leave (restValues motion phase.name)]
    | none =>
      if phase = .inView then [observeItem motion target depth fields]
      else if phase = .initial then [settleItem motion target fields]
      else [moveItem motion target fields]

/-- The statements for the phases of an element at a depth. -/
def motionItems (motion : Motion) (target : List Char) (depth : Nat) : List Item :=
  callPhases.flatMap (phaseItems motion target depth)

/-- The name of the variable that holds the element after so many others. -/
def variableName (position : Nat) : List Char := 'e' :: 'l' :: Decimal.digitsOf position

/-- The target of the calls on the element after so many others. -/
def targetName (position : Nat) : List Char := if position = 0 then Calls.rootTarget.toList else variableName position

/-- The statements for the element after so many others, in a function. -/
def elementItems (position : Nat) (motion : Motion) : List Item :=
  if position = 0 then motionItems motion (targetName position) 1
  else [Script.constItem (targetName position) (lookupItem Calls.rootTarget.toList motion.tag.toList),
    Script.ifItem (targetName position) (gapAt 2) (gapAt 1) (motionItems motion (targetName position) 2)]

/-! ### Their text -/

theorem toList_call (target : String) (keyframes : Value) (options? : Option Value) :
    (call target keyframes options?).toList = animateText target.toList keyframes options? := by
  have opening : "animate(".toList = "animate".toList ++ ['('] ∧ ")".toList = [')'] ∧ ", ".toList = [',', ' '] :=
    ⟨rfl, rfl, rfl⟩
  unfold call animateText argumentItems Script.Suffix.text
  cases options? with
  | none =>
    simp [Script.commaText, Script.nameItem, Script.tokenItem, Script.valueItem, opening]
  | some options =>
    simp [Script.commaText, Script.nameItem, Script.tokenItem, Script.valueItem, opening]

/-- Whether a phase is written as the end of another. -/
theorem stripStart?_name (phase : Phase) : Text.stripStart? "restore:".toList phase.name.toList = none := by
  cases phase <;> rfl

theorem stripStart?_restore (name : String) :
    Text.stripStart? "restore:".toList ("restore:" ++ name).toList = some name.toList := by
  rw [String.toList_append]
  rfl

theorem siteCall_phase (found : motion.keyframes? phase = some fields) (target : String) :
    siteCall motion phase.name target =
      if phase = .initial then
        call target (.object fields) (if isCarried motion then none else options? motion) ++ ".complete()"
      else call target (.object fields) (options? motion) := by
  have same : phase.name = Phase.initial.name ↔ phase = .initial := by cases phase <;> decide
  rw [siteCall, siteCall?, stripStart?_name, get?_of_keyframes? found]
  simp only [same]
  split <;> rfl

theorem siteCall_restore (found : motion.keyframes? phase = some fields) (target : String) :
    siteCall motion ("restore:" ++ phase.name) target =
      call target (.object (restValues motion phase.name)) (options? motion) := by
  have has : motion.phases.has phase.name = true := by
    rw [Fields.has, get?_of_keyframes? found]
    rfl
  rw [siteCall, siteCall?, stripStart?_restore]
  dsimp only
  rw [String.ofList_toList, if_pos has]
  rfl

/-- A statement in a function that is passed on, on lines of its own. -/
theorem behind_inCallback (depth : Nat) (head statement : String) :
    Layout.behind ((inCallback head statement).map (Layout.indent depth ++ ·)) =
      gapAt depth ++ (head.toList ++ (", () => ".toList ++ ('\x7b' :: (gapAt (depth + 1) ++ (statement.toList ++ ';' ::
        (gapAt depth ++ "\x7d);".toList)))))) := by
  have next : Layout.indent depth ++ (Layout.unit ++ statement ++ ";") =
      Layout.indent (depth + 1) ++ (statement ++ ";") := by
    rw [← Layout.indent_succ, String.append_assoc, String.append_assoc]
  have opening : ", () => \x7b".toList = ", () => ".toList ++ ['\x7b'] := rfl
  rw [inCallback, List.map_cons, List.map_cons, List.map_singleton, next, Layout.behind_indented, Layout.behind_indented,
    Layout.behind_indented, String.toList_append, String.toList_append, opening]
  simp only [Layout.behind_nil, List.append_assoc, List.append_nil, List.cons_append, List.nil_append]
  rfl

theorem text_animateItem (target : List Char) (keyframes : Value) (options? : Option Value) :
    (animateItem target keyframes options?).text = animateText target keyframes options? ++ [';'] :=
  Script.chainText_cons ..

theorem text_completedItem (target : List Char) (keyframes : Value) (options? : Option Value) :
    (completedItem target keyframes options?).text = animateText target keyframes options? ++ ".complete();".toList :=
  Script.chainText_cons ..

/-- The text of two arguments of which the second is a function. -/
theorem text_handler (first : Item) (pad close : List Char) (items : List Item) :
    (Script.Suffix.arguments [first, callbackItem pad close items]).text ++ [';'] =
      '(' :: (first.text ++ (", () => ".toList ++ '\x7b' :: (lineText pad items ++ (close ++ "\x7d);".toList)))) := by
  have words : ", () => ".toList = ',' :: ' ' :: "() => ".toList ∧ "\x7d);".toList = ['\x7d'] ++ ([')'] ++ [';']) := ⟨rfl, rfl⟩
  rw [words.1, words.2, Script.Suffix.text, Script.commaText, List.flatMap_singleton, callbackItem, Script.callbackText,
    blockText]
  simp only [List.append_assoc, List.cons_append]

theorem text_listenerItem (target : List Char) (event : String) (pad close : List Char) (items : List Item) :
    (listenerItem target event pad close items).text = target ++ (".addEventListener".toList ++
      '(' :: (Text.quote event.toList ++ (", () => ".toList ++
        '\x7b' :: (lineText pad items ++ (close ++ "\x7d);".toList))))) := by
  have handler := text_handler (Script.stringItem event.toList) pad close items
  rw [listenerItem, chainItem, Script.chainText_cons, Script.suffixText, List.flatMap_singleton, handler, List.append_assoc]
  rfl

theorem text_observerItem (target pad close : List Char) (items : List Item) :
    (observerItem target pad close items).text = "inView".toList ++ '(' :: (target ++
      (", () => ".toList ++ '\x7b' :: (lineText pad items ++ (close ++ "\x7d);".toList)))) := by
  have handler := text_handler (Script.nameItem target) pad close items
  rw [observerItem, chainItem, Script.chainText, Script.suffixText, List.flatMap_singleton, handler]
  rfl

theorem lineText_cons (pad : List Char) (item : Item) (rest : List Item) :
    lineText pad (item :: rest) = pad ++ (item.text ++ lineText pad rest) := by
  rw [lineText, List.flatMap_cons, List.append_assoc]
  rfl

theorem behind_listen {event kind target : String} (depth : Nat)
    (written : siteCall motion kind target = call target (.object fields) (options? motion)) :
    Layout.behind ((inCallback (target ++ ".addEventListener(" ++ String.ofList (Text.quote event.toList))
      (siteCall motion kind target)).map (Layout.indent depth ++ ·)) =
        lineText (gapAt depth) [listenItem motion target.toList depth event fields] := by
  have opening : ".addEventListener(".toList = ".addEventListener".toList ++ ['('] := rfl
  have quoted : (String.ofList (Text.quote event.toList)).toList = Text.quote event.toList := String.toList_ofList
  rw [behind_inCallback, written, toList_call, lineText_cons, listenItem, text_listenerItem, lineText_cons, moveItem,
    text_animateItem, String.toList_append, String.toList_append, opening, quoted]
  simp only [List.append_assoc, List.cons_append, List.nil_append, lineText, List.flatMap_nil, List.append_nil]

theorem behind_observe {kind target : String} (depth : Nat)
    (written : siteCall motion kind target = call target (.object fields) (options? motion)) :
    Layout.behind ((inCallback ("inView(" ++ target) (siteCall motion kind target)).map (Layout.indent depth ++ ·)) =
      lineText (gapAt depth) [observeItem motion target.toList depth fields] := by
  have opening : "inView(".toList = "inView".toList ++ ['('] := rfl
  rw [behind_inCallback, written, toList_call, lineText_cons, observeItem, text_observerItem, lineText_cons, moveItem,
    text_animateItem, String.toList_append, opening]
  simp only [List.append_assoc, List.cons_append, List.nil_append, lineText, List.flatMap_nil, List.append_nil]

/-- A statement on a line of its own. -/
theorem behind_statement (depth : Nat) {statement : String} {item : Item} (text : (statement ++ ";").toList = item.text) :
    Layout.behind ([statement ++ ";"].map (Layout.indent depth ++ ·)) = lineText (gapAt depth) [item] := by
  rw [List.map_singleton, Layout.behind_indented, text, lineText_cons]
  rfl

/-- The lines for a phase are its statements on lines of their own. -/
theorem behind_phaseStatements (motion : Motion) (target : String) (depth : Nat) {phase : Phase}
    (member : phase ∈ callPhases) :
    Layout.behind ((phaseStatements motion target phase).map (Layout.indent depth ++ ·)) =
      lineText (gapAt depth) (phaseItems motion target.toList depth phase) := by
  unfold phaseStatements phaseItems
  cases found : motion.keyframes? phase with
  | none => rfl
  | some fields =>
    have here := siteCall_phase found target
    have gesture (enter leave : String) (plain : phase ≠ .initial) : Layout.behind ((
        inCallback (target ++ ".addEventListener(" ++ String.ofList (Text.quote enter.toList)) (siteCall motion phase.name target) ++
        inCallback (target ++ ".addEventListener(" ++ String.ofList (Text.quote leave.toList))
          (siteCall motion ("restore:" ++ phase.name) target)).map (Layout.indent depth ++ ·)) = lineText (gapAt depth)
        [listenItem motion target.toList depth enter fields,
          listenItem motion target.toList depth leave (restValues motion phase.name)] := by
      rw [if_neg plain] at here
      rw [List.map_append, Layout.behind_append, behind_listen depth here, behind_listen depth (siteCall_restore found target),
        lineText, lineText, ← List.flatMap_append]
      rfl
    simp only [callPhases, List.mem_cons, List.not_mem_nil, or_false] at member
    rcases member with rfl | rfl | rfl | rfl | rfl
    · have text : (siteCall motion Phase.initial.name target ++ ";").toList = (settleItem motion target.toList fields).text := by
        rw [here, if_pos rfl, settleItem, text_completedItem, String.toList_append, String.toList_append, toList_call,
          List.append_assoc]
        rfl
      exact behind_statement depth text
    · have text : (siteCall motion Phase.animate.name target ++ ";").toList = (moveItem motion target.toList fields).text := by
        rw [here, if_neg (by decide), moveItem, text_animateItem, String.toList_append, toList_call]
        rfl
      exact behind_statement depth text
    · exact gesture "pointerenter" "pointerleave" (by decide)
    · exact gesture "pointerdown" "pointerup" (by decide)
    · exact behind_observe depth here

/-- Nothing is left over of a motion of which calls say all. -/
theorem statements_of_callable (callable : IsCallable motion) (target : String) :
    statements motion target = callPhases.flatMap (phaseStatements motion target) := by
  have nothing : motion.phases.filterMap leftOver = [] := by
    refine List.filterMap_eq_nil_iff.mpr fun field member => ?_
    obtain ⟨known, fields, object_, -⟩ := callable.phases field member
    rw [List.map_append, List.mem_append] at known
    rw [leftOver]
    simp only [object_, Value.isObject, Bool.and_true]
    rcases known with called | rest
    · rw [List.contains_iff_mem.mpr called]
      rfl
    · rw [List.mem_singleton.mp rest]
      simp
  rw [statements, nothing, List.append_nil]

theorem behind_statements (callable : IsCallable motion) (target : String) (depth : Nat) :
    Layout.behind ((statements motion target).map (Layout.indent depth ++ ·)) =
      lineText (gapAt depth) (motionItems motion target.toList depth) := by
  rw [statements_of_callable callable, motionItems, lineText, List.map_flatMap, Layout.behind, List.flatMap_assoc,
    List.flatMap_assoc]
  exact List.flatMap_congr fun phase member => behind_phaseStatements motion target depth member

theorem toList_toString (n : Nat) : (toString n).toList = Decimal.digitsOf n := String.toList_ofList

theorem toList_variable (position : Nat) : ("el" ++ toString position).toList = variableName position := by
  rw [String.toList_append, toList_toString]
  rfl

theorem text_lookup (name root selector : List Char) :
    (Script.constItem name (lookupItem root selector)).text = "const ".toList ++ (name ++ (" = ".toList ++ (root ++
      (".querySelector(".toList ++ (Text.quote selector ++ ");".toList))))) := by
  have words : "const ".toList = "const".toList ++ [' '] ∧ " = ".toList = [' ', '='] ++ [' '] ∧
      ".querySelector(".toList = ".querySelector".toList ++ ['('] ∧ ");".toList = [')'] ++ [';'] := ⟨rfl, rfl, rfl, rfl⟩
  have lookup : (lookupItem root selector).text = root ++ (".querySelector".toList ++ ('(' :: (Text.quote selector ++ [')']))) := by
    rw [lookupItem, Script.chainedItem, Script.suffixText, List.flatMap_cons, List.flatMap_singleton, Script.Suffix.text,
      Script.Suffix.text, Script.commaText, List.flatMap_nil, List.append_nil]
    rfl
  rw [Script.constItem, Script.constText, lookup, words.1, words.2.1, words.2.2.1, words.2.2.2]
  simp only [List.append_assoc, List.cons_append, List.nil_append]

theorem text_condition (name pad close : List Char) (items : List Item) :
    (Script.ifItem name pad close items).text =
      "if (".toList ++ (name ++ (") \x7b".toList ++ (lineText pad items ++ (close ++ ['\x7d'])))) := by
  have words : "if (".toList = "if".toList ++ ([' '] ++ ['(']) ∧ ") \x7b".toList = [')'] ++ ([' '] ++ ['\x7b']) := ⟨rfl, rfl⟩
  rw [Script.ifItem, Script.ifText, blockText, words.1, words.2]
  simp only [List.append_assoc, List.cons_append, List.nil_append]

/-- The statements for an element that has to be looked up. -/
theorem behind_lookedUp (callable : IsCallable motion) (position : Nat) (selector : String) :
    Layout.behind ((lookedUp position selector motion).map (Layout.indent 1 ++ ·)) = lineText (gapAt 1)
      [Script.constItem (variableName position) (lookupItem Calls.rootTarget.toList selector.toList),
        Script.ifItem (variableName position) (gapAt 2) (gapAt 1) (motionItems motion (variableName position) 2)] := by
  have deeper : ((statements motion ("el" ++ toString position)).map (Layout.unit ++ ·)).map (Layout.indent 1 ++ ·) =
      (statements motion ("el" ++ toString position)).map (Layout.indent 2 ++ ·) := by
    rw [List.map_map]
    refine List.map_congr_left fun line _ => ?_
    show Layout.indent 1 ++ (Layout.unit ++ line) = _
    rw [← String.append_assoc, Layout.indent_succ]
  have quoted : (String.ofList (Text.quote selector.toList)).toList = Text.quote selector.toList := String.toList_ofList
  have inner := behind_statements callable ("el" ++ toString position) 2
  have variable_ := toList_variable position
  unfold lookedUp
  generalize "el" ++ toString position = target at *
  rw [List.map_append, List.map_append, deeper, Layout.behind_append, Layout.behind_append, inner, List.map_cons,
    List.map_singleton, List.map_singleton, Layout.behind_indented, Layout.behind_indented, Layout.behind_indented,
    lineText_cons, lineText_cons, text_lookup, text_condition, variable_]
  simp only [String.toList_append, quoted, variable_, List.append_assoc, Layout.behind_nil, lineText, List.flatMap_nil,
    List.append_nil]
  rfl

/-- The lines for an element in a function are its statements. -/
theorem behind_elementStatements (callable : IsCallable motion) (position : Nat) :
    ∃ lines, elementStatements position motion = .ok lines ∧
      Layout.behind (lines.map (Layout.indent 1 ++ ·)) = lineText (gapAt 1) (elementItems position motion) := by
  have selector : ((motion.attributes.get? "selector").getD .null).isTruthy = false := by
    rw [callable.attributes]
    rfl
  unfold elementStatements elementItems targetName
  dsimp only
  rw [selector, Bool.not_false, if_pos rfl, Value.whenWritable_of_forall (isWritable_values callable)]
  split
  · exact ⟨_, rfl, behind_statements callable Calls.rootTarget 1⟩
  · exact ⟨_, rfl, behind_lookedUp callable position motion.tag⟩

/-! ### The statements are derived -/

variable {target : List Char} {options? : Option Value}

theorem derives_argumentItems (isIdentifier : IsIdentifier target) (literal : (Value.object fields).IsLiteral)
    (areLiteral : AreLiteral options?) :
    ∀ item ∈ argumentItems target (.object fields) options?, Derives .expression item := by
  refine List.forall_mem_cons.mpr ⟨.token (.name isIdentifier), List.forall_mem_cons.mpr
    ⟨Script.denotes_print _ literal, fun item member => ?_⟩⟩
  obtain ⟨options, known, rfl⟩ := Option.mem_map.mp (Option.mem_toList.mp member)
  exact Script.denotes_print _ (areLiteral options known)

theorem isSubject_animate : IsSubject "animate".toList := ⟨⟨⟨Script.isWord_of_check rfl, by decide⟩, by decide⟩, by decide⟩

theorem isSubject_inView : IsSubject "inView".toList :=
  ⟨⟨⟨Script.isWord_of_check rfl, by decide⟩, by decide⟩, by decide⟩

theorem derives_animate (isIdentifier : IsIdentifier target) (literal : (Value.object fields).IsLiteral)
    (areLiteral : AreLiteral options?) : Derives .statement (animateItem target (.object fields) options?) := by
  refine .chain isSubject_animate (List.cons_ne_nil _ _) (fun word member => ?_) fun items member => ?_
  · cases List.mem_singleton.mp member
  · cases List.mem_singleton.mp member
    exact derives_argumentItems isIdentifier literal areLiteral

theorem derives_completed (isIdentifier : IsIdentifier target) (literal : (Value.object fields).IsLiteral)
    (areLiteral : AreLiteral options?) : Derives .statement (completedItem target (.object fields) options?) := by
  refine .chain isSubject_animate (List.cons_ne_nil _ _) (fun word member => ?_) fun items member => ?_
  · simp only [List.mem_cons, reduceCtorEq, Script.Suffix.property.injEq, List.not_mem_nil, or_false, false_or] at member
    exact member ▸ Script.isWord_of_check rfl
  · simp only [List.mem_cons, reduceCtorEq, Script.Suffix.arguments.injEq, List.not_mem_nil, or_false, false_or] at member
    rcases member with rfl | rfl
    · exact derives_argumentItems isIdentifier literal areLiteral
    · exact List.forall_mem_nil _

theorem blank_gapAt (depth : Nat) : Script.Blank (gapAt depth) := Script.blank_of_all (by
  rw [gapAt, List.all_cons, List.all_replicate]
  split <;> rfl)

/-- A statement in a function that is handed on. -/
theorem derives_handler {first inner : Item} (derives : Derives .expression first) (statement : Derives .statement inner)
    (outside inside : Nat) :
    ∀ item ∈ [first, callbackItem (gapAt inside) (gapAt outside) [inner]], Derives .expression item :=
  List.forall_mem_cons.mpr ⟨derives, List.forall_mem_singleton.mpr
    (.callback (blank_gapAt _) (blank_gapAt _) (List.forall_mem_singleton.mpr statement))⟩

theorem derives_listener {inner : Item} (isSubject : IsSubject target) {event : String} (isText : Value.IsText event)
    (statement : Derives .statement inner) (outside inside : Nat) :
    Derives .statement (listenerItem target event (gapAt inside) (gapAt outside) [inner]) := by
  refine .chain isSubject (List.cons_ne_nil _ _) (fun word member => ?_) fun items member => ?_
  · simp only [List.mem_cons, reduceCtorEq, Script.Suffix.property.injEq, List.not_mem_nil, or_false] at member
    exact member ▸ Script.isWord_of_check rfl
  · simp only [List.mem_cons, reduceCtorEq, Script.Suffix.arguments.injEq, List.not_mem_nil, or_false, false_or] at member
    exact member ▸ derives_handler (.token (.string isText)) statement outside inside

theorem derives_observer {inner : Item} (isIdentifier : IsIdentifier target) (statement : Derives .statement inner)
    (outside inside : Nat) : Derives .statement (observerItem target (gapAt inside) (gapAt outside) [inner]) := by
  refine .chain isSubject_inView (List.cons_ne_nil _ _) (fun word member => ?_) fun items member => ?_
  · cases List.mem_singleton.mp member
  · cases List.mem_singleton.mp member
    exact derives_handler (.token (.name isIdentifier)) statement outside inside

theorem literal_neutral : ∀ entry ∈ neutral, (Value.int entry.2).IsLiteral := by decide

/-- What a property returns to is read from the motion, or a number that is known beforehand. -/
theorem literal_restingValue? (callable : IsCallable motion) {property : String} {value : Value}
    (found : restingValue? motion property = some value) : value.IsLiteral := by
  have inside {phase : Phase} {value : Value}
      (found : ((motion.keyframes? phase).bind fun fields => fields.get? property) = some value) : value.IsLiteral := by
    obtain ⟨fields, known, found⟩ := Option.bind_eq_some_iff.mp found
    have literal := literal_keyframes callable known
    rw [Value.IsLiteral, Value.areEntries_iff] at literal
    exact (literal.2 _ (Fields.mem_of_get? found)).2
  unfold restingValue? at found
  dsimp only at found
  cases animated : (motion.keyframes? .animate).bind fun fields => fields.get? property with
  | some known =>
    rw [animated] at found
    exact Option.some.inj found ▸ inside animated
  | none =>
    rw [animated] at found
    cases initial : (motion.keyframes? .initial).bind fun fields => fields.get? property with
    | some known =>
      rw [initial] at found
      exact Option.some.inj found ▸ inside initial
    | none =>
      rw [initial] at found
      obtain ⟨number, known, rfl⟩ := Option.map_eq_some_iff.mp found
      exact literal_neutral _ (Fields.mem_of_get? known)

theorem literal_restValues (callable : IsCallable motion) (found : motion.keyframes? phase = some fields) :
    (Value.object (restValues motion phase.name)).IsLiteral := by
  have literal := literal_keyframes callable found
  rw [Value.IsLiteral, Value.areEntries_iff] at literal
  obtain ⟨named, entries⟩ := literal
  rw [restValues, get?_of_keyframes? found, Value.IsLiteral, Value.areEntries_iff]
  dsimp only
  constructor
  · refine named.sublist (Fields.keys_filterMap fields fun field changed made => ?_)
    obtain ⟨value, -, rfl⟩ := Option.map_eq_some_iff.mp made
    rfl
  · intro field member
    obtain ⟨before, known, made⟩ := List.mem_filterMap.mp member
    obtain ⟨value, resting, rfl⟩ := Option.map_eq_some_iff.mp made
    exact ⟨(entries before known).1, literal_restingValue? callable resting⟩

theorem derives_move (callable : IsCallable motion) (isIdentifier : IsIdentifier target)
    (literal : (Value.object fields).IsLiteral) : Derives .statement (moveItem motion target fields) :=
  derives_animate isIdentifier literal (areLiteral_options? callable)

/-- The events of a gesture are texts. -/
theorem isText_listened {events : String × String} (listened : listeners.lookup phase = some events) :
    Value.IsText events.1 ∧ Value.IsText events.2 := by
  have all : ∀ listener ∈ listeners, Value.IsText listener.2.1 ∧ Value.IsText listener.2.2 := by decide
  obtain ⟨before, after, same, -⟩ := List.lookup_eq_some_iff.mp listened
  exact all (phase, events) (by rw [same]; simp)

/-- The statements for a phase are derived. -/
theorem derives_phaseItems (callable : IsCallable motion) (isSubject : IsSubject target) (inner : Nat) {phase : Phase}
    {item : Item} (member : item ∈ phaseItems motion target inner phase) : Derives .statement item := by
  have isIdentifier := isSubject.toIsIdentifier
  unfold phaseItems at member
  cases found : motion.keyframes? phase with
  | none =>
    rw [found] at member
    cases member
  | some fields =>
    rw [found] at member
    dsimp only at member
    have literal := literal_keyframes callable found
    have listens {event : String} (isText : Value.IsText event) {properties : Fields Value}
        (literal : (Value.object properties).IsLiteral) :
        Derives .statement (listenItem motion target inner event properties) :=
      derives_listener isSubject isText (derives_move callable isIdentifier literal) _ _
    split at member
    · rename_i enter leave events
      obtain ⟨isText, isTextLeave⟩ := isText_listened events
      rcases List.mem_cons.mp member with rfl | rest
      · exact listens isText literal
      · obtain rfl := List.mem_singleton.mp rest
        exact listens isTextLeave (literal_restValues callable found)
    · split at member
      · obtain rfl := List.mem_singleton.mp member
        exact derives_observer isIdentifier (derives_move callable isIdentifier literal) _ _
      · split at member
        · obtain rfl := List.mem_singleton.mp member
          refine derives_completed isIdentifier literal ?_
          split
          · exact nofun
          · exact areLiteral_options? callable
        · obtain rfl := List.mem_singleton.mp member
          exact derives_move callable isIdentifier literal

theorem isSubject_rootTarget : IsSubject Calls.rootTarget.toList :=
  ⟨⟨⟨Script.isWord_of_check rfl, by decide⟩, by decide⟩, by decide⟩

/-- The name of a variable is no word of the language. -/
theorem isSubject_variableName (position : Nat) : IsSubject (variableName position) := by
  have digits : ∀ c ∈ Decimal.digitsOf position, c.isDigit = true := List.all_eq_true.mp (Decimal.isDigit_digitsOf position)
  obtain ⟨first, rest, text⟩ := List.exists_cons_of_ne_nil (Decimal.digitsOf_ne_nil position)
  have digit : first.isDigit = true := digits first (text ▸ List.mem_cons_self)
  have other {words : List String} (none_ : ∀ word ∈ words, (word.toList.take 2 == ['e', 'l'] &&
      (word.toList.drop 2).head?.any Char.isDigit) = false) : String.ofList (variableName position) ∉ words := by
    intro member
    have refused := none_ _ member
    rw [String.toList_ofList, variableName, text] at refused
    simp [digit] at refused
  refine ⟨⟨⟨⟨?_, ?_, List.cons_ne_nil _ _⟩, other (by decide)⟩, other (by decide)⟩, other (by decide)⟩
  · refine List.forall_mem_cons.mpr ⟨by decide, List.forall_mem_cons.mpr ⟨by decide, fun c member => ?_⟩⟩
    exact Script.isNameRest_of_isDigit (digits c member)
  · rintro c ⟨⟩
    decide

theorem isSubject_targetName (position : Nat) : IsSubject (targetName position) := by
  unfold targetName
  split
  · exact isSubject_rootTarget
  · exact isSubject_variableName position

theorem derives_motionItems (callable : IsCallable motion) (isSubject : IsSubject target) (inner : Nat) :
    ∀ item ∈ motionItems motion target inner, Derives .statement item := by
  intro item member
  obtain ⟨phase, -, member⟩ := List.mem_flatMap.mp member
  exact derives_phaseItems callable isSubject inner member

/-- The statements for an element are derived. -/
theorem derives_elementItems (callable : IsCallable motion) (position : Nat) :
    ∀ item ∈ elementItems position motion, Derives .statement item := by
  intro item member
  have isSubject := isSubject_targetName position
  unfold elementItems at member
  split at member
  · exact derives_motionItems callable isSubject 1 item member
  · rcases List.mem_cons.mp member with rfl | rest
    · refine .const isSubject (.chained isSubject_rootTarget.toIsIdentifier (List.cons_ne_nil _ _) (fun word member => ?_)
        fun items member => ?_)
      · simp only [List.mem_cons, reduceCtorEq, Script.Suffix.property.injEq, List.not_mem_nil, or_false] at member
        exact member ▸ Script.isWord_of_check rfl
      · simp only [List.mem_cons, reduceCtorEq, Script.Suffix.arguments.injEq, List.not_mem_nil, or_false, false_or] at member
        exact member ▸ List.forall_mem_singleton.mpr (.token (.string callable.tag))
    · obtain rfl := List.mem_singleton.mp rest
      exact .when isSubject.toIsIdentifier (blank_gapAt 2) (blank_gapAt 1) (derives_motionItems callable isSubject 2)

/-! ### What the statements say -/

/-- What the statements for a phase of an element say, each one thing. -/
def phaseSayings (motion : Motion) (target : List Char) (phase : Phase) : List Saying :=
  match motion.keyframes? phase with
  | none => []
  | some fields =>
    match listeners.lookup phase with
    | some _ => [spoken target phase.name fields (CallRender.options? motion),
      spoken target ("restore:" ++ phase.name) (restValues motion phase.name) (CallRender.options? motion)]
    | none => [spoken target phase.name fields
        (if phase = .initial ∧ isCarried motion = true then none else CallRender.options? motion)]

/-- What the statements for the phases of an element say. -/
def motionSayings (motion : Motion) (target : List Char) : List Saying := callPhases.flatMap (phaseSayings motion target)

/-- Statements say something one after another. -/
def Say (items : List Item) (sayings : List Saying) : Prop :=
  ∃ each, List.Forall₂ (ItemSays none) items each ∧ each.flatten = sayings

theorem Say.append {items more : List Item} {sayings others : List Saying} (first : Say items sayings)
    (second : Say more others) : Say (items ++ more) (sayings ++ others) := by
  obtain ⟨each, say, rfl⟩ := first
  obtain ⟨eachMore, sayMore, rfl⟩ := second
  exact ⟨each ++ eachMore, List.rel_append say sayMore, List.flatten_append⟩

theorem Say.single {item : Item} {sayings : List Saying} (said : ItemSays none item sayings) : Say [item] sayings :=
  ⟨[sayings], .cons said .nil, List.flatten_singleton⟩

theorem says_move (motion : Motion) (target : List Char) (fields : Fields Value) {around : Option String}
    (known : around ≠ some "other") : ItemSays around (moveItem motion target fields)
      [spoken target (around.getD "animate") fields (CallRender.options? motion)] :=
  Calls.says_animate target fields _ known

theorem says_listen (motion : Motion) (target : List Char) (depth : Nat) {event phase : String} (fields : Fields Value)
    (listened : Calls.listenerPhases.lookup event = some phase) (known : phase ≠ "other") :
    Say [listenItem motion target depth event fields] [spoken target phase fields (CallRender.options? motion)] :=
  .single (Calls.says_listener event listened (.cons (says_move motion target fields (by simpa using known)) .nil) target _ _)

theorem say_phaseItems (motion : Motion) (target : List Char) (depth : Nat) {phase : Phase} (member : phase ∈ callPhases) :
    Say (phaseItems motion target depth phase) (phaseSayings motion target phase) := by
  unfold phaseItems phaseSayings
  cases found : motion.keyframes? phase with
  | none => exact ⟨[], .nil, rfl⟩
  | some fields =>
    simp only [callPhases, List.mem_cons, List.not_mem_nil, or_false] at member
    rcases member with rfl | rfl | rfl | rfl | rfl
    · refine .single ?_
      have carried : (if Phase.initial = .initial ∧ isCarried motion = true then none else CallRender.options? motion) =
          if isCarried motion then none else CallRender.options? motion := by simp
      dsimp only
      rw [carried]
      exact Calls.says_completed target fields _
    · exact .single (says_move motion target fields nofun)
    · exact (says_listen motion target depth fields rfl (by decide)).append (says_listen motion target depth _ rfl (by decide))
    · exact (says_listen motion target depth fields rfl (by decide)).append (says_listen motion target depth _ rfl (by decide))
    · exact .single (Calls.says_observer (.cons (says_move motion target fields (by decide)) .nil) target _ _)

theorem Say.flatMap {phases : List Phase} {items : Phase → List Item} {sayings : Phase → List Saying}
    (each : ∀ phase ∈ phases, Say (items phase) (sayings phase)) : Say (phases.flatMap items) (phases.flatMap sayings) := by
  induction phases with
  | nil => exact ⟨[], .nil, rfl⟩
  | cons phase rest ih =>
    rw [List.flatMap_cons, List.flatMap_cons]
    exact (each phase List.mem_cons_self).append (ih fun other member => each other (List.mem_cons_of_mem _ member))

theorem say_motionItems (motion : Motion) (target : List Char) (depth : Nat) :
    Say (motionItems motion target depth) (motionSayings motion target) :=
  .flatMap fun _ member => say_phaseItems motion target depth member

/-- The statements for an element say what its phases do, of its target. -/
theorem say_elementItems (position : Nat) (motion : Motion) :
    Say (elementItems position motion) (motionSayings motion (targetName position)) := by
  unfold elementItems
  split
  · exact say_motionItems motion _ 1
  · obtain ⟨each, say, same⟩ := say_motionItems motion (targetName position) 2
    refine ⟨[[], each.flatten], .cons (Calls.says_lookup _ _ _) (.cons (Calls.says_if say _ _ _) .nil), ?_⟩
    rw [List.flatten_cons, List.flatten_singleton, List.nil_append, same]

end CallRender

end AnimationCode
