/-
**What the calls of a script say.**

A call of the animation function names its target and what to animate to. Which phase it sets is said by what
stands around it: a listener, an observer, or a call that finishes it at once.

* `Told`: what the nodes of a source say, in order;
* `recognize_animate`: one call of the animation function;
* `Tells`: a text says the same wherever it stands;
* `tells_along`: statements one after another.
-/

import AnimationCode.Element.OfCalls
import AnimationCode.Proofs.Outcome
import AnimationCode.Proofs.Script.Exported
import AnimationCode.Proofs.Script.Import
import AnimationCode.Proofs.Script.Printed

namespace AnimationCode

namespace Calls

open Script (Along Holds Item Kind Node Part Role Suffix callNode evaluate memberNode partsText)
open Script.Reader (leaf)

/-! ### What nodes say -/

/-- What a call says: its target, the phase that it sets, and what it animates to with which options. -/
structure Saying where
  target : String
  phase : String
  keyframes : Fields Value
  options : Value

/-- What a recognized call says. -/
def Recognized.saying (call : Recognized) : Saying := ⟨call.target, call.phase, call.keyframes, call.options⟩

/-- The call that was recognized, if it animates. -/
def Recognition.call? : Recognition → Option Recognized
  | .call found => some found
  | _ => Option.none

/-- A variable that is looked up has a selector that can be read. -/
def IsLookedUp (source : List Char) (node : Node) : Prop :=
  node.kind = .declarator → ∀ selector ∈ (node.child? .value).bind (selector? source), ∃ text, selector = .ok text

/-- What the nodes of a source say, in order, given the nodes around them. -/
structure Told (source : List Char) (ancestors nodes : List Node) (sayings : List Saying) : Prop where
  calls : ∀ known, ∃ recognitions, recognizeAll source known (Node.walkAllUnder ancestors nodes) = .ok recognitions ∧
    (recognitions.filterMap Recognition.call?).map Recognized.saying = sayings
  variables_ : ∀ node ∈ Node.walkAll nodes, IsLookedUp source node

variable {source : List Char} {ancestors nodes others : List Node} {sayings more : List Saying} {node : Node}

theorem recognizeAll_append {known : Fields String} {first second : List (Node × List Node)}
    {found foundMore : List Recognition} (here : recognizeAll source known first = .ok found)
    (there : recognizeAll source known second = .ok foundMore) :
    recognizeAll source known (first ++ second) = .ok (found ++ foundMore) := by
  induction first generalizing found with
  | nil =>
    obtain rfl : [] = found := Except.ok.inj here
    exact there
  | cons place rest ih =>
    obtain ⟨node, ancestors⟩ := place
    rw [recognizeAll] at here
    rw [List.cons_append, recognizeAll]
    obtain ⟨recognition, one, remaining⟩ := Outcome.bind_eq_ok.mp here
    obtain ⟨recognitions, others, same⟩ := Outcome.bind_eq_ok.mp remaining
    obtain rfl : recognition :: recognitions = found := Except.ok.inj same
    rw [one, ih others]
    rfl

theorem walkAllUnder_append (ancestors nodes others : List Node) :
    Node.walkAllUnder ancestors (nodes ++ others) =
      Node.walkAllUnder ancestors nodes ++ Node.walkAllUnder ancestors others := by
  induction nodes with
  | nil => rfl
  | cons node rest ih => rw [List.cons_append, Node.walkAllUnder, Node.walkAllUnder, ih, List.append_assoc]

theorem told_nil (source : List Char) (ancestors : List Node) : Told source ancestors [] [] :=
  ⟨fun _ => ⟨[], rfl, rfl⟩, List.forall_mem_nil _⟩

theorem Told.append (told : Told source ancestors nodes sayings) (toldMore : Told source ancestors others more) :
    Told source ancestors (nodes ++ others) (sayings ++ more) where
  calls known := by
    obtain ⟨found, here, same⟩ := told.calls known
    obtain ⟨foundMore, there, sameMore⟩ := toldMore.calls known
    refine ⟨found ++ foundMore, ?_, ?_⟩
    · rw [walkAllUnder_append]
      exact recognizeAll_append here there
    · rw [List.filterMap_append, List.map_append, same, sameMore]
  variables_ := by
    rw [Node.walkAll_eq_flatMap, List.flatMap_append, ← Node.walkAll_eq_flatMap, ← Node.walkAll_eq_flatMap]
    exact List.forall_mem_append.mpr ⟨told.variables_, toldMore.variables_⟩

variable {kind : Kind} {role : Role} {span : Span}

/-- A node with what its children say, after what it says itself. -/
theorem Told.under_of_recognize (told : Told source (.mk kind role span nodes :: ancestors) nodes sayings)
    (recognized : ∀ known, ∃ recognition,
      recognize source known (.mk kind role span nodes) ancestors = .ok recognition ∧
        recognition.call?.toList.map Recognized.saying = more)
    (looked : IsLookedUp source (.mk kind role span nodes)) :
    Told source ancestors [.mk kind role span nodes] (more ++ sayings) where
  calls known := by
    obtain ⟨recognition, one, same⟩ := recognized known
    obtain ⟨found, here, sameInside⟩ := told.calls known
    refine ⟨recognition :: found, ?_, ?_⟩
    · rw [Node.walkAllUnder, Node.walkUnder, Node.walkAllUnder, List.append_nil, recognizeAll, one]
      exact congrArg (fun result => Except.bind result fun rest => Except.ok (recognition :: rest)) here
    · rw [← same, ← sameInside, List.filterMap_cons]
      cases recognition.call? <;> rfl
  variables_ := by
    rw [Node.walkAll, Node.walk, Node.walkAll, List.append_nil]
    exact List.forall_mem_cons.mpr ⟨looked, told.variables_⟩

/-- A node that is not recognized says what its children do. -/
theorem Told.under_of_silent (told : Told source (.mk kind role span nodes :: ancestors) nodes sayings)
    (silent : ∀ known, recognize source known (.mk kind role span nodes) ancestors = .ok .none)
    (looked : IsLookedUp source (.mk kind role span nodes)) : Told source ancestors [.mk kind role span nodes] sayings := by
  have recognized : ∀ known, ∃ recognition, recognize source known (.mk kind role span nodes) ancestors = .ok recognition ∧
      recognition.call?.toList.map Recognized.saying = [] := fun known => ⟨.none, silent known, rfl⟩
  exact told.under_of_recognize recognized looked

theorem recognize_of_other (other : kind ≠ .call) (source : List Char) (known : Fields String) (ancestors : List Node) :
    recognize source known (.mk kind role span nodes) ancestors = .ok .none := by
  have differs : (kind == Kind.call) = false := by simpa using other
  rw [recognize]
  simp only [Node.kind, differs, Bool.false_and]
  rfl

theorem recognize_of_callee (other : callee source node ≠ "animate".toList) (known : Fields String)
    (ancestors : List Node) : recognize source known node ancestors = .ok .none := by
  have differs : (callee source node == "animate".toList) = false := by simpa using other
  rw [recognize, differs, Bool.and_false]
  rfl

/-- A node that is neither a call nor a variable says what its children do. -/
theorem Told.under (told : Told source (.mk kind role span nodes :: ancestors) nodes sayings)
    (other : kind ≠ .call ∧ kind ≠ .declarator) : Told source ancestors [.mk kind role span nodes] sayings :=
  told.under_of_silent (fun known => recognize_of_other other.1 source known ancestors)
    fun variable_ => absurd variable_ other.2

/-- A call of another function says what its children do. -/
theorem Told.under_call (told : Told source (.mk .call role span nodes :: ancestors) nodes sayings)
    (other : callee source (.mk .call role span nodes) ≠ "animate".toList) :
    Told source ancestors [.mk .call role span nodes] sayings :=
  told.under_of_silent (fun known => recognize_of_callee other known ancestors) nofun

mutual

/-- Nothing is said without calls. -/
theorem told_inert (source : List Char) (ancestors : List Node) :
    (node : Node) → node.IsInert → Told source ancestors [node] []
  | .mk kind role span nodes, inert => by
    have inside : ∀ child ∈ nodes, child.IsInert := fun child member => inert.child member
    have unmarked := inert.kind
    refine (told_inerts source _ nodes inside).under ⟨?_, ?_⟩
    all_goals
      rintro rfl
      exact unmarked (by simp [Node.marked, Node.kind])

theorem told_inerts (source : List Char) (ancestors : List Node) :
    (nodes : List Node) → (∀ node ∈ nodes, node.IsInert) → Told source ancestors nodes []
  | [], _ => told_nil source ancestors
  | node :: rest, inert =>
    (told_inert source ancestors node (inert node List.mem_cons_self)).append
      (told_inerts source ancestors rest fun other member => inert other (List.mem_cons_of_mem _ member))

end

/-- Nodes say the same after a node without calls. -/
theorem Told.after_inert (told : Told source ancestors nodes sayings) (inert : node.IsInert) :
    Told source ancestors (node :: nodes) sayings :=
  (told_inert source ancestors node inert).append told

/-! ### What stands around a call -/

theorem enclosingPhase_of_other (other : kind ≠ .call) (source : List Char) (outer : List Node) :
    enclosingPhase source (.mk kind role span nodes :: outer) = enclosingPhase source outer := by
  have differs : (kind == Kind.call) = false := by simpa using other
  rw [enclosingPhase]
  simp only [Node.kind, differs, Bool.false_eq_true, if_false]

/-- A listener sets the phase of its event. -/
theorem enclosingPhase_listener {outer : List Node} {event : String} (call : node.kind = .call)
    (listens : Text.endsWith ".addEventListener".toList (callee source node) = true)
    (first : firstString? source node = some (.ok event)) :
    enclosingPhase source (node :: outer) = .ok (some ((listenerPhases.lookup event).getD "other")) := by
  rw [enclosingPhase]
  simp only [call, listens, first, beq_self_eq_true, if_true]
  rfl

/-- An observer sets the state in view. -/
theorem enclosingPhase_observer {outer : List Node} (call : node.kind = .call)
    (observes : callee source node = "inView".toList) :
    enclosingPhase source (node :: outer) = .ok (some "inView") := by
  have noListener : Text.endsWith ".addEventListener".toList "inView".toList = false := rfl
  rw [enclosingPhase]
  simp only [call, observes, noListener, beq_self_eq_true, if_true, Bool.false_eq_true, if_false]

/-- Another call sets no phase. -/
theorem enclosingPhase_of_callee {outer : List Node}
    (listens : Text.endsWith ".addEventListener".toList (callee source node) = false)
    (observes : callee source node ≠ "inView".toList) :
    enclosingPhase source (node :: outer) = enclosingPhase source outer := by
  rw [enclosingPhase]
  simp only [listens, Bool.false_eq_true, if_false, observes, ite_self]

/-- No property of a call is taken where it is a statement of its own. -/
theorem completion?_of_other (other : kind ≠ .member) (source : List Char) (call : Node) (outer : List Node) :
    completion? source call (.mk kind role span nodes :: outer) = none := by
  have differs : (kind == Kind.member) = false := by simpa using other
  cases outer with
  | nil => rfl
  | cons node rest =>
    rw [completion?]
    simp only [Node.kind, differs, Bool.false_and, Bool.false_eq_true, if_false]

/-- A call of the animation function. -/
theorem recognize_animate {known : Fields String} {target frames : Node} {rest : List Node} {keyframes : Fields Value}
    {options : Value} {around : Option String} (call : node.kind = .call)
    (animates : callee source node = "animate".toList) (arguments_ : arguments node = target :: frames :: rest)
    (name : target.kind ≠ .call) (frames_ : evaluate source frames = .ok (.object keyframes))
    (options_ : (match rest with
      | options :: _ => evaluate source options
      | [] => .ok .null) = .ok options)
    (enclosing : enclosingPhase source ancestors = .ok around) (known_ : around ≠ some "other") :
    ∃ recognition, recognize source known node ancestors = .ok recognition ∧
      recognition.call?.toList.map Recognized.saying =
        [⟨String.ofList (target.text source), around.getD
          (if (completion? source node ancestors).isSome then "initial" else "animate"), keyframes, options⟩] := by
  have noSelector : recognize.looked source target = .ok none := by
    have differs : (target.kind == Kind.call) = false := by simpa using name
    rw [recognize.looked, selector?, differs, Bool.false_and]
    rfl
  -- which selector is known of the target does not matter for what the call says
  rcases found : known.get? (String.ofList (target.text source)) with _ | selector
  · cases rest <;> simp only at options_ <;> unfold recognize <;>
      simp only [call, animates, beq_self_eq_true, Bool.and_self, if_true, arguments_, frames_, enclosing, noSelector, found,
        options_, bind, Except.bind, pure, Except.pure] <;>
      exact ⟨_, rfl, rfl⟩
  · by_cases empty : selector = "" <;> cases rest <;> simp only at options_ <;> unfold recognize <;>
      simp only [call, animates, beq_self_eq_true, Bool.and_self, if_true, arguments_, frames_, enclosing, noSelector, found,
        options_, empty, if_false, bind, Except.bind, pure, Except.pure] <;>
      exact ⟨_, rfl, rfl⟩

/-! ### What texts say -/

/-- Nodes say the same wherever their text is, given the phase that is set around them. -/
def Tells (around : Option String) (sayings : List Saying) (text : List Char) (n : Nat) (nodes : List Node) : Prop :=
  ∀ source, Holds source n text → ∀ ancestors, enclosingPhase source ancestors = .ok around →
    Told source ancestors nodes sayings

/-- The node of a part says the same wherever its text is. -/
def Says (around : Option String) (part : Part) (sayings : List Saying) : Prop :=
  ∀ n node, part.Fits n node → Tells around sayings part.text n [node]

variable {around : Option String} {text whole : List Char} {n m : Nat}

theorem Tells.under (tells : Tells around sayings text m nodes) (other : kind ≠ .call ∧ kind ≠ .declarator)
    (inside : ∀ source, Holds source n whole → Holds source m text) (role : Role) (span : Span) :
    Tells around sayings whole n [.mk kind role span nodes] := fun source holds ancestors enclosing =>
  (tells source (inside source holds) _ ((enclosingPhase_of_other other.1 source ancestors).trans enclosing)).under other

theorem tells_inert (inert : ∀ node ∈ nodes, node.IsInert) : Tells around [] text n nodes :=
  fun source _ ancestors _ => told_inerts source ancestors nodes inert

/-- What parts say one after another. -/
theorem tells_along {parts : List Part} {each : List (List Saying)} (say : List.Forall₂ (Says around) parts each)
    (along : Along parts n nodes) : Tells around each.flatten (partsText parts) n nodes := by
  induction say generalizing n nodes with
  | nil =>
    obtain rfl : nodes = [] := along
    exact tells_inert (List.forall_mem_nil _)
  | cons first rest ih =>
    obtain ⟨node, others, rfl, fits, along⟩ := along
    intro source holds ancestors enclosing
    have whole : Holds source n (Part.whole _) := holds.left
    exact (first _ node fits source whole.right ancestors enclosing).append (ih along source holds.right ancestors enclosing)

/-! ### Calls and their arguments -/

/-- The arguments of a call of the animation function. -/
def argumentItems (target : List Char) (keyframes : Value) (options? : Option Value) : List Item :=
  Script.nameItem target :: Script.valueItem keyframes :: (options?.map Script.valueItem).toList

/-- What is said with options, or without. -/
def saidOptions (options? : Option Value) : Value := (options?.map Value.normal).getD .null

/-- The nodes of the arguments of a call of the animation function: its target, what to animate to, and options. -/
structure AreArguments (source target : List Char) (keyframes : Value) (options? : Option Value)
    (name frames : Node) (rest : List Node) : Prop where
  named : name.text source = target ∧ name.kind ≠ .call
  evaluates : evaluate source frames = .ok keyframes.normal
  options : (match rest with
    | options :: _ => evaluate source options
    | [] => .ok .null) = .ok (saidOptions options?)
  kept : ∀ node ∈ name :: frames :: rest, node.IsInert ∧ node.kind.isNamed = true ∧ node.kind ≠ .comment

theorem exists_arguments {target : List Char} {keyframes : Value} {options? : Option Value} {nodes : Nat → List Node}
    (lays : Script.Lays (argumentItems target keyframes options?) nodes)
    (holds : Holds source n (Script.commaText (argumentItems target keyframes options?))) :
    ∃ name frames rest, nodes n = name :: frames :: rest ∧
      AreArguments source target keyframes options? name frames rest := by
  obtain ⟨_, _, ⟨_, k, rfl, rfl, first⟩, fits, same⟩ := List.forall₂_cons_left_iff.mp (lays.fits source n)
  obtain ⟨_, _, ⟨frames, m, stands, rfl, second⟩, others, rfl⟩ := List.forall₂_cons_left_iff.mp fits
  rw [same]
  have named : (leaf .identifier k target.length).text source = target := (first holds).text_eq _ rfl
  have inert : (leaf .identifier k target.length).IsInert := Node.isInert_leaf _ _ (by decide)
  have evaluates : evaluate source (frames m) = .ok keyframes.normal := stands.evaluates m source (second holds)
  cases options? with
  | none =>
    obtain rfl := List.forall₂_nil_left_iff.mp others
    exact ⟨_, _, [], rfl, ⟨named, nofun⟩, evaluates, rfl, List.forall_mem_cons.mpr
      ⟨⟨inert, rfl, nofun⟩, List.forall_mem_singleton.mpr ⟨stands.inert m, stands.named m⟩⟩⟩
  | some options =>
    obtain ⟨_, _, ⟨tree, j, given, rfl, third⟩, rest, rfl⟩ := List.forall₂_cons_left_iff.mp others
    obtain rfl := List.forall₂_nil_left_iff.mp rest
    exact ⟨_, _, [tree j], rfl, ⟨named, nofun⟩, evaluates, given.evaluates j source (third holds), List.forall_mem_cons.mpr
      ⟨⟨inert, rfl, nofun⟩, List.forall_mem_cons.mpr ⟨⟨stands.inert m, stands.named m⟩,
        List.forall_mem_singleton.mpr ⟨given.inert j, given.named j⟩⟩⟩⟩

theorem callee_callNode (role : Role) (start bracket stop : Nat) (called : Node) (arguments_ : List Node) :
    callee source (callNode role start bracket stop called arguments_) = called.text source := by
  simp [callee, callNode, Node.child?, Node.children]

theorem arguments_callNode (role : Role) (start bracket stop : Nat) (called : Node) {arguments_ : List Node}
    (kept : ∀ node ∈ arguments_, node.kind.isNamed = true ∧ node.kind ≠ .comment) :
    arguments (callNode role start bracket stop called arguments_) = arguments_ := by
  have second : (callNode role start bracket stop called arguments_).child? .arguments =
      some (.mk .arguments .arguments ⟨bracket, stop⟩ arguments_) := by
    have differs : ((called.as .callee).role == Role.arguments) = false := by
      rw [Node.role_as]
      rfl
    rw [callNode, Node.child?, Node.children, List.find?_cons, differs]
    rfl
  rw [arguments, second]
  dsimp only
  rw [Node.named, Node.children, List.filter_filter]
  refine List.filter_eq_self.mpr fun node member => ?_
  simp [kept node member]

/-- What is said by a call of the animation function. -/
def spoken (target : List Char) (phase : String) (fields : Fields Value) (options? : Option Value) : Saying :=
  ⟨String.ofList target, phase, Fields.mapValues Value.normal fields, saidOptions options?⟩

/-- A call of the animation function says one thing. -/
theorem told_animate {target : List Char} {fields : Fields Value} {options? : Option Value} {name frames : Node}
    {rest : List Node} {role : Role} {start bracket stop : Nat} {called : Node}
    (are : AreArguments source target (.object fields) options? name frames rest) (inert : called.IsInert)
    (animates : called.text source = "animate".toList) (enclosing : enclosingPhase source ancestors = .ok around)
    (known_ : around ≠ some "other") {phase : String}
    (phase_ : around.getD (if (completion? source
      (callNode role start bracket stop called (name :: frames :: rest)) ancestors).isSome
        then "initial" else "animate") = phase) :
    Told source ancestors [callNode role start bracket stop called (name :: frames :: rest)]
      [spoken target phase fields options?] := by
  have inside : ∀ node ∈ [called.as .callee, .mk .arguments .arguments ⟨bracket, stop⟩ (name :: frames :: rest)],
      node.IsInert := by
    refine List.forall_mem_cons.mpr ⟨inert.as _, List.forall_mem_singleton.mpr (Node.isInert_mk (by decide) ?_)⟩
    exact fun child member => (are.kept child member).1
  have evaluates : evaluate source frames = .ok (.object (Fields.mapValues Value.normal fields)) := by
    rw [are.evaluates, Value.normal, Value.normalEntries_eq_map]
  have recognized (known : Fields String) := @recognize_animate _ _ _ known _ _ _ _ _ _ rfl
    ((callee_callNode role start bracket stop called _).trans animates)
    (arguments_callNode role start bracket stop called fun child member => (are.kept child member).2)
    are.named.2 evaluates are.options enclosing known_
  rw [phase_, are.named.1] at recognized
  exact (told_inerts source _ _ inside).under_of_recognize recognized fun same => Script.Kind.noConfusion same

/-- The text of a call of the animation function. -/
def animateText (target : List Char) (keyframes : Value) (options? : Option Value) : List Char :=
  "animate".toList ++ (Suffix.arguments (argumentItems target keyframes options?)).text

/-- The call of the animation function at an offset. -/
theorem told_animateText {target : List Char} {fields : Fields Value} {options? : Option Value} {nodes : Nat → List Node}
    (lays : Script.Lays (argumentItems target (.object fields) options?) nodes)
    (holds : Holds source n (animateText target (.object fields) options?)) (role : Role) (stop : Nat)
    (enclosing : enclosingPhase source ancestors = .ok around) (known_ : around ≠ some "other") {phase : String}
    (phase_ : ∀ call, call.span = ⟨n, stop⟩ →
      around.getD (if (completion? source call ancestors).isSome then "initial" else "animate") = phase) :
    Told source ancestors [callNode role n (n + 7) stop (leaf .identifier n 7) (nodes (n + 7 + 1))]
      [spoken target phase fields options?] := by
  have between : Holds source (n + 7) ('(' :: (Script.commaText (argumentItems target (.object fields) options?) ++ [')'])) :=
    holds.right
  have after : Holds source (n + 7 + 1) (Script.commaText (argumentItems target (.object fields) options?)) :=
    (@Holds.right source ['('] _ _ between).left
  obtain ⟨name, frames, rest, same, are⟩ := exists_arguments lays after
  rw [same]
  exact told_animate are (Node.isInert_leaf _ _ (by decide)) (holds.left.text_eq _ rfl) enclosing known_ (phase_ _ rfl)

/-! ### Statements -/

/-- What the statements of an item say. -/
def ItemSays (around : Option String) (item : Item) (sayings : List Saying) : Prop :=
  ∀ tree, item.Fits tree → ∀ n, Tells around sayings item.text n [tree n]

theorem says_item {item : Item} (said : ItemSays around item sayings) (space : List Char) :
    Says around (Part.ofItem space item) sayings := by
  rintro n node ⟨tree, fits, rfl⟩
  exact said tree fits n

/-- What statements on lines of their own say. -/
theorem tells_lines {items : List Item} {each : List (List Saying)} (say : List.Forall₂ (ItemSays around) items each)
    {pad : List Char} {nodes : Nat → List Node} (lays : Script.LaysLines pad items nodes) (n : Nat) :
    Tells around each.flatten (Script.lineText pad items) n (nodes n) := by
  have parts : List.Forall₂ (Says around) (items.map (Part.ofItem pad)) each :=
    List.forall₂_map_left_iff.mpr (say.imp fun item sayings said => says_item said pad)
  rw [← Script.partsText_lines]
  exact tells_along parts (lays.along n)

open Script (chainItem chainText)

/-- The statement that calls the animation function. -/
def animateItem (target : List Char) (keyframes : Value) (options? : Option Value) : Item :=
  chainItem "animate".toList [.arguments (argumentItems target keyframes options?)]

theorem says_animate (target : List Char) (fields : Fields Value) (options? : Option Value) (known_ : around ≠ some "other") :
    ItemSays around (animateItem target (.object fields) options?)
      [spoken target (around.getD "animate") fields options?] := by
  rintro tree ⟨build, ⟨_, _, ⟨nodes, lays, rfl⟩, rfl, rfl⟩, rfl⟩ n source holds ancestors enclosing
  change Holds source n (chainText _ (_ :: _)) at holds
  rw [Script.chainText_cons] at holds
  show Told source ancestors [.mk .expressionStatement .plain _ [callNode .plain n (n + 7) _ (leaf .identifier n 7)
    (nodes (n + 7 + 1))]] _
  refine Told.under (told_animateText lays holds.left .plain _ ?_ known_ fun call span => ?_) (by decide)
  · exact (enclosingPhase_of_other (by decide) source ancestors).trans enclosing
  · rw [completion?_of_other (by decide)]
    rfl

/-- What ends long enough is not the animation function. -/
theorem append_ne_animate (text : List Char) {ending : List Char} (long : 7 < ending.length) :
    text ++ ending ≠ "animate".toList := fun same => by
  have length : text.length + ending.length = 7 := List.length_append.symm.trans (congrArg List.length same)
  omega

/-- What finishes a call is none of the functions that count. -/
theorem completes_nothing (text : List Char) :
    Text.endsWith ".addEventListener".toList (text ++ ".complete".toList) = false ∧
      text ++ ".complete".toList ≠ "inView".toList ∧ text ++ ".complete".toList ≠ "animate".toList := by
  refine ⟨?_, fun same => ?_, append_ne_animate text (by decide)⟩
  · rw [Text.endsWith, List.reverse_append]
    rfl
  · have six : text.length + 9 = 6 := List.length_append.symm.trans (congrArg List.length same)
    omega

/-- A call that is finished at once by the call around it. -/
theorem completion?_member {call object outer : Node} {rest : List Node} {start place length : Nat} {role : Role}
    (same : object.span = call.span) (outer_ : outer.kind = .call) (nothing : takesNothing outer = true)
    (completes : (leaf .propertyName place length).text source = "complete".toList) :
    completion? source call ((memberNode start place length object).as role :: outer :: rest) = some outer := by
  have object_ : ((memberNode start place length object).as role).child? .object = some (object.as .object) := by
    have first : ((object.as .object).role == Role.object) = true := by
      rw [Node.role_as]
      rfl
    rw [Node.child?, Node.children_as, memberNode, Node.children, List.find?_cons, first]
  have property_ : ((memberNode start place length object).as role).child? .property =
      some ((leaf .propertyName place length).as .property) := by
    have first : ((object.as .object).role == Role.property) = false := by
      rw [Node.role_as]
      rfl
    rw [Node.child?, Node.children_as, memberNode, Node.children, List.find?_cons, first]
    rfl
  have member_ : ((memberNode start place length object).as role).kind = .member := rfl
  rw [completion?]
  simp only [object_, property_, member_, outer_, nothing, Option.any_some, Node.span_as, Node.text_as, same, completes,
    beq_self_eq_true, Bool.and_self, if_true]

/-- The node of a call that is finished at once, in a statement of its own. -/
theorem told_completed {target : List Char} {fields : Fields Value} {options? : Option Value} {nodes : Nat → List Node}
    (lays : Script.Lays (argumentItems target (.object fields) options?) nodes)
    (holds : Holds source n (animateText target (.object fields) options? ++ ".complete".toList))
    (enclosing : enclosingPhase source ancestors = .ok none) {stop : Nat}
    (stop_ : stop = n + (animateText target (.object fields) options?).length) (last : Nat) :
    Told source ancestors [callNode .plain n (stop + 9) last
      (memberNode n (stop + 1) 8 (callNode .plain n (n + 7) stop (leaf .identifier n 7) (nodes (n + 7 + 1)))) []]
      [spoken target "initial" fields options?] := by
  set call := callNode .plain n (n + 7) stop (leaf .identifier n 7) (nodes (n + 7 + 1)) with call_
  set called := memberNode n (stop + 1) 8 call with called_
  set outer := callNode .plain n (stop + 9) last called [] with outer_
  have text : called.text source = animateText target (.object fields) options? ++ ".complete".toList := by
    refine holds.text_eq _ ?_
    rw [List.length_append, ← Nat.add_assoc, ← stop_]
    rfl
  have property_ : (leaf .propertyName (stop + 1) 8).text source = "complete".toList := by
    have dotted : Holds source stop (['.'] ++ "complete".toList) := stop_ ▸ holds.right
    exact dotted.right.text_eq _ rfl
  obtain ⟨noListener, noObserver, other⟩ := completes_nothing (animateText target (.object fields) options?)
  have callee_ : callee source outer = animateText target (.object fields) options? ++ ".complete".toList :=
    (callee_callNode ..).trans text
  have around : enclosingPhase source (called.as .callee :: outer :: ancestors) = .ok none := by
    refine (enclosingPhase_of_other (by decide) source _).trans ?_
    rw [← callee_] at noListener noObserver
    exact (enclosingPhase_of_callee noListener noObserver).trans enclosing
  have said : Told source (called.as .callee :: outer :: ancestors) [call.as .object]
      [spoken target "initial" fields options?] := by
    refine told_animateText lays holds.left .object stop around (by decide) fun other span => ?_
    rw [completion?_member (span.symm ▸ rfl) rfl rfl property_]
    rfl
  have noProperty : Told source (called.as .callee :: outer :: ancestors) [(leaf .propertyName (stop + 1) 8).as .property] [] :=
    told_inert _ _ _ (Node.isInert_leaf _ _ (by decide) |>.as _)
  have noArguments : Told source (outer :: ancestors) [.mk .arguments .arguments ⟨stop + 9, last⟩ []] [] :=
    told_inert _ _ _ (Node.isInert_mk (by decide) (List.forall_mem_nil _))
  exact (((said.append noProperty).under (by decide)).append noArguments).under_call (callee_ ▸ other)

/-- The statement that calls the animation function and finishes the call at once. -/
def completedItem (target : List Char) (keyframes : Value) (options? : Option Value) : Item :=
  chainItem "animate".toList
    [.arguments (argumentItems target keyframes options?), .property "complete".toList, .arguments []]

theorem says_completed (target : List Char) (fields : Fields Value) (options? : Option Value) :
    ItemSays none (completedItem target (.object fields) options?) [spoken target "initial" fields options?] := by
  rintro tree ⟨build, ⟨_, _, ⟨nodes, lays, rfl⟩, ⟨_, _, rfl, ⟨_, _, ⟨none_, laysNone, rfl⟩, rfl, rfl⟩, rfl⟩, rfl⟩, rfl⟩
    n source holds ancestors enclosing
  change Holds source n (chainText _ (_ :: _)) at holds
  rw [Script.chainText_cons] at holds
  have text : "animate".toList ++ (Suffix.arguments (argumentItems target (.object fields) options?)).text ++
      (Script.suffixText [.property "complete".toList, .arguments []] ++ [';']) =
        animateText target (.object fields) options? ++ ".complete".toList ++ "();".toList := by
    rw [List.append_assoc (animateText _ _ _)]
    rfl
  rw [text] at holds
  have stop_ : n + 7 + (Suffix.arguments (argumentItems target (.object fields) options?)).text.length =
      n + (animateText target (.object fields) options?).length := by
    unfold animateText
    rw [List.length_append, ← Nat.add_assoc]
    rfl
  generalize (Suffix.arguments (argumentItems target (.object fields) options?)).text.length = k at stop_ ⊢
  show Told source ancestors [.mk .expressionStatement .plain _ [callNode .plain n (n + 7 + k + 9) _
    (memberNode n (n + 7 + k + 1) 8 (callNode .plain n (n + 7) (n + 7 + k) (leaf .identifier n 7) (nodes (n + 7 + 1))))
    (none_ (n + 7 + k + 9 + 1))]] _
  rw [laysNone]
  have statement (span : Span) (children : List Node) : enclosingPhase source
      (.mk .expressionStatement .plain span children :: ancestors) = .ok none :=
    (enclosingPhase_of_other (by decide) source ancestors).trans enclosing
  exact (told_completed lays holds.left (statement _ _) stop_ _).under (by decide)

open Script (callbackItem)

/-- A function says what its statements do. -/
theorem says_callback {items : List Item} {each : List (List Saying)}
    (say : List.Forall₂ (ItemSays around) items each) (pad close : List Char) :
    ItemSays around (callbackItem pad close items) each.flatten := by
  rintro tree ⟨nodes, lays, rfl⟩ n
  have lines := tells_lines say lays (n + 6 + 1)
  have block : Tells around each.flatten (Script.blockText pad close items) (n + 6)
      [.mk .block .body ⟨n + 6, n + 6 + (Script.blockText pad close items).length⟩ (nodes (n + 6 + 1))] :=
    lines.under (by decide) (fun source holds => (@Holds.right source ['\x7b'] _ _ holds).left) .body _
  exact block.under (by decide) (fun source holds => holds.right) .plain _

/-! ### Listeners and observers -/

/-- A call that hands a function on says what the function does, under the phase that it sets. -/
theorem told_handler {phase : String} {start bracket stop : Nat} {called first callback : Node}
    (inert : called.IsInert ∧ first.IsInert) (other : called.text source ≠ "animate".toList)
    (sets : enclosingPhase source (callNode .plain start bracket stop called [first, callback] :: ancestors) =
      .ok (some phase)) (tells : Tells (some phase) sayings text m [callback]) (holds : Holds source m text) :
    Told source ancestors [callNode .plain start bracket stop called [first, callback]] sayings := by
  have enclosing : enclosingPhase source (.mk .arguments .arguments ⟨bracket, stop⟩ [first, callback] ::
      callNode .plain start bracket stop called [first, callback] :: ancestors) = .ok (some phase) :=
    (enclosingPhase_of_other (by decide) source _).trans sets
  have handed : Told source (callNode .plain start bracket stop called [first, callback] :: ancestors)
      [.mk .arguments .arguments ⟨bracket, stop⟩ [first, callback]] ([] ++ sayings) :=
    ((tells source holds _ enclosing).after_inert inert.2).under (by decide)
  exact (handed.after_inert (inert.1.as .callee)).under_call ((callee_callNode ..).trans_ne other)

/-- A property of a name holds nothing that counts. -/
theorem isInert_property (start place length from_ count : Nat) :
    (memberNode start place length (leaf .identifier from_ count)).IsInert :=
  Node.isInert_mk (by decide) (List.forall_mem_cons.mpr ⟨(Node.isInert_leaf _ _ (by decide)).as _,
    List.forall_mem_singleton.mpr ((Node.isInert_leaf _ _ (by decide)).as _)⟩)

/-- The first argument, if it is a string. -/
theorem firstString?_callNode {role : Role} {start bracket stop : Nat} {called first : Node} {rest : List Node}
    {content : List Char} (quoted : first.text source = Text.quote content) (string_ : first.kind = .string)
    (kept : ∀ node ∈ rest, node.kind.isNamed = true ∧ node.kind ≠ .comment) :
    firstString? source (callNode role start bracket stop called (first :: rest)) = some (.ok (String.ofList content)) := by
  have firstKept : first.kind.isNamed = true ∧ first.kind ≠ .comment := string_ ▸ ⟨rfl, nofun⟩
  rw [firstString?, arguments_callNode _ _ _ _ _ (List.forall_mem_cons.mpr ⟨firstKept, kept⟩)]
  dsimp only
  rw [quoted, Script.unquoted_quote, string_]
  rfl

/-- The statement that listens to an event of an element. -/
def listenerItem (target : List Char) (event : String) (pad close : List Char) (items : List Item) : Item :=
  chainItem target
    [.property "addEventListener".toList, .arguments [Script.stringItem event.toList, callbackItem pad close items]]

theorem endsWith_append (text ending : List Char) : Text.endsWith ending (text ++ ending) = true := by
  rw [Text.endsWith, List.reverse_append]
  exact Script.Reader.startsWith_append _ _

theorem says_listener {items : List Item} {each : List (List Saying)} {phase : String} (event : String)
    (known_ : listenerPhases.lookup event = some phase) (say : List.Forall₂ (ItemSays (some phase)) items each)
    (target pad close : List Char) :
    ItemSays around (listenerItem target event pad close items) each.flatten := by
  rintro tree ⟨build, ⟨_, _, rfl, ⟨_, _, ⟨nodes, lays, rfl⟩, rfl, rfl⟩, rfl⟩, rfl⟩ n source holds ancestors enclosing
  change Holds source n (chainText _ (_ :: _)) at holds
  rw [Script.chainText_cons] at holds
  obtain ⟨_, _, ⟨_, k, rfl, rfl, first⟩, fits, same⟩ := List.forall₂_cons_left_iff.mp
    (lays.fits source (n + target.length + 17 + 1))
  obtain ⟨_, _, ⟨callback, m, callback_, rfl, second⟩, nothing, rfl⟩ := List.forall₂_cons_left_iff.mp fits
  obtain rfl := List.forall₂_nil_left_iff.mp nothing
  have text : target ++ (Suffix.property "addEventListener".toList).text = target ++ ".addEventListener".toList := rfl
  rw [text, Script.suffixText, List.flatMap_cons, List.flatMap_nil, List.append_nil, List.append_assoc] at holds
  have arguments_ : Holds source (n + target.length + 17 + 1)
      (Script.commaText [Script.stringItem event.toList, callbackItem pad close items]) :=
    (@Holds.right source ['('] _ _ holds.right.right.left).left
  have called : (memberNode n (n + target.length + 1) 16 (leaf .identifier n target.length)).text source =
      target ++ ".addEventListener".toList := by
    refine (Holds.left (List.append_assoc .. ▸ holds)).text_eq _ ?_
    rw [List.length_append, ← Nat.add_assoc]
    rfl
  show Told source ancestors [.mk .expressionStatement .plain _ [callNode .plain n (n + target.length + 17) _
    (memberNode n (n + target.length + 1) 16 (leaf .identifier n target.length)) (nodes (n + target.length + 17 + 1))]] _
  rw [same]
  refine Told.under (told_handler ⟨isInert_property _ _ _ _ _, Node.isInert_leaf _ _ (by decide)⟩
    (called ▸ append_ne_animate target (by decide)) ?_ (says_callback say pad close callback callback_ m)
    (second arguments_)) (by decide)
  · have quoted : (leaf .string k (Text.quote event.toList).length).text source = Text.quote event.toList :=
      (first arguments_).text_eq _ rfl
    have kept : ∀ node ∈ [callback m], node.kind.isNamed = true ∧ node.kind ≠ .comment := by
      obtain ⟨_, _, rfl⟩ := callback_
      exact List.forall_mem_singleton.mpr (show Kind.arrowFunction.isNamed = true ∧ Kind.arrowFunction ≠ .comment by decide)
    refine (enclosingPhase_listener rfl ?_ (firstString?_callNode quoted rfl kept)).trans ?_
    · rw [callee_callNode, called]
      exact endsWith_append target _
    · rw [String.ofList_toList, known_]
      rfl

/-- The statement that observes whether an element is in view. -/
def observerItem (target pad close : List Char) (items : List Item) : Item :=
  chainItem "inView".toList [.arguments [Script.nameItem target, callbackItem pad close items]]

theorem says_observer {items : List Item} {each : List (List Saying)}
    (say : List.Forall₂ (ItemSays (some "inView")) items each) (target pad close : List Char) :
    ItemSays around (observerItem target pad close items) each.flatten := by
  rintro tree ⟨build, ⟨_, _, ⟨nodes, lays, rfl⟩, rfl, rfl⟩, rfl⟩ n source holds ancestors enclosing
  change Holds source n (chainText _ (_ :: _)) at holds
  rw [Script.chainText_cons] at holds
  obtain ⟨_, _, ⟨_, k, rfl, rfl, first⟩, fits, same⟩ := List.forall₂_cons_left_iff.mp (lays.fits source (n + 6 + 1))
  obtain ⟨_, _, ⟨callback, m, callback_, rfl, second⟩, nothing, rfl⟩ := List.forall₂_cons_left_iff.mp fits
  obtain rfl := List.forall₂_nil_left_iff.mp nothing
  have arguments_ : Holds source (n + 6 + 1) (Script.commaText [Script.nameItem target, callbackItem pad close items]) :=
    (@Holds.right source ['('] _ _ holds.left.right).left
  have called : (leaf .identifier n 6).text source = "inView".toList := holds.left.left.text_eq _ rfl
  show Told source ancestors [.mk .expressionStatement .plain _ [callNode .plain n (n + 6) _ (leaf .identifier n 6)
    (nodes (n + 6 + 1))]] _
  rw [same]
  refine Told.under (told_handler ⟨Node.isInert_leaf _ _ (by decide), Node.isInert_leaf _ _ (by decide)⟩
    (called ▸ by decide) ?_ (says_callback say pad close callback callback_ m) (second arguments_)) (by decide)
  exact enclosingPhase_observer rfl ((callee_callNode ..).trans called)

/-! ### Elements that are looked up -/

/-- The lookup of an element. -/
def lookupItem (root selector : List Char) : Item :=
  Script.chainedItem root [.property "querySelector".toList, .arguments [Script.stringItem selector]]

/-- A call of another function that is handed nothing of account says nothing. -/
theorem told_question {role : Role} {start bracket stop : Nat} {called first : Node} (inert : called.IsInert)
    (inertFirst : first.IsInert) (other : called.text source ≠ "animate".toList) :
    Told source ancestors [callNode role start bracket stop called [first]] [] := by
  have inside : ∀ node ∈ [called.as .callee, .mk .arguments .arguments ⟨bracket, stop⟩ [first]], node.IsInert :=
    List.forall_mem_cons.mpr ⟨inert.as _, List.forall_mem_singleton.mpr
      (Node.isInert_mk (by decide) (List.forall_mem_singleton.mpr inertFirst))⟩
  exact (told_inerts _ _ _ inside).under_call ((callee_callNode ..).trans_ne other)

/-- A variable that holds what a call with a text as its argument finds. -/
theorem told_variable {start bracket stop : Nat} {name called first : Node} {content : List Char}
    (quoted : first.text source = Text.quote content) (string_ : first.kind = .string) (inert : called.IsInert)
    (inertFirst : first.IsInert) (inertName : name.IsInert) (other : called.text source ≠ "animate".toList) (span : Span) :
    Told source ancestors [.mk .declarator .plain span
      [name.as .name, callNode .value start bracket stop called [first]]] [] := by
  refine ((told_question inert inertFirst other).after_inert (inertName.as .name)).under_of_silent
    (fun known => recognize_of_other (by decide) source known ancestors) fun _ selector member => ?_
  have value : (Node.mk .declarator .plain span [name.as .name, callNode .value start bracket stop called [first]]).child?
      .value = some (callNode .value start bracket stop called [first]) := by
    have differs : ((name.as .name).role == Role.value) = false := by
      rw [Node.role_as]
      rfl
    rw [Node.child?, Node.children, List.find?_cons, differs]
    rfl
  rw [value, Option.bind_some, selector?] at member
  split at member
  · rw [firstString?_callNode quoted string_ (List.forall_mem_nil _)] at member
    exact ⟨_, (Option.some.inj member).symm⟩
  · cases member

theorem says_lookup (name root selector : List Char) :
    ItemSays around (Script.constItem name (lookupItem root selector)) [] := by
  rintro tree ⟨_, ⟨build, ⟨_, _, rfl, ⟨_, _, ⟨nodes, lays, rfl⟩, rfl, rfl⟩, rfl⟩, rfl⟩, rfl⟩ n source holds ancestors -
  obtain ⟨_, _, ⟨_, k, rfl, rfl, first⟩, nothing, same⟩ := List.forall₂_cons_left_iff.mp
    (lays.fits source (n + 6 + name.length + 3 + root.length + 14 + 1))
  obtain rfl := List.forall₂_nil_left_iff.mp nothing
  have opening : Holds source n ("const ".toList ++ ((name ++ (" = ".toList ++ (root ++ (".querySelector".toList ++
      (('(' :: (Script.commaText [Script.stringItem selector] ++ [')'])) ++ []))))) ++ [';'])) := holds
  have value := opening.right.left.right.right
  have quoted : (leaf .string k (Text.quote selector).length).text source = Text.quote selector :=
    (first (@Holds.right source ['('] _ _ value.right.right.left).left).text_eq _ rfl
  show Told source ancestors [.mk .lexicalDeclaration .plain _ [.mk .declarator .plain _
    [(leaf .identifier (n + 6) name.length).as .name,
      callNode .value (n + 6 + name.length + 3) (n + 6 + name.length + 3 + root.length + 14) _
        (memberNode (n + 6 + name.length + 3) (n + 6 + name.length + 3 + root.length + 1) 13
          (leaf .identifier (n + 6 + name.length + 3) root.length))
        (nodes (n + 6 + name.length + 3 + root.length + 14 + 1))]]] _
  rw [same]
  have called : (memberNode (n + 6 + name.length + 3) (n + 6 + name.length + 3 + root.length + 1) 13
      (leaf .identifier (n + 6 + name.length + 3) root.length)).text source = root ++ ".querySelector".toList := by
    rw [← List.append_assoc root] at value
    refine value.left.text_eq _ ?_
    rw [List.length_append, ← Nat.add_assoc]
    rfl
  exact (told_variable quoted rfl (isInert_property _ _ _ _ _) (Node.isInert_leaf _ _ (by decide))
    (Node.isInert_leaf _ _ (by decide)) (called ▸ append_ne_animate root (by decide)) _).under (by decide)

theorem says_if {items : List Item} {each : List (List Saying)} (say : List.Forall₂ (ItemSays around) items each)
    (name pad close : List Char) : ItemSays around (Script.ifItem name pad close items) each.flatten := by
  rintro tree ⟨nodes, lays, rfl⟩ n
  have lines := tells_lines say lays (n + (6 + name.length) + 1)
  have block : Tells around each.flatten (Script.blockText pad close items) (n + (6 + name.length))
      [Script.blockNode (n + (6 + name.length)) (Script.blockText pad close items).length nodes] :=
    lines.under (by decide) (fun source holds => (@Holds.right source ['\x7b'] _ _ holds).left) .plain _
  have condition : (Node.mk .parenthesized .plain ⟨n + 3, n + (5 + name.length)⟩
      [leaf .identifier (n + 4) name.length]).IsInert :=
    Node.isInert_mk (by decide) (List.forall_mem_singleton.mpr (Node.isInert_leaf _ _ (by decide)))
  intro source holds ancestors enclosing
  have block_ : Holds source (n + (6 + name.length)) (Script.blockText pad close items) := by
    have opening : Holds source n ("if (".toList ++ ((name ++ [')']) ++ ([' '] ++ Script.blockText pad close items))) := holds
    have place : n + 4 + (name ++ [')']).length + 1 = n + (6 + name.length) := by
      rw [List.length_append, List.length_singleton]
      omega
    exact place ▸ opening.right.right.right
  have statement (span : Span) (children : List Node) : enclosingPhase source
      (.mk .otherStatement .plain span children :: ancestors) = .ok around :=
    (enclosingPhase_of_other (by decide) source ancestors).trans enclosing
  exact ((block source block_ _ (statement _ _)).after_inert condition).under (by decide)

/-! ### The statements of a script -/

open Script (IsExport IsImport bracedText exportText functionText guardName importText wishItem wishNode)
open Script.Reader (Covers)

theorem says_import {space : List Char} {types : Bool} {names : List (List Char)} {module : List Char} :
    Says around ⟨space, importText types names module, IsImport types names module⟩ [] :=
  fun _ _ fits => tells_inert (List.forall_mem_singleton.mpr fits.2.1)

/-- The declaration of the wish for reduced motion asks the window only. -/
theorem says_wish : ItemSays around (Script.constItem guardName wishItem) [] := by
  rintro tree ⟨_, ⟨build, ⟨_, _, rfl, ⟨_, _, ⟨nodes, lays, rfl⟩, ⟨_, _, rfl, rfl, rfl⟩, rfl⟩, rfl⟩, rfl⟩, rfl⟩ n source holds
    ancestors -
  obtain ⟨_, _, ⟨_, k, rfl, rfl, -⟩, nothing, same⟩ := List.forall₂_cons_left_iff.mp (lays.fits source (n + 29 + 39 + 11 + 1))
  obtain rfl := List.forall₂_nil_left_iff.mp nothing
  have text : Script.constText guardName wishItem.text = "const prefersReducedMotion = typeof window !== 'undefined' && ".toList ++
      ("window.matchMedia".toList ++ "('(prefers-reduced-motion: reduce)').matches;".toList) := by
    decide +kernel
  have called : (memberNode (n + 29 + 33) (n + 29 + 39 + 1) 10 (leaf .identifier (n + 29 + 33) 6)).text source =
      "window.matchMedia".toList := by
    change Holds source n (Script.constText guardName wishItem.text) at holds
    rw [text] at holds
    exact holds.right.left.text_eq _ rfl
  have leaf_ {kind : Kind} (start length : Nat) (other : kind ∉ Node.marked) := Node.isInert_leaf start length other
  show Told source ancestors [.mk .lexicalDeclaration .plain _ [.mk .declarator .plain _
    [(leaf .identifier (n + 6) 20).as .name, .mk .otherExpression .value _
      [.mk .otherExpression .plain _ [.mk .unary .plain _
        [(leaf .token (n + 29) 6).as .operator, (leaf .identifier (n + 29 + 7) 6).as .argument], leaf .string (n + 29 + 18) 11],
      .mk .member .plain _ [callNode .object (n + 29 + 33) (n + 29 + 39 + 11) _
        (memberNode (n + 29 + 33) (n + 29 + 39 + 1) 10 (leaf .identifier (n + 29 + 33) 6)) (nodes (n + 29 + 39 + 11 + 1)),
        (leaf .propertyName _ 7).as .property]]]]] _
  rw [same]
  have other := called.trans_ne (show "window.matchMedia".toList ≠ "animate".toList by decide)
  refine Told.under (Told.under_of_silent (Told.after_inert (Told.under (Told.after_inert
      (Told.under ((told_question (isInert_property _ _ _ _ _) (leaf_ _ _ (by decide)) other).append
        (told_inert _ _ _ ((leaf_ _ _ (by decide)).as .property))) (by decide)) ?_) (by decide))
      ((leaf_ _ _ (by decide)).as .name))
    (fun known => recognize_of_other (by decide) source known _) ?_) (by decide)
  · exact Node.isInert_mk (by decide) (List.forall_mem_cons.mpr ⟨Node.isInert_mk (by decide)
      (List.forall_mem_cons.mpr ⟨(leaf_ _ _ (by decide)).as _, List.forall_mem_singleton.mpr ((leaf_ _ _ (by decide)).as _)⟩),
      List.forall_mem_singleton.mpr (leaf_ _ _ (by decide))⟩)
  · rintro - selector ⟨⟩

/-- A block says what its statements do. -/
theorem tells_block {parts : List Part} {close : List Char} {node : Node}
    (inside : ∀ m nodes, Along parts m nodes → Tells around sayings (partsText parts) m nodes)
    (covers : Covers .block (bracedText parts close) (fun n => Along parts (n + 1)) n node) (role : Role) :
    Tells around sayings (bracedText parts close) n [node.as role] := by
  obtain ⟨nodes, rfl, along⟩ := covers
  exact (inside _ nodes along).under (by decide) (fun source holds => holds.right.left) role _

/-- Nodes that say nothing before one that says something. -/
theorem tells_behind {before : List Node} (inert : ∀ other ∈ before, other.IsInert)
    (tells : Tells around sayings text n [node]) : Tells around sayings text n (before ++ [node]) :=
  fun source holds ancestors enclosing =>
    (told_inerts source ancestors before inert).append (tells source holds ancestors enclosing)

/-- A function that is handed out says what its block does. -/
theorem says_export {space title signature_ body : List Char} {default_ : Bool} {Parameters : Nat → List Node → Prop}
    {Body : Nat → Node → Prop} (parameters : ∀ n nodes, Parameters n nodes → ∀ node ∈ nodes, node.IsInert)
    (inside : ∀ n node, Body n node → Tells around sayings body n [node.as .body]) :
    Says around ⟨space, exportText default_ title signature_ body,
      IsExport default_ title signature_ body Parameters Body⟩ sayings := by
  rintro n node ⟨marks, function_, rfl, inert, items, block_, rfl, items_, fits⟩
  have named : ∀ other ∈ [(leaf .identifier (n + 6 + (Script.defaultWord default_).length + 1 + 9) title.length).as .name] ++
      items, other.IsInert :=
    List.forall_mem_append.mpr ⟨List.forall_mem_singleton.mpr ((Node.isInert_leaf _ _ (by decide)).as .name),
      parameters _ items items_⟩
  have declared (span : Span) : Tells around sayings (functionText title signature_ body)
      (n + 6 + (Script.defaultWord default_).length + 1) [.mk .functionDeclaration .declaration span ([(leaf .identifier
        (n + 6 + (Script.defaultWord default_).length + 1 + 9) title.length).as .name] ++ items ++ [block_.as .body])] := by
    refine (tells_behind named (inside _ block_ fits)).under (by decide) (fun source holds => ?_) .declaration span
    convert holds.right.right.right.right using 1
    simp
    omega
  refine (tells_behind inert (declared _)).under (by decide) (fun source holds => ?_) .plain _
  simpa [Nat.add_assoc] using holds.right.right.right

theorem exists_selectors (looked : ∀ node ∈ nodes, IsLookedUp source node) : ∃ known, selectors source nodes = .ok known := by
  induction nodes with
  | nil => exact ⟨[], rfl⟩
  | cons node rest ih =>
    obtain ⟨known, others⟩ := ih fun other member => looked other (List.mem_cons_of_mem _ member)
    unfold selectors
    rw [others]
    simp only [bind, Except.bind]
    split
    · rename_i declarator
      split
      · rename_i name selector _ value
        obtain ⟨text, rfl⟩ := looked node List.mem_cons_self (by simpa using declarator) selector value
        simp only
        split <;> exact ⟨_, rfl⟩
      · exact ⟨_, rfl⟩
    · exact ⟨_, rfl⟩

/-- The elements that calls speak of, in the order of their first call. -/
def spokenOf (calls : List Recognized) : Forest :=
  (((calls.foldl addCall []).values.map Group.close).filter (!·.phases.isEmpty)).map fun motion => ⟨motion, []⟩

/-- The elements of a script are those that its calls speak of. -/
theorem exists_extract {root : Node} (told : Told source [] [root] sayings) :
    ∃ found calls, extract source root = .ok found ∧ found.elements = spokenOf calls ∧
      calls.map Recognized.saying = sayings := by
  have walk : Node.walkAll [root] = root.walk := by rw [Node.walkAll, Node.walkAll, List.append_nil]
  have walkUnder : Node.walkAllUnder [] [root] = root.walkUnder [] := by
    rw [Node.walkAllUnder, Node.walkAllUnder, List.append_nil]
  obtain ⟨known, selectors_⟩ := exists_selectors told.variables_
  obtain ⟨recognitions, calls_, same⟩ := told.calls known
  rw [walk] at selectors_
  rw [walkUnder] at calls_
  have extracted : ∃ found, extract source root = .ok found ∧
      found.elements = spokenOf (recognitions.filterMap Recognition.call?) := by
    unfold extract
    rw [selectors_]
    simp only [bind, Except.bind]
    rw [calls_]
    exact ⟨_, rfl, rfl⟩
  obtain ⟨found, here, elements⟩ := extracted
  exact ⟨found, _, here, elements, same⟩

end Calls

end AnimationCode
