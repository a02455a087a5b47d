/-
**The elements that the calls of a script come to.**

A call of the animation function counts if what it animates to is written out and the nearest listener or observer
around it, if there is one, sets a phase. The calls that count are gathered by their targets: each target has a group,
and what the group holds depends on the calls on its target alone, however they stand among the others.

* `enclosingPhase_eq_ok`, `recognize_cases`: which calls count, and what is read of them;
* `get?_foldl_addCall`, `keys_foldl_addCall`: the groups, seen from one target;
* `Sums.addCall`, `sums_foldl`: what one more call adds to a group, and what a group holds after its calls;
* `isGathered_extract`: every element of a script is what the calls on its target make of it.
-/

import AnimationCode.Proofs.Element.Grouped
import AnimationCode.Proofs.Element.Unfit
import AnimationCode.Proofs.Script.Valued

namespace AnimationCode

namespace Calls

open Script (Node evaluate)

variable {source : List Char} {ancestors : List Node} {calls : List Recognized}

/-! ### The calls that count -/

/-- The event that a call listens to, if it is written out. -/
def event? (source : List Char) (call : Node) : Option (Outcome String) :=
  if Text.endsWith ".addEventListener".toList (callee source call) then firstString? source call else none

/-- Whether a node says which phase the calls inside it set: it listens to an event that is written out, or it observes. -/
def decides (source : List Char) (node : Node) : Bool :=
  node.kind == .call && ((event? source node).isSome || callee source node == "inView".toList)

/-- The phase that a listener or an observer sets; none if it listens to some other event. -/
def phaseInside? (source : List Char) (call : Node) : Option String :=
  match event? source call with
  | some event => event.toOption.bind fun name => listenerPhases.lookup name
  | none => some "inView"

/-- A place in a tree: a node with the nodes around it, the nearest first. -/
abbrev Place := Node × List Node

/-- The phase that a call at a place sets. The nearest node that decides has the say; without one it is initial if the call
is finished at once. -/
def phaseAt? (source : List Char) (place : Place) : Option String :=
  match place.2.find? (decides source) with
  | some around => phaseInside? source around
  | none => some (if (completion? source place.1 place.2).isSome then "initial" else "animate")

/-- What a call of the animation function animates to, if it is written out. -/
def keyframes? (source : List Char) (node : Node) : Option (Fields Value) :=
  if node.kind == .call && callee source node == "animate".toList then
    match arguments node with
    | _ :: frames :: _ => (evaluate source frames).toOption.bind Value.fields?
    | _ => none
  else none

/-- Whether a call of the animation function stands at a place and counts. -/
def counts (source : List Char) (place : Place) : Bool :=
  (keyframes? source place.1).isSome && (phaseAt? source place).isSome

/-- The options of a call, which come after its target and its keyframes. -/
def optionsOf (source : List Char) : List Node → Outcome Value
  | options :: _ => evaluate source options
  | [] => .ok .null

/-- What is read of the call at a place: its arguments, the phase that it sets, and its site, which reaches over the call that
finishes an initial one. -/
structure IsCallAt (source : List Char) (place : Place) (call : Recognized) : Prop where
  arguments_ : ∃ target frames rest, arguments place.1 = target :: frames :: rest ∧
    call.target = String.ofList (target.text source) ∧ evaluate source frames = .ok (.object call.keyframes) ∧
    optionsOf source rest = .ok call.options
  phase : phaseAt? source place = some call.phase
  site : ∃ node, (if call.phase = "initial" then completion? source place.1 place.2 = some node else node = place.1) ∧
    call.site = ⟨node.span.start, node.span.stop, call.phase, call.target⟩

theorem enclosingPhase_cons (source : List Char) (node : Node) (outer : List Node) :
    enclosingPhase source (node :: outer) =
      if decides source node then
        match event? source node with
        | some event => do return some ((listenerPhases.lookup (← event)).getD "other")
        | none => .ok (some "inView")
      else enclosingPhase source outer := by
  rw [enclosingPhase, decides]
  cases node.kind == .call with
  | false => rfl
  | true =>
    rw [if_pos rfl, Bool.true_and]
    change (match event? source node with
      | some event => do return some ((listenerPhases.lookup (← event)).getD "other")
      | none => if callee source node = "inView".toList then .ok (some "inView") else enclosingPhase source outer) = _
    cases event? source node with
    | some event => rfl
    | none =>
      rw [Option.isSome_none, Bool.false_or]
      by_cases observes : callee source node = "inView".toList
      · simp only [observes, beq_self_eq_true, if_true]
      · rw [if_neg observes, if_neg (by simpa using observes)]

/-- What is said of the phase of a call, if it can be told: the nearest node that decides has the say. -/
theorem enclosingPhase_eq_ok {around : Option String} (enclosing : enclosingPhase source ancestors = .ok around) :
    around = (ancestors.find? (decides source)).map fun node => (phaseInside? source node).getD "other" := by
  induction ancestors with
  | nil => exact (Except.ok.inj enclosing).symm
  | cons node outer ih =>
    rw [enclosingPhase_cons] at enclosing
    by_cases decided : decides source node = true
    · rw [if_pos decided] at enclosing
      rw [List.find?_cons_of_pos decided, Option.map_some, phaseInside?]
      cases heard : event? source node with
      | none =>
        rw [heard] at enclosing
        exact (Except.ok.inj enclosing).symm
      | some event =>
        rw [heard] at enclosing
        obtain ⟨name, rfl, told⟩ := Outcome.bind_eq_ok.mp enclosing
        exact (Except.ok.inj told).symm
    · rw [if_neg decided] at enclosing
      rw [List.find?_cons_of_neg decided]
      exact ih enclosing

/-- No event is listed with the word for the events that are not, and none is initial. -/
theorem phaseInside?_ne {node : Node} {phase : String} (inside : phaseInside? source node = some phase) :
    phase ∉ ["other", "initial", "animate", Phase.transition.name] := by
  have listed : ∀ entry ∈ listenerPhases, entry.2 ∉ ["other", "initial", "animate", Phase.transition.name] := by decide
  unfold phaseInside? at inside
  split at inside
  · obtain ⟨name, -, found⟩ := Option.bind_eq_some_iff.mp inside
    exact listed _ (Fields.mem_of_get? found)
  · obtain rfl := Option.some.inj inside
    decide

theorem keyframes?_eq_some {node : Node} {keyframes : Fields Value} (written : keyframes? source node = some keyframes) :
    (node.kind == .call && callee source node == "animate".toList) = true ∧ ∃ target frames rest,
      arguments node = target :: frames :: rest ∧ evaluate source frames = .ok (.object keyframes) := by
  unfold keyframes? at written
  split at written
  · rename_i animates
    refine ⟨animates, ?_⟩
    split at written
    · rename_i target frames rest given
      obtain ⟨value, evaluates, keyed⟩ := Option.bind_eq_some_iff.mp written
      obtain rfl : value = .object keyframes := by
        cases value <;> cases keyed
        rfl
      refine ⟨target, frames, rest, given, ?_⟩
      cases evaluated : evaluate source frames <;> rw [evaluated] at evaluates <;> cases evaluates
      rfl
    · cases written
  · cases written

/-- A node that is no call of the animation function, or one whose keyframes are not written out, does not count. -/
theorem call?_of_keyframes?_eq_none {node : Node} {known : Fields String} {recognition : Recognition}
    (silent : keyframes? source node = none) (done : recognize source known node ancestors = .ok recognition) :
    recognition.call? = none := by
  unfold keyframes? at silent
  unfold recognize at done
  split at done
  · rename_i animates
    rw [if_pos animates] at silent
    split at done
    · rename_i target frames rest given
      rw [given] at silent
      obtain ⟨value, evaluates, done⟩ := Outcome.bind_eq_ok.mp done
      simp only [evaluates, Except.toOption, Option.bind_some] at silent
      cases value with
      | object keyframes => cases silent
      | _ =>
        cases done
        rfl
    · cases done
      rfl
  · cases done
    rfl

/-- A call of the animation function whose keyframes are written out: it is left alone if what is around it sets no phase. -/
theorem call?_of_recognize {node : Node} {known : Fields String} {recognition : Recognition} {target frames : Node}
    {others : List Node} {keyframes : Fields Value}
    (animates : (node.kind == .call && callee source node == "animate".toList) = true)
    (given : arguments node = target :: frames :: others) (evaluates : evaluate source frames = .ok (.object keyframes))
    (done : recognize source known node ancestors = .ok recognition) :
    ∃ options around selector, optionsOf source others = .ok options ∧ enclosingPhase source ancestors = .ok around ∧
      let name := String.ofList (target.text source)
      let outer := completion? source node ancestors
      let phase := around.getD (if outer.isSome then "initial" else "animate")
      let span := if around.isNone then (outer.getD node).span else node.span
      recognition.call? = if around = some "other" then none else some ⟨name, phase, keyframes, options,
        ⟨span.start, span.stop, phase, name⟩, Location.inBytes source node.span.start, selector⟩ := by
  unfold recognize at done
  rw [if_pos animates, given] at done
  dsimp only at done
  rw [evaluates] at done
  obtain ⟨value, same, done⟩ := Outcome.bind_eq_ok.mp done
  obtain rfl := Except.ok.inj same
  cases others
  all_goals
    obtain ⟨options, optional, done⟩ := Outcome.bind_eq_ok.mp done
    obtain ⟨around, enclosing, done⟩ := Outcome.bind_eq_ok.mp done
    refine ⟨options, around, ?_⟩
    split at done
    · cases done
      exact ⟨none, optional, enclosing, rfl⟩
    · rename_i listed
      split at done
      · split at done
        · obtain ⟨selector, -, done⟩ := Outcome.bind_eq_ok.mp done
          cases done
          exact ⟨selector, optional, enclosing, (if_neg listed).symm⟩
        · obtain ⟨selector, -, done⟩ := Outcome.bind_eq_ok.mp done
          cases done
          exact ⟨selector, optional, enclosing, (if_neg listed).symm⟩
      · obtain ⟨selector, -, done⟩ := Outcome.bind_eq_ok.mp done
        cases done
        exact ⟨selector, optional, enclosing, (if_neg listed).symm⟩

/-- What the node at a place does: it animates just if it counts. -/
theorem recognize_cases {place : Place} {known : Fields String} {recognition : Recognition}
    (done : recognize source known place.1 place.2 = .ok recognition) :
    (counts source place = true ∧ ∃ call, recognition.call? = some call ∧ IsCallAt source place call) ∨
      counts source place = false ∧ recognition.call? = none := by
  unfold counts
  cases written : keyframes? source place.1 with
  | none => exact .inr ⟨rfl, call?_of_keyframes?_eq_none written done⟩
  | some keyframes =>
    obtain ⟨animates, target, frames, rest, given, evaluates⟩ := keyframes?_eq_some written
    obtain ⟨options, around, selector, optional, enclosing, made⟩ := call?_of_recognize animates given evaluates done
    have said := enclosingPhase_eq_ok enclosing
    cases decided : place.2.find? (decides source) with
    | none =>
      have here : phaseAt? source place =
          some (if (completion? source place.1 place.2).isSome then "initial" else "animate") := by
        rw [phaseAt?, decided]
      rw [decided, Option.map_none] at said
      subst said
      rw [here]
      refine .inl ⟨rfl, _, made, ⟨target, frames, rest, given, rfl, evaluates, optional⟩, here, ?_⟩
      cases finished : completion? source place.1 place.2 with
      | none => exact ⟨place.1, rfl, rfl⟩
      | some outer => exact ⟨outer, rfl, rfl⟩
    | some node =>
      have here : phaseAt? source place = phaseInside? source node := by rw [phaseAt?, decided]
      rw [decided, Option.map_some] at said
      rw [here]
      cases inside : phaseInside? source node with
      | none =>
        rw [inside] at said
        subst said
        exact .inr ⟨rfl, made⟩
      | some phase =>
        rw [inside, Option.getD_some] at said
        subst said
        have listed : some phase ≠ some "other" := by
          rintro ⟨⟩
          exact phaseInside?_ne inside (by decide)
        have later : phase ≠ "initial" := by
          rintro rfl
          exact phaseInside?_ne inside (by decide)
        exact .inl ⟨rfl, _, made.trans (if_neg listed), ⟨target, frames, rest, given, rfl, evaluates, optional⟩,
          here.trans inside, place.1, (if_neg later).mpr rfl, rfl⟩

/-- The calls of a tree are those at the places where one counts, in order. -/
theorem forall₂_recognizeAll {places : List Place} {known : Fields String} {recognitions : List Recognition}
    (done : recognizeAll source known places = .ok recognitions) :
    List.Forall₂ (IsCallAt source) (places.filter (counts source)) (recognitions.filterMap Recognition.call?) := by
  induction places generalizing recognitions with
  | nil =>
    cases done
    exact .nil
  | cons place rest ih =>
    rw [recognizeAll] at done
    obtain ⟨here, one, done⟩ := Outcome.bind_eq_ok.mp done
    obtain ⟨there, others, done⟩ := Outcome.bind_eq_ok.mp done
    cases done
    rcases recognize_cases one with ⟨counted, call, same, isCall⟩ | ⟨silent, unread⟩
    · rw [List.filter_cons_of_pos counted, List.filterMap_cons_some same]
      exact .cons isCall (ih others)
    · rw [List.filter_cons_of_neg (by simpa using silent), List.filterMap_cons_none unread]
      exact ih others

/-! ### The groups, seen from one target -/

theorem filter_concat {α : Type} (keeps : α → Bool) (items : List α) (item : α) :
    (items ++ [item]).filter keeps = if keeps item then items.filter keeps ++ [item] else items.filter keeps := by
  cases kept : keeps item <;> simp [kept]

/-- The calls on a target. -/
def callsOn (target : String) (calls : List Recognized) : List Recognized := calls.filter fun call => call.target == target

/-- The group that calls make, begun by the first of them. -/
def groupOf? (calls : List Recognized) : Option Group :=
  calls.head?.map fun first => calls.foldl Group.addCall ⟨startMotion first, []⟩

theorem groupOf?_concat (calls : List Recognized) (call : Recognized) :
    groupOf? (calls ++ [call]) = some (((groupOf? calls).getD ⟨startMotion call, []⟩).addCall call) := by
  cases calls with
  | nil => rfl
  | cons first rest =>
    rw [groupOf?, List.cons_append, List.head?_cons, Option.map_some, ← List.cons_append, List.foldl_append]
    rfl

/-- The group of a target is made by the calls on it, whatever stands between them. -/
theorem get?_foldl_addCall (calls : List Recognized) (target : String) :
    (calls.foldl addCall []).get? target = groupOf? (callsOn target calls) := by
  induction calls using List.reverseRecOn with
  | nil => rfl
  | append_singleton before call ih =>
    rw [List.foldl_append, List.foldl_cons, List.foldl_nil, addCall, Fields.get?_set, callsOn, filter_concat]
    by_cases same : call.target = target
    · subst same
      rw [if_pos rfl, if_pos (beq_self_eq_true _), groupOf?_concat, ih]
      rfl
    · rw [if_neg (Ne.symm same), if_neg (by simpa using same), ih]
      rfl

/-- The groups stand in the order of their first calls. -/
theorem keys_foldl_addCall (calls : List Recognized) :
    (calls.foldl addCall []).keys = tellAll [] (calls.map Recognized.target) := by
  induction calls using List.reverseRecOn with
  | nil => rfl
  | append_singleton before call ih =>
    rw [List.foldl_append, List.foldl_cons, List.foldl_nil, addCall, Fields.keys_set, ih, List.map_append]
    exact (@List.foldl_append _ _ tell _ _ [call.target]).symm

/-! ### What a group holds -/

/-- The calls that begin a phase. -/
def callsIn (phase : String) (calls : List Recognized) : List Recognized :=
  calls.filter fun call => !restores call.phase && call.phase == phase

/-- What calls set a phase to: the keyframes of those that begin it, merged name by name from left to right. -/
def setTo? (calls : List Recognized) (phase : String) : Option Value :=
  match callsIn phase calls with
  | [] => none
  | begun => some (.object (Fields.ofPairs (begun.flatMap Recognized.keyframes)))

/-- What a group holds after its calls. -/
structure Sums (group : Group) (calls : List Recognized) : Prop extends Attends group (calls.map Recognized.saying) where
  named : group.motion.phases.keys.Nodup
  phases : ∀ phase, group.motion.phases.get? phase = setTo? calls phase
  sites : group.motion.sites = calls.map Recognized.site

theorem setTo?_concat (calls : List Recognized) (call : Recognized) (phase : String) :
    setTo? (calls ++ [call]) phase = if restores call.phase = false ∧ call.phase = phase then
      some (.object (Fields.update (((setTo? calls phase).bind Value.fields?).getD []) call.keyframes))
    else setTo? calls phase := by
  have within : callsIn phase (calls ++ [call]) =
      if !restores call.phase && call.phase == phase then callsIn phase calls ++ [call] else callsIn phase calls :=
    filter_concat ..
  unfold setTo?
  rw [within]
  by_cases begins : restores call.phase = false ∧ call.phase = phase
  · have one : (!restores call.phase && call.phase == phase) = true := by
      rw [begins.1, begins.2, beq_self_eq_true]
      rfl
    rw [if_pos begins, if_pos one]
    cases callsIn phase calls with
    | nil =>
      change some (Value.object (Fields.ofPairs (List.flatMap Recognized.keyframes [call]))) = _
      rw [List.flatMap_singleton]
      rfl
    | cons first rest =>
      change some (Value.object (Fields.ofPairs ((first :: rest ++ [call]).flatMap Recognized.keyframes))) = _
      rw [List.flatMap_append, Fields.ofPairs_append, List.flatMap_singleton]
      rfl
  · rw [if_neg begins, if_neg (by simpa using begins)]

/-- What calls set a phase to is written out. -/
theorem setTo?_eq_some {phase : String} {value : Value} (set : setTo? calls phase = some value) :
    ∃ keyframes, value = .object keyframes := by
  unfold setTo? at set
  split at set
  · cases set
  · exact ⟨_, (Option.some.inj set).symm⟩

/-- The phases of a group with one more call: it begins its phase or adds to it, unless it is the end of another. -/
theorem phases_addCall (group : Group) (call : Recognized)
    (written : ∀ value ∈ group.motion.phases.get? call.phase, ∃ keyframes, value = .object keyframes)
    (named : call.keyframes.keys.Nodup) :
    (group.addCall call).motion.phases = if restores call.phase then group.motion.phases
      else group.motion.phases.set call.phase
        (.object (Fields.update (((group.motion.phases.get? call.phase).bind Value.fields?).getD []) call.keyframes)) := by
  unfold Group.addCall
  dsimp only
  split
  · rfl
  · cases begun : group.motion.phases.get? call.phase with
    | none =>
      have same : Fields.update [] call.keyframes = call.keyframes := Fields.ofPairs_of_nodup named
      rw [Option.bind_none, Option.getD_none, same]
    | some value =>
      obtain ⟨before, rfl⟩ := written value begun
      rfl

/-- A group with one more call. -/
theorem Sums.addCall {group : Group} {call : Recognized} (sums : Sums group calls) (named : call.keyframes.keys.Nodup) :
    Sums (group.addCall call) (calls ++ [call]) := by
  have phases := phases_addCall group call (fun value set => setTo?_eq_some ((sums.phases _).symm.trans set)) named
  refine ⟨?_, ?_, fun phase => ?_, ?_⟩
  · rw [List.map_append]
    exact sums.toAttends.addCall
  · rw [phases]
    split
    · exact sums.named
    · exact Fields.nodup_set sums.named _ _
  · rw [phases, setTo?_concat, ← sums.phases]
    cases ends : restores call.phase with
    | true => rw [if_pos rfl, if_neg (fun both => nomatch both.1)]
    | false =>
      rw [if_neg Bool.false_ne_true, Fields.get?_set]
      by_cases same : phase = call.phase
      · rw [if_pos same, if_pos ⟨rfl, same.symm⟩, same]
      · rw [if_neg same, if_neg fun both => same both.2.symm]
  · rw [List.map_append, ← sums.sites]
    rfl

/-- A group holds what its calls come to. -/
theorem sums_foldl {start : Motion} (blank : start.phases = [] ∧ start.reducedMotion = false ∧ start.sites = [])
    (calls : List Recognized) (named : ∀ call ∈ calls, call.keyframes.keys.Nodup) :
    Sums (calls.foldl Group.addCall ⟨start, []⟩) calls := by
  induction calls using List.reverseRecOn with
  | nil =>
    obtain ⟨phases, reducedMotion, sites⟩ := blank
    refine ⟨⟨fun _ => rfl, reducedMotion⟩, ?_, fun _ => ?_, sites⟩
    · rw [List.foldl_nil, phases]
      exact List.nodup_nil
    · rw [List.foldl_nil, phases]
      rfl
  | append_singleton before call ih =>
    rw [List.foldl_append]
    exact (ih fun other member => named other (List.mem_append_left _ member)).addCall
      (named call (List.mem_append_right _ (List.mem_singleton_self _)))

/-! ### The element of a target -/

/-- What calls make of their target. The options of its own calls win over those in listeners and observers, and those over the
options of initial calls; of each kind the first that count are taken. -/
structure IsGathered (calls : List Recognized) (element : Element) : Prop where
  flat : element.children = []
  named : element.own.phases.keys.Nodup
  phases : ∀ phase, phase ≠ Phase.transition.name → element.own.phases.get? phase = setTo? calls phase
  transition : element.own.phase? .transition = (firstCounted? (calls.map Recognized.saying) "animate").or
    ((firstCounted? (calls.map Recognized.saying) "listener").or (firstCounted? (calls.map Recognized.saying) "initial"))
  reducedMotion : element.own.reducedMotion = true ↔ ∃ call ∈ calls, ∃ options, call.options = .guarded options
  sites : element.own.sites = calls.map Recognized.site

theorem callsIn_eq_nil_iff {phase : String} :
    callsIn phase calls = [] ↔ ∀ call ∈ calls, restores call.phase = false → call.phase ≠ phase := by
  rw [callsIn, List.filter_eq_nil_iff]
  simp

theorem setTo?_eq_none_iff {phase : String} :
    setTo? calls phase = none ↔ ∀ call ∈ calls, restores call.phase = false → call.phase ≠ phase := by
  rw [← callsIn_eq_nil_iff, setTo?]
  cases callsIn phase calls with
  | nil => exact ⟨fun _ => rfl, fun _ => rfl⟩
  | cons first rest => exact ⟨nofun, nofun⟩

variable {group : Group}

theorem Sums.chosen_eq (sums : Sums group calls) : optionKinds.findSome? group.options.get? =
    (firstCounted? (calls.map Recognized.saying) "animate").or
      ((firstCounted? (calls.map Recognized.saying) "listener").or (firstCounted? (calls.map Recognized.saying) "initial")) := by
  rw [← sums.options, ← sums.options, ← sums.options]
  simp only [optionKinds, List.findSome?_cons, List.findSome?_nil]
  cases group.options.get? "animate" <;> cases group.options.get? "listener" <;> cases group.options.get? "initial" <;> rfl

/-- The element of a target whose calls set no transition of their own. -/
theorem Sums.isGathered (sums : Sums group calls) (settled : ∀ call ∈ calls, call.phase ≠ Phase.transition.name) :
    IsGathered calls ⟨group.close, []⟩ := by
  have chosen := sums.chosen_eq
  have guarded : group.motion.reducedMotion = true ↔ ∃ call ∈ calls, ∃ options, call.options = .guarded options := by
    rw [sums.reducedMotion, List.any_map, List.any_eq_true]
    refine exists_congr fun call => and_congr_right fun _ => ?_
    change call.saying.givesWay = true ↔ _
    unfold Saying.givesWay Recognized.saying
    dsimp only
    cases call.options <;> simp
  have unset : group.motion.phases.get? Phase.transition.name = none := by
    rw [sums.phases, setTo?_eq_none_iff]
    exact fun call member _ => settled call member
  have closed := Group.close.eq_def group
  cases found : optionKinds.findSome? group.options.get? with
  | none =>
    rw [found] at closed chosen
    rw [closed]
    exact ⟨rfl, sums.named, fun phase _ => sums.phases phase, unset.trans chosen, guarded, sums.sites⟩
  | some options =>
    rw [found] at closed chosen
    rw [closed]
    refine ⟨rfl, Fields.nodup_set sums.named _ _, fun phase other => ?_, ?_, guarded, sums.sites⟩
    · exact (Fields.get?_set ..).trans ((if_neg other).trans (sums.phases phase))
    · exact ((Fields.get?_set ..).trans (if_pos rfl)).trans chosen

/-- Some call begins a phase. -/
def begins (calls : List Recognized) : Bool := calls.any fun call => !restores call.phase

/-- Options that count are those of a call that begins a phase. -/
theorem begins_of_counted {kind : String} {options : Value}
    (counted : firstCounted? (calls.map Recognized.saying) kind = some options) : begins calls = true := by
  obtain ⟨saying, member, counted⟩ := List.exists_of_findSome?_eq_some counted
  obtain ⟨call, among, rfl⟩ := List.mem_map.mp (List.mem_filter.mp member).1
  refine List.any_eq_true.mpr ⟨call, among, ?_⟩
  change !restores call.saying.phase
  unfold Saying.counted? at counted
  split at counted
  · cases counted
  · split at counted
    · cases counted
    · rename_i starts
      simpa using starts
  · cases counted

/-- A target has an element just if one of its calls begins a phase. -/
theorem Sums.isEmpty_close (sums : Sums group calls) : (!group.close.phases.isEmpty) = begins calls := by
  have closed := Group.close.eq_def group
  cases found : optionKinds.findSome? group.options.get? with
  | none =>
    rw [found] at closed
    rw [closed, Bool.eq_iff_iff, Bool.not_eq_true', List.isEmpty_eq_false_iff, begins, List.any_eq_true]
    constructor
    · intro filled
      obtain ⟨⟨phase, value⟩, member⟩ := List.exists_mem_of_ne_nil _ filled
      have set := Fields.get?_of_mem sums.named member
      rw [sums.phases] at set
      by_contra silent
      have unset : setTo? calls phase = none :=
        setTo?_eq_none_iff.mpr fun call among starts _ => silent ⟨call, among, by rw [starts]; rfl⟩
      rw [unset] at set
      cases set
    · rintro ⟨call, among, starts⟩ empty
      have unset := sums.phases call.phase
      rw [empty] at unset
      exact setTo?_eq_none_iff.mp unset.symm call among (by simpa using starts) rfl
  | some options =>
    rw [found] at closed
    obtain ⟨kind, -, counted⟩ := List.exists_of_findSome?_eq_some found
    rw [sums.options] at counted
    have set : (group.close.phases.get? Phase.transition.name) = some options := by
      rw [closed]
      exact (Fields.get?_set ..).trans (if_pos rfl)
    rw [begins_of_counted counted, Bool.not_eq_true', List.isEmpty_eq_false_iff]
    exact List.ne_nil_of_mem (Fields.mem_of_get? set)

/-! ### The elements of a script -/

/-- The targets whose calls begin a phase, in the order of their first calls. -/
def targets (calls : List Recognized) : List String :=
  (tellAll [] (calls.map Recognized.target)).filter fun target => begins (callsOn target calls)

/-- A call names each property once, and its phase is none that an element keeps its options in. -/
theorem IsCallAt.settled {place : Place} {call : Recognized} (isCall : IsCallAt source place call) :
    call.keyframes.keys.Nodup ∧ call.phase ≠ Phase.transition.name := by
  obtain ⟨_, _, _, -, -, evaluates, -⟩ := isCall.arguments_
  refine ⟨(Script.isNamedOnce_evaluate evaluates).nodup, fun same => ?_⟩
  have set := same ▸ isCall.phase
  unfold phaseAt? at set
  split at set
  · exact phaseInside?_ne set (by decide)
  · split at set <;> exact absurd (Option.some.inj set) (by decide)

theorem settled_of_areCalls {places : List Place} (areCalls : List.Forall₂ (IsCallAt source) places calls) :
    ∀ call ∈ calls, call.keyframes.keys.Nodup ∧ call.phase ≠ Phase.transition.name := by
  induction areCalls with
  | nil => exact List.forall_mem_nil _
  | cons isCall _ ih => exact List.forall_mem_cons.mpr ⟨isCall.settled, ih⟩

/-- The elements that calls speak of are what the calls on each target make of it. -/
theorem forall₂_spokenOf (settled : ∀ call ∈ calls, call.keyframes.keys.Nodup ∧ call.phase ≠ Phase.transition.name) :
    List.Forall₂ (fun target element => IsGathered (callsOn target calls) element) (targets calls) (spokenOf calls) := by
  have keys := keys_foldl_addCall calls
  have once : (calls.foldl addCall []).keys.Nodup := keys ▸ nodup_tellAll List.nodup_nil _
  have sums : ∀ field ∈ calls.foldl addCall [], Sums field.2 (callsOn field.1 calls) := by
    rintro ⟨target, group⟩ member
    have made := Fields.get?_of_mem once member
    rw [get?_foldl_addCall] at made
    obtain ⟨first, -, rfl⟩ := Option.map_eq_some_iff.mp made
    exact sums_foldl (startMotion_blank first) _ fun call among => (settled call (List.mem_of_mem_filter among)).1
  unfold targets spokenOf
  rw [← keys]
  generalize calls.foldl addCall [] = groups at sums
  induction groups with
  | nil => exact .nil
  | cons field rest ih =>
    obtain ⟨target, group⟩ := field
    have here := sums _ List.mem_cons_self
    have there := ih fun other member => sums other (List.mem_cons_of_mem _ member)
    rw [Fields.keys, Fields.values, List.map_cons, List.map_cons, List.map_cons]
    by_cases starts : begins (callsOn target calls) = true
    · have filled := here.isEmpty_close.trans starts
      rw [List.filter_cons_of_pos (by exact starts), List.filter_cons_of_pos (by exact filled), List.map_cons]
      exact .cons (here.isGathered fun call among => (settled call (List.mem_of_mem_filter among)).2) there
    · rw [List.filter_cons_of_neg (by exact starts), List.filter_cons_of_neg (by rwa [here.isEmpty_close])]
      exact there

/-- A script that speaks of a box and of a dot in turns. -/
def takingTurns : List Char :=
  ("animate(box, \x7bx: 1\x7d);inView(box, () => \x7banimate(dot, \x7by: 2\x7d);animate(box, \x7by: 3\x7d)\x7d);" ++
    "animate(box, \x7bx: 4\x7d)").toList

end Calls

end AnimationCode
