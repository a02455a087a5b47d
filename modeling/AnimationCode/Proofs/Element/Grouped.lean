/-
**What the calls on one target come to.**

The calls on one target make one element. Its phases are those that its calls set, its transition is the first one
of the strongest kind, and it gives way to a wish for reduced motion if one of its calls does.

* `Attends`, `Gathers`: what a group holds after its calls, one call after another (`Attends.addCall`, `Gathers.addCall`);
* `Gathers.transition_eq`: calls that agree on their options agree on the transition;
* `exists_groups`: what is said of one target after another makes a group for each.
-/

import AnimationCode.Proofs.Element.Told
import AnimationCode.Proofs.Fields

namespace AnimationCode

namespace Calls

/-! ### What a saying adds -/

/-- The options of a saying that count for the transition: not those of the end of a phase, and no empty ones. -/
def Saying.counted? (saying : Saying) : Option Value :=
  match saying.options.unguarded with
  | .object [] => none
  | .object fields => if restores saying.phase then none else some (.object fields)
  | _ => none

/-- Whether a saying gives way to a wish for reduced motion. -/
def Saying.givesWay (saying : Saying) : Bool :=
  match saying.options with
  | .guarded _ => true
  | _ => false

/-- What the sayings that begin a phase set. -/
def phasesOf (sayings : List Saying) : Fields Value :=
  (sayings.filter fun saying => !restores saying.phase).map fun saying => (saying.phase, .object saying.keyframes)

/-- The first options of a kind that count. -/
def firstCounted? (sayings : List Saying) (kind : String) : Option Value :=
  (sayings.filter fun saying => optionKind saying.phase = kind).findSome? Saying.counted?

/-- What a group holds of its calls besides the phases: the first options of each kind that count, and whether it gives way to
a wish for reduced motion. -/
structure Attends (group : Group) (sayings : List Saying) : Prop where
  options : ∀ kind, group.options.get? kind = firstCounted? sayings kind
  reducedMotion : group.motion.reducedMotion = sayings.any Saying.givesWay

/-- What a group holds after its calls, none of which begins a phase that another began. -/
structure Gathers (group : Group) (sayings : List Saying) : Prop extends Attends group sayings where
  phases : group.motion.phases = phasesOf sayings

variable {group : Group} {call : Recognized} {sayings : List Saying}

theorem options_addCall (group : Group) (call : Recognized) :
    (group.addCall call).options = match call.saying.counted? with
      | some options => group.options.setNew (optionKind call.phase) options
      | none => group.options := by
  unfold Group.addCall Saying.counted? Recognized.saying
  dsimp only
  split <;> split <;> simp_all

theorem Attends.addCall (attends : Attends group sayings) : Attends (group.addCall call) (sayings ++ [call.saying]) where
  options kind := by
    have last : firstCounted? [call.saying] kind = if kind = optionKind call.phase then call.saying.counted? else none := by
      unfold firstCounted?
      by_cases same : kind = optionKind call.phase
      · subst same
        cases counted : call.saying.counted? <;> simp [Recognized.saying]
        all_goals exact counted
      · have other : optionKind call.phase ≠ kind := fun equal => same equal.symm
        simp [Recognized.saying, same, other]
    have both : firstCounted? (sayings ++ [call.saying]) kind =
        (firstCounted? sayings kind).or (firstCounted? [call.saying] kind) := by
      unfold firstCounted?
      rw [List.filter_append, List.findSome?_append]
    rw [both, last, ← attends.options, options_addCall]
    cases call.saying.counted? with
    | none => simp
    | some options => exact Fields.get?_setNew ..
  reducedMotion := by
    rw [List.any_append, ← attends.reducedMotion, List.any_cons, List.any_nil, Bool.or_false]
    rfl

theorem phasesOf_append (sayings more : List Saying) : phasesOf (sayings ++ more) = phasesOf sayings ++ phasesOf more := by
  rw [phasesOf, List.filter_append, List.map_append]
  rfl

/-- A group with one more call. -/
theorem Gathers.addCall (gathers : Gathers group sayings)
    (fresh : restores call.phase = false → group.motion.phases.get? call.phase = none) :
    Gathers (group.addCall call) (sayings ++ [call.saying]) where
  toAttends := gathers.toAttends.addCall
  phases := by
    rw [phasesOf_append, ← gathers.phases]
    unfold Group.addCall phasesOf
    cases ends : restores call.phase with
    | true => simp [ends, Recognized.saying]
    | false => simp [ends, Recognized.saying, fresh ends, Fields.set_of_fresh (fresh ends)]

/-- The calls on one target, one after another. -/
theorem gathers_foldl {start : Motion} (blank : start.phases = [] ∧ start.reducedMotion = false ∧ start.sites = [])
    (calls : List Recognized) (once : (Fields.keys (phasesOf (calls.map Recognized.saying))).Nodup) :
    Gathers (calls.foldl Group.addCall ⟨start, []⟩) (calls.map Recognized.saying) := by
  induction calls using List.reverseRecOn with
  | nil => exact ⟨⟨fun _ => rfl, blank.2.1⟩, blank.1⟩
  | append_singleton before call ih =>
    rw [List.map_append, phasesOf_append, Fields.keys, List.map_append, List.nodup_append] at once
    have gathers := ih once.1
    rw [List.foldl_append, List.map_append]
    refine gathers.addCall fun begins => ?_
    rw [gathers.phases, Fields.get?_eq_none_iff]
    have last : phasesOf [call.saying] = [(call.phase, .object call.keyframes)] := by
      simp [phasesOf, Recognized.saying, begins]
    intro member
    exact once.2.2 call.phase member call.phase (by rw [List.map_singleton, last]; exact List.mem_singleton_self _) rfl

theorem mem_optionKinds (phase : String) : optionKind phase ∈ optionKinds := by
  unfold optionKind optionKinds
  split
  · rename_i plain
    rcases plain with rfl | rfl <;> decide
  · decide

/-- Calls that agree on their options agree on the transition. -/
theorem Gathers.transition_eq (gathers : Gathers group sayings) {options? : Option Value}
    (agree : ∀ saying ∈ sayings, ∀ options ∈ saying.counted?, options? = some options)
    (carried : ∀ options ∈ options?, ∃ saying ∈ sayings, saying.counted? = some options) :
    optionKinds.findSome? group.options.get? = options? := by
  have each (kind : String) : ∀ options ∈ group.options.get? kind, options? = some options := by
    intro options found
    rw [gathers.options] at found
    obtain ⟨saying, member, counted⟩ := List.exists_of_findSome?_eq_some found
    exact agree saying (List.mem_filter.mp member).1 options counted
  cases options? with
  | none =>
    refine List.findSome?_eq_none_iff.mpr fun kind _ => ?_
    cases found : group.options.get? kind with
    | none => rfl
    | some options => exact absurd (each kind options found) nofun
  | some options =>
    obtain ⟨saying, member, counted⟩ := carried options rfl
    have here : (group.options.get? (optionKind saying.phase)).isSome = true := by
      rw [gathers.options, firstCounted?, List.findSome?_isSome_iff]
      exact ⟨saying, List.mem_filter.mpr ⟨member, by simp⟩, by rw [counted]; rfl⟩
    have found : (optionKinds.findSome? group.options.get?).isSome = true :=
      List.findSome?_isSome_iff.mpr ⟨_, mem_optionKinds saying.phase, here⟩
    obtain ⟨other, found⟩ := Option.isSome_iff_exists.mp found
    obtain ⟨kind, -, same⟩ := List.exists_of_findSome?_eq_some found
    rw [found, each kind other same]

/-! ### Targets of their own -/

theorem startMotion_blank (call : Recognized) :
    (startMotion call).phases = [] ∧ (startMotion call).reducedMotion = false ∧ (startMotion call).sites = [] := by
  unfold startMotion
  dsimp only
  split
  · split <;> exact ⟨rfl, rfl, rfl⟩
  · exact ⟨rfl, rfl, rfl⟩

/-- More calls on the target that was spoken of last. -/
theorem foldl_addCall_last {target : String} {groups : Fields Group} (fresh : groups.get? target = none)
    (rest : List Recognized) (same : ∀ call ∈ rest, call.target = target) (group : Group) :
    rest.foldl addCall (groups ++ [(target, group)]) = groups ++ [(target, rest.foldl Group.addCall group)] := by
  induction rest generalizing group with
  | nil => rfl
  | cons call rest ih =>
    have here : (groups ++ [(target, group)]).get? target = some group := by
      rw [Fields.get?_append, fresh, Fields.get?_cons, if_pos rfl]
      rfl
    have next : addCall (groups ++ [(target, group)]) call = groups ++ [(target, group.addCall call)] := by
      rw [addCall, same call List.mem_cons_self, here]
      exact Fields.set_last fresh group _
    rw [List.foldl_cons, List.foldl_cons, next]
    exact ih (fun other member => same other (List.mem_cons_of_mem _ member)) _

/-- Calls on a target of their own make a group of their own. -/
theorem foldl_addCall {target : String} (call : Recognized) (rest : List Recognized) {groups : Fields Group}
    (same : ∀ other ∈ call :: rest, other.target = target) (fresh : groups.get? target = none) :
    (call :: rest).foldl addCall groups =
      groups ++ [(target, (call :: rest).foldl Group.addCall ⟨startMotion call, []⟩)] := by
  have first : addCall groups call = groups ++ [(target, Group.addCall ⟨startMotion call, []⟩ call)] := by
    rw [addCall, same call List.mem_cons_self, fresh]
    exact Fields.set_of_fresh fresh _
  rw [List.foldl_cons, List.foldl_cons, first]
  exact foldl_addCall_last fresh rest (fun other member => same other (List.mem_cons_of_mem _ member)) _

/-- What is said of one target: something, and no phase is begun twice. -/
structure IsSaidOf (block : String × List Saying) : Prop where
  some_ : block.2 ≠ []
  target : ∀ saying ∈ block.2, saying.target = block.1
  once : (Fields.keys (phasesOf block.2)).Nodup

/-- What is said of one target after another makes a group for each. -/
theorem exists_groups {blocks : List (String × List Saying)} (said : ∀ block ∈ blocks, IsSaidOf block)
    (own : (blocks.map Prod.fst).Nodup) {calls : List Recognized}
    (same : calls.map Recognized.saying = blocks.flatMap Prod.snd) {groups : Fields Group}
    (fresh : ∀ block ∈ blocks, groups.get? block.1 = none) :
    ∃ made : Fields Group, calls.foldl addCall groups = groups ++ made ∧
      List.Forall₂ (fun field block => Gathers field.2 block.2) made blocks := by
  induction blocks generalizing calls groups with
  | nil =>
    obtain rfl : calls = [] := List.map_eq_nil_iff.mp same
    exact ⟨[], (List.append_nil groups).symm, .nil⟩
  | cons block rest ih =>
    rw [List.map_cons, List.nodup_cons] at own
    rw [List.flatMap_cons] at same
    obtain ⟨here, there, rfl, hereSame, thereSame⟩ := List.map_eq_append_iff.mp same
    have saidHere := said block List.mem_cons_self
    obtain ⟨call, more, rfl⟩ := List.exists_cons_of_ne_nil (l := here) (by
      rintro rfl
      exact saidHere.some_ hereSame.symm)
    have target : ∀ other ∈ call :: more, other.target = block.1 := by
      intro other member
      exact saidHere.target other.saying (hereSame ▸ List.mem_map_of_mem member)
    have first := foldl_addCall call more target (fresh block List.mem_cons_self)
    have gathers := gathers_foldl (startMotion_blank call) (call :: more) (by rw [hereSame]; exact saidHere.once)
    rw [hereSame] at gathers
    have later : ∀ other ∈ rest, Fields.get? (groups ++
        [(block.1, (call :: more).foldl Group.addCall ⟨startMotion call, []⟩)]) other.1 = none := by
      intro other member
      have differs : other.1 ≠ block.1 := fun equal => own.1 (equal ▸ List.mem_map_of_mem member)
      rw [Fields.get?_append, fresh other (List.mem_cons_of_mem _ member), Fields.get?_cons, if_neg differs]
      rfl
    obtain ⟨made, folded, gathered⟩ := ih (fun other member => said other (List.mem_cons_of_mem _ member)) own.2 thereSame later
    refine ⟨(block.1, (call :: more).foldl Group.addCall ⟨startMotion call, []⟩) :: made, ?_, .cons gathers gathered⟩
    rw [List.foldl_append, first, folded, List.append_assoc]
    rfl

end Calls

end AnimationCode
