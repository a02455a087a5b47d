/-
**Labels resolved in a forest.**

Where there are no variants, a state that names its properties gets them written out, or what could not be found is told.
Labels that leave no trace among the variants are the ones that nobody hears of: those that name nothing, and those that
name variants without properties.

* `Labels.LeavesTrace`: labels of which one stands for properties, or for no variant at all;
* `Labels.keeps_resolve`: a state whose labels leave a trace is written out, or told of at its element;
* `Component.keeps_convert`: no such state is lost silently when a component becomes calls.
-/

import AnimationCode.Proofs.Convert.Passes
import AnimationCode.Proofs.Convert.Phases
import AnimationCode.Proofs.Element.Forest
import AnimationCode.Proofs.Element.States

namespace AnimationCode

namespace Fields

variable {α : Type}

theorem update_eq_nil {fields extra : Fields α} (empty : fields.update extra = []) : fields = [] ∧ extra = [] := by
  have names : tellAll fields.keys extra.keys = [] := by rw [← keys_update, empty, keys, List.map_nil]
  constructor
  · exact List.map_eq_nil_iff.mp (List.subset_nil.mp (names ▸ subset_tellAll fields.keys extra.keys))
  · exact List.map_eq_nil_iff.mp (List.subset_nil.mp (names ▸ items_subset_tellAll fields.keys extra.keys))

theorem foldl_update_eq_nil {extras : List (Fields α)} {fields : Fields α} (empty : extras.foldl update fields = []) :
    fields = [] ∧ ∀ extra ∈ extras, extra = [] := by
  induction extras generalizing fields with
  | nil => exact ⟨empty, List.forall_mem_nil _⟩
  | cons extra rest ih =>
    obtain ⟨first, others⟩ := ih empty
    obtain ⟨before, here⟩ := update_eq_nil first
    exact ⟨before, List.forall_mem_cons.mpr ⟨here, others⟩⟩

end Fields

namespace Labels

open AnimationCode.Convert (limit)

variable {motion : Motion} {inherited variants : Fields Value} {remarks : List Remark}

/-- Labels of which one stands for properties, or for no variant at all. -/
def LeavesTrace (variants : Fields Value) (labels : Value) : Prop := ∃ label ∈ names labels, lookUp variants label ≠ some []

/-- A motion whose states are written out or leave a trace among its variants, if it has any. -/
def AreTraced (motion : Motion) : Prop :=
  ∀ declared, motion.phase? .variants = some declared → ∀ phase ∈ Phase.states, ∀ value, motion.phase? phase = some value →
    value.isObject = true ∨ LeavesTrace (declared.fields?.getD []) value

/-- Every state that a motion had is written out, or it is told at the element that its labels are lost. -/
def Keeps (remarks : List Remark) (before after : Motion) : Prop :=
  ∀ phase ∈ Phase.states, before.hasPhase phase = true →
    (after.phase? phase).any Value.isObject = true ∨ ∃ message, limit before "variants" message ∈ remarks

theorem Keeps.mono {before after : Motion} {more : List Remark} (keeps : Keeps remarks before after)
    (told : remarks ⊆ more) : Keeps more before after := fun phase state here =>
  (keeps phase state here).imp_right fun ⟨message, member⟩ => ⟨message, told member⟩

/-- Labels of which one has properties stand for some together. -/
theorem merged_ne_nil {labels : List Value} {label : Value} {properties : Fields Value} (member : label ∈ labels)
    (found : lookUp variants label = some properties) (some_ : properties ≠ []) : merged variants labels ≠ [] := by
  intro empty
  exact some_ ((Fields.foldl_update_eq_nil empty).2 properties (List.mem_filterMap.mpr ⟨label, member, found⟩))

/-! ### One motion -/

/-- What is written out stays so when one more label is resolved. -/
theorem isObject_setResolved (phase name : String) (label : Value) (written : (motion.phases.get? name).any Value.isObject = true) :
    ((setResolved variants motion phase label).phases.get? name).any Value.isObject = true := by
  have kept (options : Fields Value) :
      ((motion.phases.setNew Phase.transition.name (.object options)).get? name).any Value.isObject = true := by
    rw [Fields.get?_setNew]
    cases found : motion.phases.get? name with
    | none => rw [found] at written; cases written
    | some value => rw [found] at written; exact written
  unfold setResolved
  dsimp only
  split
  · exact written
  · rw [Fields.get?_set]
    split
    · rfl
    · split
      · exact kept _
      · exact written

theorem isObject_foldl (wanted : List (String × Value)) (name : String) :
    ∀ {motion : Motion}, (motion.phases.get? name).any Value.isObject = true →
      ((wanted.foldl (fun acc (phase, label) => setResolved variants acc phase label) motion).phases.get? name).any
        Value.isObject = true := by
  induction wanted with
  | nil => exact id
  | cons pair rest ih => exact fun written => ih (isObject_setResolved pair.1 name pair.2 written)

/-- A phase whose labels stand for properties is written out. -/
theorem isObject_of_mem {wanted : List (String × Value)} {name : String} {label : Value} (member : (name, label) ∈ wanted)
    (some_ : merged variants (names label) ≠ []) :
    ((wanted.foldl (fun acc (phase, label) => setResolved variants acc phase label) motion).phases.get? name).any
      Value.isObject = true := by
  obtain ⟨before, after, rfl⟩ := List.append_of_mem member
  rw [List.foldl_append, List.foldl_cons]
  refine isObject_foldl after name ?_
  unfold setResolved
  dsimp only
  rw [if_neg (by simpa using some_), Fields.get?_set, if_pos rfl]
  rfl

theorem keys_ownPhases (motion : Motion) : (ownPhases motion).keys = Phase.stateNames.filter motion.phases.has := by
  rw [ownPhases, Fields.keys, List.map_filterMap, ← List.filterMap_eq_filter]
  refine List.filterMap_congr fun name _ => ?_
  rw [Option.map_map]
  cases found : motion.phases.get? name <;> simp [Option.guard, Fields.has, found]

theorem mem_ownPhases {phase : Phase} {value : Value} (state : phase ∈ Phase.states) (found : motion.phase? phase = some value) :
    (phase.name, value) ∈ ownPhases motion :=
  List.mem_filterMap.mpr ⟨phase.name, List.mem_map_of_mem state, Option.map_eq_some_iff.mpr ⟨value, found, rfl⟩⟩

theorem nodup_ownPhases (motion : Motion) : (ownPhases motion).keys.Nodup := by
  rw [keys_ownPhases]
  exact List.Nodup.filter _ (by decide)

theorem get?_ownPhases {phase : Phase} (state : phase ∈ Phase.states) :
    (ownPhases motion).get? phase.name = motion.phase? phase := by
  cases found : motion.phase? phase with
  | none =>
    have absent : motion.phases.has phase.name = false := by
      rw [Fields.has, Option.isSome_eq_false_iff, Option.isNone_iff_eq_none]
      exact found
    rw [Fields.get?_eq_none_iff, keys_ownPhases, List.mem_filter, absent]
    exact fun both => Bool.false_ne_true both.2
  | some value => exact Fields.get?_of_mem (nodup_ownPhases motion) (mem_ownPhases state found)

/-- The label of a state inside an element is its own, or else the one that holds around it. -/
theorem get?_scope (inherited : Fields Value) (motion : Motion) {phase : Phase} (state : phase ∈ Phase.states) :
    (scope inherited motion).get? phase.name =
      ((motion.phase? phase).filter fun value => !value.isObject).or (inherited.get? phase.name) := by
  have named := nodup_ownPhases motion
  have still : (Fields.keys ((ownPhases motion).filter fun (_, value) => !value.isObject)).Nodup :=
    named.sublist (List.filter_sublist.map Prod.fst)
  rw [scope, Fields.get?_update, Convert.get?_reverse still, Fields.get?_filter_of_nodup named, get?_ownPhases state]

/-- Labels of phases that are states. -/
def AreOfStates (labels : Fields Value) : Prop := ∀ name ∈ labels.keys, name ∈ Phase.stateNames

theorem areOfStates_nil : AreOfStates [] := fun _ member => absurd member List.not_mem_nil

theorem areOfStates_scope (states : AreOfStates inherited) (motion : Motion) : AreOfStates (scope inherited motion) := by
  intro name member
  rw [scope, Fields.keys_update] at member
  rcases List.mem_append.mp (tellAll_subset _ _ member) with outer | own
  · exact states name outer
  · obtain ⟨field, kept, rfl⟩ := List.mem_map.mp own
    obtain ⟨state, known, made⟩ := List.mem_filterMap.mp (List.mem_filter.mp kept).1
    obtain ⟨value, -, rfl⟩ := Option.map_eq_some_iff.mp made
    exact known

/-- A state whose labels leave a trace is written out, or told of at its element. -/
theorem keeps_resolve (inherited : Fields Value) (traced : AreTraced motion) :
    Keeps (resolve (scope inherited motion) motion).2 motion (resolve (scope inherited motion) motion).1 := by
  intro phase state here
  obtain ⟨value, found⟩ : ∃ value, motion.phase? phase = some value := Option.isSome_iff_exists.mp here
  have away : phase.name ≠ Phase.variants.name := Phase.name_ne_variants state
  unfold resolve
  cases variants : motion.phases.get? Phase.variants.name with
  | none =>
    dsimp only
    split
    · rename_i written
      left
      change Option.any Value.isObject (motion.phase? phase) = true
      rw [found]
      exact List.all_eq_true.mp written _ (mem_ownPhases state found)
    · exact .inr ⟨_, List.mem_singleton_self _⟩
  | some declared =>
    dsimp only [Motion.phase?]
    rw [Fields.get?_erase, if_neg away]
    by_cases written : value.isObject = true
    · left
      refine isObject_foldl _ phase.name ?_
      change Option.any Value.isObject (motion.phase? phase) = true
      rw [found]
      exact written
    · have label : value.isObject = false := Bool.eq_false_iff.mpr written
      have held : (scope inherited motion).get? phase.name = some value := by
        rw [get?_scope inherited motion state, found, Option.filter_some, label]
        rfl
      have wanted : (phase.name, value) ∈ toResolve (scope inherited motion) motion := by
        refine List.mem_filter.mpr ⟨Fields.mem_of_get? held, ?_⟩
        change (!Option.any Value.isObject (motion.phase? phase)) = true
        rw [found]
        simp [label]
      obtain ⟨name, named, trace⟩ := (traced declared variants phase state value found).resolve_left written
      cases properties : lookUp (declared.fields?.getD []) name with
      | none =>
        have told : limit motion "variants" ("Variant label " ++ name.shown ++ " could not be resolved") ∈
            unresolved (declared.fields?.getD []) motion (names value) :=
          List.mem_map.mpr ⟨name, List.mem_filter.mpr ⟨named, by rw [properties]; rfl⟩, rfl⟩
        exact .inr ⟨_, List.mem_append_left _ (List.mem_flatMap.mpr ⟨_, wanted, told⟩)⟩
      | some fields =>
        have some_ : fields ≠ [] := fun empty => trace (by rw [properties, empty])
        exact .inl (isObject_of_mem wanted (merged_ne_nil named properties some_))

/-! ### A forest -/

mutual

theorem pairs_resolveElement (inherited : Fields Value) (around : Option Motion) : (element : Element) →
    (∀ motion ∈ element.motions, AreTraced motion) → (∀ remark ∈ (resolveElement inherited element).2, remark ∈ remarks) →
    Element.Pairs (fun _ => Keeps remarks) around element (resolveElement inherited element).1
  | ⟨own, children⟩, traced, told => by
    have here := (keeps_resolve inherited (traced own (by simp [Element.motions]))).mono
      fun remark member => told remark (List.mem_append_left _ member)
    have inside := pairs_resolveEach (scope inherited own) (some own) children
      (fun motion member => traced motion (by simp [Element.motions, member]))
      fun remark member => told remark (List.mem_append_right _ member)
    exact .intro here inside

theorem pairs_resolveEach (inherited : Fields Value) (around : Option Motion) : (elements : List Element) →
    (∀ motion ∈ Element.motionsEach elements, AreTraced motion) →
    (∀ remark ∈ (resolveEach inherited elements).2, remark ∈ remarks) →
    Element.PairsEach (fun _ => Keeps remarks) around elements (resolveEach inherited elements).1
  | [], _, _ => .nil
  | element :: rest, traced, told => by
    have here := pairs_resolveElement inherited around element
      (fun motion member => traced motion (by simp [Element.motionsEach, member]))
      fun remark member => told remark (List.mem_append_left _ member)
    have beside := pairs_resolveEach inherited around rest
      (fun motion member => traced motion (by simp [Element.motionsEach, member]))
      fun remark member => told remark (List.mem_append_right _ member)
    exact .cons here beside

end

theorem AreTraced.respelled {before after : Motion} (traced : AreTraced before) (respelled : before.Respelled after) :
    AreTraced after := by
  intro declared variants phase state value found
  rw [respelled.shared] at variants found
  exact traced declared variants phase state value found

end Labels

namespace Component

variable {component converted : Component} {account told : Account}

/-- No state is lost silently when a component becomes calls, as long as its labels leave a trace: it is written out, or
there is a limitation at its element that names the variants. -/
theorem keeps_convert (named : ∀ motion ∈ component.elements.motions, motion.phases.keys.Nodup)
    (traced : ∀ motion ∈ component.elements.motions, Labels.AreTraced motion)
    (done : component.convert .js account = .ok (converted, told)) :
    Forest.Pairs (fun _ before after => ∀ phase ∈ Phase.states, before.hasPhase phase = true →
      (after.phase? phase).any Value.isObject = true ∨
        ∃ limitation ∈ told.limitations, limitation.construct = "variants" ∧ limitation.location? = before.location?)
      component.elements converted.elements := by
  obtain ⟨staggered, noted, expanded, after, remarks⟩ := convert_eq_ok done
  have spelledAgain : ∀ motion ∈ component.elements.motions, motion.Respelled (Convert.phases .js motion).1 :=
    fun motion member => Convert.respelled_phases (named motion member)
  have first : Forest.Pairs (fun _ => Motion.Respelled) component.elements (spelled .js component.elements) :=
    Forest.pairs_map spelledAgain
  have second : Forest.Pairs (fun _ => Labels.Keeps (resolveLabels .js (spelled .js component.elements)).2)
      (spelled .js component.elements) (labelled .js component.elements) := by
    refine Labels.pairs_resolveEach [] none _ (fun motion member => ?_) fun _ => id
    change motion ∈ (spelled .js component.elements).motions at member
    rw [spelled, Forest.motions_map] at member
    obtain ⟨own, known, rfl⟩ := List.mem_map.mp member
    exact (traced own known).respelled (spelledAgain own known)
  have third : Forest.Pairs (fun _ own after => own.phases.DiffersAt Phase.transition.name after.phases)
      (labelled .js component.elements) staggered := (pairs_expandStagger expanded).mono fun _ _ _ => Motion.Staggered.differs
  have fourth : Forest.Pairs (fun _ own after => after = { own with attributes := after.attributes }) staggered
      converted.elements := by
    rw [after]
    exact Forest.pairs_map fun motion _ => carryOver_fst .js component.bindings motion
  have written : Forest.Pairs (fun _ => Labels.Keeps (resolveLabels .js (spelled .js component.elements)).2)
      (spelled .js component.elements) staggered := by
    refine second.after third fun _ own middle last keeps differs phase state here => ?_
    rw [Motion.phase?, differs.get?_eq (Phase.name_ne_transition state)]
    exact keeps phase state here
  have carried : Forest.Pairs (fun _ => Labels.Keeps (resolveLabels .js (spelled .js component.elements)).2)
      (spelled .js component.elements) converted.elements := by
    refine written.after fourth fun _ own middle last keeps attributes => ?_
    rw [attributes]
    exact keeps
  refine first.before carried fun _ _ own middle last _ respelled keeps phase state here => ?_
  rw [Motion.hasPhase, Fields.has, show own.phases.get? phase.name = _ from (respelled.shared phase).symm] at here
  rcases keeps phase state here with kept | ⟨message, member⟩
  · exact .inl kept
  · have place : middle.location? = own.location? := by
      have same := congrArg Motion.location? respelled.same
      exact same
    refine .inr ⟨⟨"variants", message, middle.location?⟩, ?_, rfl, place⟩
    rw [remarks]
    refine mem_limitations_of_mem (List.mem_append_left _ (List.mem_append_left _ ?_))
    unfold forestRemarks
    simp [show Remark.limitation ⟨"variants", message, middle.location?⟩ ∈ _ from member]

end Component

end AnimationCode
