/-
**Reports that find nothing wrong.**

A report is valid if it tells of no error, and only the check of form finds errors: those about the options of transitions and
about the properties of states. So a valid report says that both are well typed, wherever the check looks. Inside a transition
it looks at what is said for a property, and only if that is written out. Options that are given to the layout or by default,
and guarded ones, are taken as they are.

* `Transition.Inside`, `Transition.Looked`: the options inside a transition, and those of them that are looked at;
* `Transition.IsTimed`: a transition in which the options looked at are well typed;
* `Motion.IsWellTyped`: a motion with such transitions and with numbers where there have to be some;
* `Shape.areMild_ofEntries`: no error is found about options that are well typed, and about others one is;
* `Shape.areMild_ofForest`: the same of a forest;
* `Report.valid_iff_areMild`: a report is valid if none of the findings is an error;
* `Report.valid_iff_isWellTyped`: what a valid report says of a component.
-/

import AnimationCode.Proofs.Analysis.Report
import AnimationCode.Proofs.Analysis.Shape

namespace AnimationCode

/-- A value that an option may have: a number or an expression, unless the option is no number. -/
def Timing.IsFit (name : String) (value : Value) : Prop :=
  name ∈ numericOptions → value.isNumber = true ∨ value.isCode = true

namespace Transition

variable {outer entries : Fields Value}

/-- Options and what is written out inside them, guarded or not, at any depth. -/
inductive Inside : Fields Value → Fields Value → Prop
  | here (entries : Fields Value) : Inside entries entries
  | under {outer inner entries : Fields Value} {name : String} {value : Value} (member : (name, value) ∈ outer)
      (written : value.unguarded = .object inner) (inside : Inside inner entries) : Inside outer entries

/-- Options and what is written out inside them for a property, without a guard, at any depth. -/
inductive Looked : Fields Value → Fields Value → Prop
  | here (entries : Fields Value) : Looked entries entries
  | under {outer inner entries : Fields Value} {name : String} (member : (name, .object inner) ∈ outer)
      (animatable : name ∈ Property.animatable) (inside : Looked inner entries) : Looked outer entries

/-- Options inside which all that is written out is said for a property, without a guard. -/
def IsPerProperty (options : Fields Value) : Prop :=
  ∀ entries, Inside options entries → ∀ field ∈ entries, ∀ inner, field.2.unguarded = .object inner →
    field.1 ∈ Property.animatable ∧ field.2 = .object inner

/-- Options that are well typed, and so are those inside them that are looked at. -/
def AreTimed (options : Fields Value) : Prop :=
  ∀ entries, Looked options entries → ∀ field ∈ entries, Timing.IsFit field.1 field.2

/-- A transition, an outer guard aside: an expression, or options that are well typed. -/
def IsTimed (options : Value) : Prop :=
  options.unguarded.isCode = true ∨ ∃ entries, options.unguarded = .object entries ∧ AreTimed entries

theorem areTimed_iff : AreTimed entries ↔ ∀ field ∈ entries, Timing.IsFit field.1 field.2 ∧
    ∀ inner, field.2 = .object inner → field.1 ∈ Property.animatable → AreTimed inner := by
  constructor
  · refine fun timed field member => ⟨timed _ (.here entries) field member, fun inner same animatable nested inside => ?_⟩
    obtain ⟨name, value⟩ := field
    cases same
    exact timed _ (.under member animatable inside)
  · intro each nested inside
    cases inside with
    | here => exact fun field member => (each field member).1
    | under member animatable inside => exact (each _ member).2 _ rfl animatable _ inside

theorem areTimed_nil : AreTimed [] := areTimed_iff.mpr (List.forall_mem_nil _)

theorem areTimed_cons {name : String} {value : Value} : AreTimed ((name, value) :: entries) ↔
    (Timing.IsFit name value ∧ ∀ inner, value = .object inner → name ∈ Property.animatable → AreTimed inner) ∧
      AreTimed entries := by
  rw [areTimed_iff, List.forall_mem_cons, ← areTimed_iff]

/-- Where all is said for properties, all is looked at. -/
theorem Inside.looked (inside : Inside outer entries) (perProperty : IsPerProperty outer) : Looked outer entries := by
  induction inside with
  | here entries => exact .here entries
  | @under outer inner entries name value member written _ ih =>
    obtain ⟨animatable, rfl⟩ := perProperty outer (.here outer) _ member inner written
    exact .under member animatable (ih fun nested deeper => perProperty nested (.under member written deeper))

end Transition

/-! ### Motions -/

namespace Motion

variable {motion : Motion}

/-- Properties that are written out for a state or a variant of a motion. -/
inductive WritesState (motion : Motion) (state : Fields Value) : Prop
  | phase {phase : Phase} (isState : phase ∈ Phase.states) (member : (phase.name, .object state) ∈ motion.phases)
  | variant {variants : Fields Value} {name : String} (declared : (Phase.variants.name, .object variants) ∈ motion.phases)
      (member : (name, .object state) ∈ variants)

/-- What a motion is given as its transition, by itself or inside one of its states. -/
inductive WritesTransition (motion : Motion) (options : Value) : Prop
  | own (member : (Phase.transition.name, options) ∈ motion.phases)
  | nested {state : Fields Value} (inside : motion.WritesState state) (member : (Phase.transition.name, options) ∈ state)

/-- A value that a property may have: numbers or expressions, unless the property is no number. -/
def IsNumericWhereDue (name : String) (value : Value) : Prop :=
  name ∈ Property.numeric → ∀ frame ∈ Shape.frames value, Shape.isNumericFrame frame = true

/-- A motion with transitions that are well typed where they are looked at, and with numbers for the properties that are
numbers. -/
structure IsWellTyped (motion : Motion) : Prop where
  transitions : ∀ options, motion.WritesTransition options → Transition.IsTimed options
  properties : ∀ state, motion.WritesState state → ∀ field ∈ state, IsNumericWhereDue field.1 field.2

/-- A state in which the transition is well typed and numbers are where they have to be. -/
def IsSoundState (state : Fields Value) : Prop :=
  ∀ field ∈ state, (field.1 = Phase.transition.name → Transition.IsTimed field.2) ∧ IsNumericWhereDue field.1 field.2

theorem isWellTyped_iff : motion.IsWellTyped ↔
    (∀ options, (Phase.transition.name, options) ∈ motion.phases → Transition.IsTimed options) ∧
      ∀ state, motion.WritesState state → IsSoundState state := by
  constructor
  · rintro ⟨transitions, properties⟩
    refine ⟨fun options member => transitions options (.own member), fun state inside field member => ⟨?_, ?_⟩⟩
    · obtain ⟨name, options⟩ := field
      rintro rfl
      exact transitions options (.nested inside member)
    · exact properties state inside field member
  · rintro ⟨own, states⟩
    refine ⟨fun options writes => ?_, fun state inside field member => (states state inside field member).2⟩
    cases writes with
    | own member => exact own options member
    | nested inside member => exact (states _ inside _ member).1 rfl

end Motion

namespace Shape

variable {longest : Binary64} {place : Option Location} {path name phase : String} {value : Value}
  {declared : Option (List String)}

/-- Findings none of which is an error. -/
def AreMild (findings : List Finding) : Prop := ∀ finding ∈ findings, finding.level ≠ .error

theorem areMild_nil : AreMild [] := List.forall_mem_nil _

theorem areMild_singleton {finding : Finding} : AreMild [finding] ↔ finding.level ≠ .error := List.forall_mem_singleton

theorem areMild_append {findings more : List Finding} : AreMild (findings ++ more) ↔ AreMild findings ∧ AreMild more :=
  List.forall_mem_append

theorem areMild_flatMap {α : Type} {items : List α} {check : α → List Finding} :
    AreMild (items.flatMap check) ↔ ∀ item ∈ items, AreMild (check item) := List.forall_mem_flatMap

theorem areMild_warning {rule message : String} : AreMild [finding place rule .warning message] :=
  areMild_singleton.mpr nofun

/-! ### Options -/

/-- An option that is a number is known, and is no property. -/
theorem numericOption_known (numeric : name ∈ Timing.numericOptions) :
    name ∈ Timing.options ∧ name ∉ Property.animatable := by
  have all : ∀ name ∈ Timing.numericOptions, name ∈ Timing.options ∧ name ∉ Property.animatable := by decide
  exact all name numeric

theorem areMild_ofOption : AreMild (ofOption longest place path name value) ↔ Timing.IsFit name value := by
  unfold ofOption
  by_cases known : Timing.options.contains name = true
  · rw [if_neg (by simpa using known)]
    by_cases unfit : (Timing.numericOptions.contains name && !value.isNumber && !value.isCode) = true
    · rw [if_pos unfit]
      simp only [Bool.and_eq_true, List.contains_iff_mem, Bool.not_eq_true'] at unfit
      obtain ⟨⟨numeric, noNumber⟩, noCode⟩ := unfit
      refine ⟨fun mild => absurd rfl (areMild_singleton.mp mild), fun fit => ?_⟩
      rcases fit numeric with number | code
      · rw [number] at noNumber
        cases noNumber
      · rw [code] at noCode
        cases noCode
    · rw [if_neg unfit]
      have fit : Timing.IsFit name value := by
        simp only [Bool.and_eq_true, List.contains_iff_mem, Bool.not_eq_true'] at unfit
        intro numeric
        by_contra neither
        simp only [not_or, Bool.not_eq_true] at neither
        exact unfit ⟨⟨numeric, neither.1⟩, neither.2⟩
      refine ⟨fun _ => fit, fun _ => ?_⟩
      split
      · exact areMild_warning
      · exact areMild_nil
  · -- an option that is not known is only warned of, and is no number
    rw [if_pos (by simpa using known)]
    refine ⟨fun _ numeric => ?_, fun _ => areMild_warning⟩
    exact absurd (List.contains_iff_mem.mpr (numericOption_known numeric).1) known

/-- No error is found about options that are well typed where they are looked at, and about others one is. -/
theorem areMild_ofEntries (entries : Fields Value) :
    AreMild (ofEntries longest place path entries) ↔ Transition.AreTimed entries := by
  fun_induction ofEntries longest place path entries with
  | case1 path => exact ⟨fun _ => Transition.areTimed_nil, fun _ => areMild_nil⟩
  | case2 path name inner rest ihInner ihRest =>
    rw [areMild_append, ihRest, Transition.areTimed_cons]
    refine and_congr_left fun _ => ?_
    by_cases animatable : Property.animatable.contains name = true
    · have member := List.contains_iff_mem.mp animatable
      rw [if_pos animatable, ihInner]
      constructor
      · refine fun timed => ⟨fun numeric => absurd member (numericOption_known numeric).2, fun other same _ => ?_⟩
        cases same
        exact timed
      · exact fun both => both.2 inner rfl member
    · rw [if_neg animatable, areMild_ofOption]
      exact (and_iff_left fun _ _ member => absurd (List.contains_iff_mem.mpr member) animatable).symm
  | case3 path name value rest noObject ihRest =>
    rw [areMild_append, ihRest, Transition.areTimed_cons, areMild_ofOption]
    exact and_congr_left fun _ => (and_iff_left fun inner same _ => absurd same (noObject inner)).symm

theorem areMild_ofOptions (options : Value) :
    AreMild (ofOptions longest place path options) ↔ Transition.IsTimed options := by
  unfold ofOptions Transition.IsTimed
  cases options.unguarded with
  | code source => exact ⟨fun _ => .inl rfl, fun _ => areMild_nil⟩
  | object entries =>
    rw [areMild_ofEntries]
    constructor
    · exact fun timed => .inr ⟨entries, rfl, timed⟩
    · rintro (code | ⟨others, same, timed⟩)
      · cases code
      · cases same
        exact timed
  | _ =>
    -- nothing else can be a transition
    refine ⟨fun mild => absurd rfl (areMild_singleton.mp mild), ?_⟩
    rintro (code | ⟨others, same, -⟩)
    · cases code
    · cases same

/-! ### States and phases -/

theorem numeric_animatable (numeric : name ∈ Property.numeric) :
    name ∈ Property.animatable ∧ name ≠ Phase.transition.name := by
  have all : ∀ name ∈ Property.numeric, name ∈ Property.animatable ∧ name ≠ Phase.transition.name := by decide
  exact all name numeric

theorem areMild_ofProperty : AreMild (ofProperty longest place path name value) ↔
    (name = Phase.transition.name → Transition.IsTimed value) ∧ Motion.IsNumericWhereDue name value := by
  unfold ofProperty
  by_cases isTransition : name = Phase.transition.name
  · rw [if_pos isTransition, areMild_ofOptions]
    exact ⟨fun timed => ⟨fun _ => timed, fun numeric => absurd isTransition (numeric_animatable numeric).2⟩,
      fun both => both.1 isTransition⟩
  · rw [if_neg isTransition]
    refine Iff.trans ?_ (and_iff_right fun same => absurd same isTransition).symm
    split
    · rename_i unknown
      refine ⟨fun _ numeric => ?_, fun _ => areMild_warning⟩
      have known := List.contains_iff_mem.mpr (numeric_animatable numeric).1
      rw [known] at unknown
      cases unknown
    · split
      · rename_i unfit
        simp only [Bool.and_eq_true, List.contains_iff_mem, Bool.not_eq_true'] at unfit
        refine ⟨fun mild => absurd rfl (areMild_singleton.mp mild), fun due => ?_⟩
        rw [List.all_eq_true.mpr (due unfit.1)] at unfit
        cases unfit.2
      · rename_i fit
        simp only [Bool.and_eq_true, List.contains_iff_mem, Bool.not_eq_true', not_and, Bool.not_eq_false] at fit
        exact ⟨fun _ numeric => List.all_eq_true.mp (fit numeric), fun _ => areMild_nil⟩

theorem areMild_ofState (state : Value) : AreMild (ofState longest place path state) ↔
    ∀ fields, state = .object fields → Motion.IsSoundState fields := by
  unfold ofState
  split
  · rename_i fields
    simp only [areMild_flatMap, areMild_ofProperty, Value.object.injEq, forall_eq', Motion.IsSoundState]
  · rename_i noObject
    exact ⟨fun _ fields same => absurd same (noObject fields), fun _ => areMild_nil⟩

theorem areMild_ofLabels : AreMild (ofLabels declared place phase value) := by
  unfold ofLabels
  split
  · exact areMild_nil
  · intro finding member
    obtain ⟨label, -, rfl⟩ := List.mem_map.mp member
    exact nofun

/-- No error is found about a phase whose transition or whose states are sound, and about others one is. -/
theorem areMild_ofPhase : AreMild (ofPhase longest declared place phase value) ↔
    (phase = Phase.transition.name → Transition.IsTimed value) ∧
    (phase = Phase.variants.name → ∀ variants, value = .object variants →
      ∀ field ∈ variants, ∀ state, field.2 = .object state → Motion.IsSoundState state) ∧
    (phase ∈ Phase.stateNames → ∀ state, value = .object state → Motion.IsSoundState state) := by
  have disjoint : Phase.transition.name ∈ Phase.names ∧ Phase.transition.name ≠ Phase.variants.name ∧
      Phase.transition.name ∉ Phase.stateNames ∧ Phase.variants.name ∈ Phase.names ∧
        Phase.variants.name ∉ Phase.stateNames ∧ ∀ name ∈ Phase.stateNames, name ∈ Phase.names := by decide
  obtain ⟨transitionKnown, noVariants, noState, variantsKnown, variantsNoState, stateKnown⟩ := disjoint
  unfold ofPhase
  by_cases known : phase ∈ Phase.names
  · rw [if_neg (by simpa using known)]
    by_cases isTransition : phase = Phase.transition.name
    · subst isTransition
      rw [if_pos rfl, areMild_ofOptions]
      exact ⟨fun timed => ⟨fun _ => timed, fun same => absurd same noVariants, fun member => absurd member noState⟩,
        fun all => all.1 rfl⟩
    · rw [if_neg isTransition]
      refine Iff.trans ?_ (and_iff_right fun same => absurd same isTransition).symm
      by_cases isVariants : phase = Phase.variants.name
      · subst isVariants
        refine Iff.trans ?_ (and_iff_left fun member => absurd member variantsNoState).symm
        split
        · rename_i variants
          simp only [if_true, areMild_flatMap, areMild_ofState, Value.object.injEq, forall_eq', forall_const]
        · rename_i noObject
          rw [if_pos rfl]
          exact ⟨fun _ _ variants same => absurd same (noObject variants), fun _ => areMild_nil⟩
      · have isState : phase ∈ Phase.stateNames := mem_stateNames_of_mem_names known isVariants isTransition
        refine Iff.trans ?_ (and_iff_right fun same => absurd same isVariants).symm
        refine Iff.trans ?_ (forall_prop_of_true isState).symm
        split
        · rename_i fields
          rw [if_neg isVariants, areMild_ofState]
        · rename_i noObject
          rw [if_neg isVariants]
          exact ⟨fun _ state same => absurd same (noObject state), fun _ => areMild_ofLabels⟩
  · -- a phase that is not known is only warned of
    rw [if_pos (by simpa using known)]
    refine ⟨fun _ => ⟨?_, ?_, fun isState => absurd (stateKnown phase isState) known⟩, fun _ => areMild_warning⟩
    · rintro rfl
      exact absurd transitionKnown known
    · rintro rfl
      exact absurd variantsKnown known

/-! ### Motions and forests -/

/-- No error is found about a motion that is well typed, and about others one is. -/
theorem areMild_ofMotion (motion : Motion) : AreMild (ofMotion longest declared motion) ↔ motion.IsWellTyped := by
  unfold ofMotion
  simp only [areMild_flatMap, areMild_ofPhase]
  rw [Motion.isWellTyped_iff]
  constructor
  · refine fun each => ⟨fun options member => (each _ member).1 rfl, fun state inside => ?_⟩
    cases inside with
    | phase isState member => exact (each _ member).2.2 (List.mem_map_of_mem isState) state rfl
    | variant declared member => exact (each _ declared).2.1 rfl _ rfl _ member state rfl
  · rintro ⟨own, states⟩ ⟨phase, value⟩ member
    refine ⟨?_, ?_, ?_⟩
    · rintro rfl
      exact own value member
    · rintro rfl variants rfl ⟨name, inner⟩ inside state rfl
      exact states state (.variant member inside)
    · rintro isState state rfl
      obtain ⟨phase, among, rfl⟩ := List.mem_map.mp isState
      exact states state (.phase among member)

mutual

theorem areMild_ofElement (inherited : Option (List String)) (element : Element) :
    AreMild (ofElement longest inherited element) ↔ ∀ motion ∈ element.motions, motion.IsWellTyped := by
  obtain ⟨own, children⟩ := element
  rw [ofElement, Element.motions, areMild_append, areMild_ofMotion, areMild_ofForest, List.forall_mem_cons]

/-- No error is found about a forest whose motions are well typed, and about others one is. -/
theorem areMild_ofForest (inherited : Option (List String)) (forest : List Element) :
    AreMild (ofForest longest inherited forest) ↔ ∀ motion ∈ Element.motionsEach forest, motion.IsWellTyped := by
  match forest with
  | [] => exact ⟨fun _ => List.forall_mem_nil _, fun _ => areMild_nil⟩
  | element :: rest =>
    rw [ofForest, Element.motionsEach, areMild_append, areMild_ofElement, areMild_ofForest, List.forall_mem_append]

end

end Shape

namespace Report

open Shape (AreMild)

variable {component : Component} {rules : List String} {thresholds weights : Fields Value} {findings : List Finding}
  {report : Report}

/-! ### The other findings -/

theorem areMild_performance {forest : Forest} (made : Performance.detect thresholds forest = .ok findings) :
    AreMild findings := by
  obtain ⟨long, longest, -⟩ := Outcome.bind_eq_ok.mp made
  obtain ⟨-, rfl⟩ := (Performance.detect_eq_ok_iff longest).mp made
  refine Shape.areMild_flatMap.mpr fun motion _ =>
    Shape.areMild_append.mpr ⟨fun finding member => ?_, fun finding member => ?_⟩
  · obtain ⟨property, -, rfl⟩ := List.mem_map.mp member
    exact nofun
  · obtain ⟨seconds, -, rfl⟩ := Option.map_eq_some_iff.mp (Option.mem_toList.mp member)
    exact nofun

theorem areMild_accessibility {forest : Forest} (made : Accessibility.detect thresholds forest = .ok findings) :
    AreMild findings := by
  obtain ⟨short, shortest, -⟩ := Outcome.bind_eq_ok.mp made
  obtain ⟨-, rfl⟩ := (Accessibility.detect_eq_ok_iff shortest).mp made
  refine Shape.areMild_flatMap.mpr fun motion _ => Shape.areMild_append.mpr ⟨?_, ?_⟩
  · split
    · exact Shape.areMild_singleton.mpr nofun
    · exact Shape.areMild_nil
  · split
    · exact Shape.areMild_singleton.mpr nofun
    · exact Shape.areMild_nil

theorem areMild_bestPractice (component : Component) : AreMild (bestPractice component) := by
  unfold bestPractice
  split
  · split
    · exact Shape.areMild_nil
    · exact Shape.areMild_singleton.mpr nofun
  · exact Shape.areMild_nil

/-- The findings about a forest are no errors if its motions are well typed, and only then. -/
theorem areMild_check {forest : Forest} (made : check thresholds forest = .ok findings) :
    AreMild findings ↔ ∀ motion ∈ forest.motions, motion.IsWellTyped := by
  obtain ⟨told, -, made⟩ := Outcome.bind_eq_ok.mp made
  obtain ⟨shape, found, made⟩ := Outcome.bind_eq_ok.mp made
  obtain ⟨_, writable, made⟩ := Outcome.bind_eq_ok.mp made
  obtain ⟨-, rfl⟩ := Value.whenWritable_eq_ok.mp writable
  obtain ⟨performance, busy, made⟩ := Outcome.bind_eq_ok.mp made
  obtain ⟨accessibility, barred, made⟩ := Outcome.bind_eq_ok.mp made
  cases made
  obtain ⟨longest, -, found⟩ := Outcome.bind_eq_ok.mp found
  cases found
  rw [Shape.areMild_append, Shape.areMild_append, Shape.areMild_ofForest]
  exact ⟨fun all => all.1.1, fun typed => ⟨⟨typed, areMild_performance busy⟩, areMild_accessibility barred⟩⟩

/-! ### Issues -/

/-- The issues that are told are those that the findings are. -/
theorem issuesOf_eq_ok {issues : List Issue} (told : issuesOf findings = .ok issues) :
    issues = findings.filterMap issue? := by
  induction findings generalizing issues with
  | nil => exact (Except.ok.inj told).symm
  | cons finding rest ih =>
    rw [issuesOf] at told
    cases here : issue? finding with
    | none =>
      rw [here] at told
      rw [List.filterMap_cons_none here]
      exact ih told
    | some issue =>
      rw [here] at told
      rw [List.filterMap_cons_some here]
      dsimp only at told
      split at told
      · obtain ⟨others, later, same⟩ := Outcome.bind_eq_ok.mp told
        cases same
        rw [ih later]
      · cases told

/-- A report is valid if none of the findings is an error. -/
theorem valid_iff_areMild {weights : Weights} (made : ofFindings weights findings = .ok report) :
    report.valid = true ↔ AreMild findings := by
  obtain ⟨told, valid, -⟩ := ofFindings_eq_ok made
  rw [valid, issuesOf_eq_ok told, List.all_eq_true]
  constructor
  · intro sound finding member error
    have issue : issue? finding = some ⟨.error, finding.message, finding.rule, finding.location?⟩ := by
      rw [issue?, error]
    have mild := sound _ (List.mem_filterMap.mpr ⟨finding, member, issue⟩)
    cases mild
  · intro mild issue member
    obtain ⟨finding, here, told_⟩ := List.mem_filterMap.mp member
    rw [(issue?_eq_some told_).1]
    simpa using mild finding here

/-- A lenient report on a component is valid if every motion is well typed where the check looks, and only then. So if it is,
and all that a transition has inside is said for a property, every option that is a number is one at any depth. -/
theorem valid_iff_isWellTyped (made : ofComponent component rules false thresholds weights = .ok report) :
    (report.valid = true ↔ ∀ motion ∈ component.elements.motions, motion.IsWellTyped) ∧
      (report.valid = true → ∀ motion ∈ component.elements.motions, ∀ options, motion.WritesTransition options →
        options.unguarded.isCode = true ∨ ∃ entries, options.unguarded = .object entries ∧
          (Transition.IsPerProperty entries → ∀ nested, Transition.Inside entries nested →
            ∀ field ∈ nested, Timing.IsFit field.1 field.2)) := by
  obtain ⟨findings, checked, made⟩ := Outcome.bind_eq_ok.mp made
  obtain ⟨merged, -, made⟩ := Outcome.bind_eq_ok.mp made
  rw [if_neg Bool.false_ne_true] at made
  have valid : report.valid = true ↔ ∀ motion ∈ component.elements.motions, motion.IsWellTyped := by
    rw [valid_iff_areMild made, Shape.areMild_append, areMild_check checked]
    exact and_iff_left (areMild_bestPractice component)
  refine ⟨valid, fun sound motion member options writes => ?_⟩
  rcases (valid.mp sound motion member).transitions options writes with code | ⟨entries, written, timed⟩
  · exact .inl code
  · exact .inr ⟨entries, written, fun perProperty nested inside => timed nested (inside.looked perProperty)⟩

/-- A component of one element, whose layout is to change in no number of seconds. -/
def hastyLayout : Component :=
  Component.ofForest .react false "Box"
    [⟨{ Motion.ofTag "div" with phases := [("transition", .object [("layout", .object [("duration", .text "fast")])])] }, []⟩]

/-- What is given to the layout is not looked at. -/
theorem detect_hastyLayout : Shape.detect [] hastyLayout.elements = .ok [] := by
  have longest : Threshold.longest [] = .ok (Binary64.ofDecimal false 10 0) := rfl
  have known : Phase.names.contains "transition" = true ∧ Property.animatable.contains "layout" = false ∧
      Timing.options.contains "layout" = true ∧ Timing.numericOptions.contains "layout" = false := by decide +kernel
  obtain ⟨phase, noProperty, option, noNumber⟩ := known
  have found : Shape.ofPhase (Binary64.ofDecimal false 10 0) none none "transition"
      (.object [("layout", .object [("duration", .text "fast")])]) = [] := by
    rw [Shape.ofPhase, phase]
    show Shape.ofEntries _ none "transition" [("layout", .object [("duration", .text "fast")])] = []
    rw [Shape.ofEntries, Shape.ofEntries, noProperty, if_neg Bool.false_ne_true, Shape.ofOption, option, noNumber]
    rfl
  rw [Shape.detect, longest]
  show Except.ok (((Shape.ofPhase _ none none "transition" _ ++ []) ++ []) ++ []) = _
  rw [found]
  rfl

/-- The report on such a component is valid, although a duration inside the transition is no number. -/
theorem valid_iff_isWellTyped_hastyLayout : ∃ report, ofComponent hastyLayout [] false [] [] = .ok report ∧
    report.valid = true ∧ (∀ motion ∈ hastyLayout.elements.motions, motion.IsWellTyped) ∧
      ∃ motion ∈ hastyLayout.elements.motions, ∃ entries nested, motion.WritesTransition (.object entries) ∧
        Transition.Inside entries nested ∧ ∃ field ∈ nested, ¬ Timing.IsFit field.1 field.2 := by
  have told : (ofComponent hastyLayout [] false [] []).toOption.map Report.valid = some true := by
    unfold ofComponent check
    rw [detect_hastyLayout]
    decide +kernel
  obtain ⟨report, made, valid⟩ :
      ∃ report, ofComponent hastyLayout [] false [] [] = .ok report ∧ report.valid = true := by
    revert told
    cases ofComponent hastyLayout [] false [] [] with
    | error failure => exact nofun
    | ok report => exact fun told => ⟨report, rfl, Option.some.inj told⟩
  refine ⟨report, made, valid, (valid_iff_isWellTyped made).1.mp valid, _, List.mem_singleton.mpr rfl, _,
    [("duration", .text "fast")], .own List.mem_cons_self, .under List.mem_cons_self rfl (.here _), _, List.mem_cons_self,
    fun fit => ?_⟩
  rcases fit (by decide) with number | code
  · cases number
  · cases code

end Report

end AnimationCode
