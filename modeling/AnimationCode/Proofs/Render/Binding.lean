/-
**One binding for every name.**

An element that carries the directive has a binding for each of its phases but the transition, which is put into the state
that hosts it. Where no state can, the transition has a binding of its own, in which the element enters. That name is taken
twice if the element has a state to enter that hosts nothing, a label or an expression; all other names are taken once.

* `TemplateRender.Carries`, `TemplateRender.carries_directiveItems`: the one binding that carries the transition;
* `TemplateRender.HasDistinctNames`: names of phases and attributes that do not clash;
* `TemplateRender.HasDistinctNames.nodup_items`: no two bindings of phases and attributes have one name;
* `TemplateRender.bindsOnce_directiveItems`: how often each name is bound.
-/

import AnimationCode.Proofs.Fields
import AnimationCode.Proofs.Render.Directive

namespace AnimationCode

/-- A motion without a transition of its own. -/
def Motion.untimed (motion : Motion) : Motion := { motion with phases := motion.phases.erase Phase.transition.name }

namespace TemplateRender

variable {motion : Motion} {options : Value}

/-! ### The binding that carries the transition -/

/-- **Of two lists of attributes, one binding of the second carries a transition**, and nothing else differs. -/
inductive Carries (options : Value) : List Item → List Item → Prop
  | inState (before after : List Item) (name : String) (state : Fields Value) :
      Carries options (before ++ bound name (.object state) :: after)
        (before ++ bound name (.object (state.set Phase.transition.name options)) :: after)
  | alone (first : Item) (rest : List Item) :
      Carries options (first :: rest) (first :: bound "enter" (.object [(Phase.transition.name, options)]) :: rest)

/-- The phases that have a binding. -/
def boundPhases (motion : Motion) : List String := motion.orderedPhases.filter (· != Phase.transition.name)

/-- The bindings of the phases, given the transition that one of them may host. -/
def phaseItems (motion : Motion) (transition : Option Value) : List Item :=
  (boundPhases motion).map fun phase => bound (bindingName motion phase) (phaseValue motion transition phase)

/-- The binding that is there for the transition alone. -/
def loneItems (motion : Motion) : List Item :=
  match transition? motion with
  | some options => if (host? motion).isNone then [bound "enter" (.object [(Phase.transition.name, options)])] else []
  | none => []

theorem directiveItems_eq (motion : Motion) : directiveItems motion =
    ⟨"v-motion", none⟩ :: (loneItems motion ++ (phaseItems motion (transition? motion) ++ plainItems motion)) := by
  rw [← List.append_assoc]
  rfl

theorem mem_boundPhases_iff {phase : String} :
    phase ∈ boundPhases motion ↔ phase ∈ motion.phases.keys ∧ phase ≠ Phase.transition.name := by
  rw [boundPhases, List.mem_filter, bne_iff_ne]
  refine and_congr_left fun _ => ⟨fun member => ?_, fun member => ?_⟩
  · rcases List.mem_append.mp member with known | unknown
    · exact Fields.has_iff.mp (List.mem_filter.mp known).2
    · exact (List.mem_filter.mp unknown).1
  · obtain ⟨value, found⟩ := Option.isSome_iff_exists.mp (Fields.has_iff.mpr member)
    exact Motion.mem_orderedPhases_of_get? found

theorem get?_untimed {phase : String} (away : phase ≠ Phase.transition.name) :
    motion.untimed.phases.get? phase = motion.phases.get? phase := by
  rw [Motion.untimed, Fields.get?_erase, if_neg away]

theorem transition?_untimed (motion : Motion) : transition? motion.untimed = none := by
  have absent : motion.untimed.phase? .transition = none := by
    rw [Motion.phase?, Motion.untimed, Fields.get?_erase, if_pos rfl]
  rw [transition?, absent]

theorem boundPhases_untimed (motion : Motion) : boundPhases motion.untimed = boundPhases motion := by
  have still (phase : String) : (phase != Phase.transition.name && motion.untimed.phases.has phase) =
      (phase != Phase.transition.name && motion.phases.has phase) := by
    by_cases away : phase = Phase.transition.name
    · simp [away]
    · rw [Fields.has, Fields.has, get?_untimed away]
  have keys : motion.untimed.phases.keys = motion.phases.keys.filter (· != Phase.transition.name) := Fields.keys_erase _ _
  rw [boundPhases, boundPhases, Motion.orderedPhases, Motion.orderedPhases, List.filter_append, List.filter_append, keys]
  simp only [List.filter_filter, still]
  congr 2
  funext phase
  cases phase != Phase.transition.name <;> simp

/-- The bindings of the phases are the same ones before a state hosts the transition. -/
theorem directiveItems_untimed (motion : Motion) :
    directiveItems motion.untimed = ⟨"v-motion", none⟩ :: (phaseItems motion none ++ plainItems motion) := by
  have lone : loneItems motion.untimed = [] := by rw [loneItems, transition?_untimed]
  have phases : phaseItems motion.untimed none = phaseItems motion none := by
    rw [phaseItems, phaseItems, boundPhases_untimed]
    refine List.map_congr_left fun phase member => ?_
    have away := (mem_boundPhases_iff.mp member).2
    rw [phaseValue, phaseValue, get?_untimed away]
    rfl
  rw [directiveItems_eq, transition?_untimed, lone, phases]
  rfl

theorem phaseValue_of_not_host {phase : String} (elsewhere : host? motion ≠ some phase) (transition : Option Value) :
    phaseValue motion transition phase = phaseValue motion none phase := by
  cases transition with
  | none => rfl
  | some options => simp only [phaseValue, if_neg elsewhere]

/-- Where an element has a transition, one binding carries it. -/
theorem carries_directiveItems (named : motion.phases.keys.Nodup) (given : transition? motion = some options) :
    Carries options (directiveItems motion.untimed) (directiveItems motion) := by
  have others {phases : List String} (elsewhere : ∀ phase ∈ phases, host? motion ≠ some phase) :
      (phases.map fun phase => bound (bindingName motion phase) (phaseValue motion (some options) phase)) =
        phases.map fun phase => bound (bindingName motion phase) (phaseValue motion none phase) :=
    List.map_congr_left fun phase member => by rw [phaseValue_of_not_host (elsewhere phase member)]
  rw [directiveItems_untimed, directiveItems_eq, given]
  cases hosted : host? motion with
  | none =>
    have lone : loneItems motion = [bound "enter" (.object [(Phase.transition.name, options)])] := by
      rw [loneItems, given, hosted]
      rfl
    have same : phaseItems motion (some options) = phaseItems motion none := others fun phase _ => by rw [hosted]; nofun
    rw [lone, same]
    exact .alone _ _
  | some phase =>
    obtain ⟨host, isHost, rfl, state, found⟩ := host?_eq_some hosted
    have lone : loneItems motion = [] := by
      rw [loneItems, given, hosted]
      rfl
    obtain ⟨notVariants, notTransition⟩ := name_of_mem_hosts host isHost
    have member : host.name ∈ boundPhases motion :=
      List.mem_filter.mpr ⟨Motion.mem_orderedPhases_of_get? found, bne_iff_ne.mpr notTransition⟩
    have once : (boundPhases motion).Nodup := (Motion.nodup_orderedPhases named).filter _
    obtain ⟨before, after, split_⟩ := List.append_of_mem member
    rw [split_, List.nodup_append, List.nodup_cons] at once
    have first := others fun phase (known : phase ∈ before) => by
      rw [hosted]
      rintro same
      exact once.2.2 phase known _ List.mem_cons_self (Option.some.inj same).symm
    have last := others fun phase (known : phase ∈ after) => by
      rw [hosted]
      rintro same
      exact once.2.1.1 (Option.some.inj same ▸ known)
    have unhosted : phaseValue motion none host.name = .object state := phaseValue_of_state notVariants found none
    have carrying : phaseValue motion (some options) host.name = .object (Fields.set state Phase.transition.name options) := by
      rw [phaseValue_of_state notVariants found]
      exact congrArg Value.object (if_pos hosted)
    rw [lone, phaseItems, phaseItems, split_, List.map_append, List.map_append, List.map_cons, List.map_cons, first, last,
      unhosted, carrying]
    simp only [List.nil_append, List.append_assoc, List.cons_append]
    exact .inState (_ :: _) _ _ state

/-! ### The names that are bound -/

/-- The names under which known phases are bound. -/
def bindingNames : List String := "whileDrag" :: "visible" :: Phase.directiveSpellings.map Prod.snd

/-- The name of an attribute that is bound. -/
def boundName (name : String) : String := ":" ++ name

/-- Names that do not clash: each phase and each attribute is given once, an unknown phase is not called like the binding of a
known one, and no attribute like that of a phase. -/
structure HasDistinctNames (motion : Motion) : Prop where
  phases : motion.phases.keys.Nodup
  unknown : ∀ phase ∈ motion.phases.keys, phase ∉ Phase.names → phase ∉ bindingNames
  attributes : ((plainItems motion).map Item.name).Nodup
  apart : ∀ name ∈ (plainItems motion).map Item.name, name ≠ "v-motion" ∧
    ∀ phase, phase ∈ bindingNames ∨ phase ∈ motion.phases.keys → name ≠ boundName phase

/-- The name of a known phase is the only thing that its binding is called after. -/
theorem bindingName_known {phase : String} (known : phase ∈ Phase.names) (away : phase ≠ Phase.transition.name) :
    bindingName motion phase ∈ bindingNames ∧ (bindingName motion phase = "enter" ↔ phase = Phase.animate.name) ∧
      ∀ other ∈ Phase.names, other ≠ Phase.transition.name → bindingName motion phase = bindingName motion other → phase = other := by
  unfold bindingName
  generalize countsEveryTime motion = everyTime
  revert phase everyTime
  decide +kernel

theorem bindingName_unknown {phase : String} (unknown : phase ∉ Phase.names) : bindingName motion phase = phase := by
  have notDrag : phase ≠ Phase.drag.name := fun same => unknown (same ▸ by decide)
  have notInView : phase ≠ Phase.inView.name := fun same => unknown (same ▸ by decide)
  have unspelled : Phase.directiveSpellings.lookup phase = none := by
    refine List.lookup_eq_none_iff.mpr fun entry member => bne_iff_ne.mpr fun same => unknown ?_
    have spelled : ∀ entry ∈ Phase.directiveSpellings, entry.1 ∈ Phase.names := by decide
    exact same ▸ spelled entry member
  rw [bindingName, if_neg notDrag, if_neg fun both => notInView both.1, Phase.spelling, Phase.Style.spellings, unspelled,
    Option.getD_none]

theorem bindingName_among {phase : String} (here : phase ∈ boundPhases motion) :
    bindingName motion phase ∈ bindingNames ∨ bindingName motion phase ∈ motion.phases.keys := by
  obtain ⟨key, away⟩ := mem_boundPhases_iff.mp here
  by_cases known : phase ∈ Phase.names
  · exact .inl (bindingName_known known away).1
  · exact .inr (by rwa [bindingName_unknown known])

theorem names_items (transition : Option Value) : (phaseItems motion transition ++ plainItems motion).map Item.name =
    (boundPhases motion).map (fun phase => boundName (bindingName motion phase)) ++ (plainItems motion).map Item.name := by
  rw [List.map_append, phaseItems, List.map_map]
  rfl

theorem boundName_inj {name other : String} (same : boundName name = boundName other) : name = other :=
  (String.append_right_inj _).mp same

/-- A binding begins with a colon. -/
theorem ne_boundName {other : String} (begins : other.toList.head? ≠ some ':') (name : String) : other ≠ boundName name := by
  rintro rfl
  rw [boundName, String.toList_append] at begins
  exact begins rfl

namespace HasDistinctNames

variable (distinct : HasDistinctNames motion) {phase other : String}

include distinct

theorem bindingName_inj (here : phase ∈ boundPhases motion) (there : other ∈ boundPhases motion)
    (same : bindingName motion phase = bindingName motion other) : phase = other := by
  obtain ⟨key, away⟩ := mem_boundPhases_iff.mp here
  obtain ⟨otherKey, otherAway⟩ := mem_boundPhases_iff.mp there
  by_cases known : phase ∈ Phase.names
  · by_cases otherKnown : other ∈ Phase.names
    · exact (bindingName_known known away).2.2 other otherKnown otherAway same
    · rw [bindingName_unknown otherKnown] at same
      exact absurd (same ▸ (bindingName_known known away).1) (distinct.unknown other otherKey otherKnown)
  · by_cases otherKnown : other ∈ Phase.names
    · rw [bindingName_unknown known] at same
      exact absurd (same ▸ (bindingName_known otherKnown otherAway).1) (distinct.unknown phase key known)
    · rwa [bindingName_unknown known, bindingName_unknown otherKnown] at same

/-- An element enters in the state that it is animated to. -/
theorem bindingName_eq_enter_iff (here : phase ∈ boundPhases motion) :
    bindingName motion phase = "enter" ↔ phase = Phase.animate.name := by
  obtain ⟨key, away⟩ := mem_boundPhases_iff.mp here
  by_cases known : phase ∈ Phase.names
  · exact (bindingName_known known away).2.1
  · rw [bindingName_unknown known]
    constructor
    · rintro rfl
      exact absurd (by decide) (distinct.unknown "enter" key known)
    · rintro rfl
      exact absurd (by decide) known

/-- No two bindings of phases and attributes have one name. -/
theorem nodup_items (transition : Option Value) : ((phaseItems motion transition ++ plainItems motion).map Item.name).Nodup := by
  rw [names_items]
  refine List.nodup_append.mpr ⟨?_, distinct.attributes, ?_⟩
  · have once : (boundPhases motion).Nodup := (Motion.nodup_orderedPhases distinct.phases).filter _
    refine List.Nodup.map_on (fun phase here other there same => ?_) once
    exact distinct.bindingName_inj here there (boundName_inj same)
  · intro name bound other attribute_ same
    obtain ⟨phase, here, rfl⟩ := List.mem_map.mp bound
    exact (distinct.apart other attribute_).2 _ (bindingName_among here) same.symm

theorem enter_mem_iff (transition : Option Value) :
    boundName "enter" ∈ (phaseItems motion transition ++ plainItems motion).map Item.name ↔ motion.hasPhase .animate = true := by
  rw [names_items, List.mem_append, Motion.hasPhase, Fields.has_iff]
  constructor
  · rintro (phase | attribute_)
    · obtain ⟨phase, here, same⟩ := List.mem_map.mp phase
      have animate := (distinct.bindingName_eq_enter_iff here).mp (boundName_inj same)
      exact animate ▸ (mem_boundPhases_iff.mp here).1
    · exact absurd rfl ((distinct.apart _ attribute_).2 "enter" (.inl (by decide)))
  · intro key
    have here : Phase.animate.name ∈ boundPhases motion := mem_boundPhases_iff.mpr ⟨key, by decide⟩
    refine .inl (List.mem_map.mpr ⟨_, here, ?_⟩)
    rw [(distinct.bindingName_eq_enter_iff here).mpr rfl]

theorem directive_not_mem (transition : Option Value) :
    "v-motion" ∉ (phaseItems motion transition ++ plainItems motion).map Item.name := by
  rw [names_items, List.mem_append, not_or]
  refine ⟨fun phase => ?_, fun attribute_ => (distinct.apart _ attribute_).1 rfl⟩
  obtain ⟨phase, -, same⟩ := List.mem_map.mp phase
  exact ne_boundName (by decide) _ same.symm

end HasDistinctNames

/-- A transition that stands in a binding of its own. -/
def StandsAlone (motion : Motion) : Prop := (transition? motion).isSome = true ∧ host? motion = none

instance (motion : Motion) : Decidable (StandsAlone motion) := inferInstanceAs (Decidable (_ ∧ _))

/-- A transition that stands alone beside a state to enter. -/
def Doubles (motion : Motion) : Prop := StandsAlone motion ∧ motion.hasPhase .animate = true

instance (motion : Motion) : Decidable (Doubles motion) := inferInstanceAs (Decidable (_ ∧ _))

/-- The names of an element: that of the directive, the one in which it enters if its transition stands alone, and others. -/
theorem names_directiveItems (motion : Motion) : (directiveItems motion).map Item.name =
    "v-motion" :: ((if StandsAlone motion then [boundName "enter"] else []) ++
      (phaseItems motion (transition? motion) ++ plainItems motion).map Item.name) := by
  have lone : (loneItems motion).map Item.name = if StandsAlone motion then [boundName "enter"] else [] := by
    rw [loneItems]
    split
    · rename_i options given
      by_cases unhosted : host? motion = none
      · have alone : StandsAlone motion := ⟨Option.isSome_of_eq_some given, unhosted⟩
        rw [if_pos alone, if_pos (Option.isNone_iff_eq_none.mpr unhosted)]
        rfl
      · have hosted : ¬ StandsAlone motion := fun alone => unhosted alone.2
        rw [if_neg hosted, if_neg fun isNone => unhosted (Option.isNone_iff_eq_none.mp isNone)]
        rfl
    · rename_i silent
      have absent : ¬ StandsAlone motion := fun alone => Option.ne_none_iff_isSome.mpr alone.1 silent
      rw [if_neg absent]
      rfl
  rw [directiveItems_eq, List.map_cons, List.map_append, lone]

/-- **Each name is bound once, and the transition is in one binding.** Only where a transition that no state hosts meets a
state to enter, a label or an expression, is one name bound twice: the one in which the element enters. -/
theorem bindsOnce_directiveItems (distinct : HasDistinctNames motion) :
    (((directiveItems motion).map Item.name).Nodup ↔ ¬ Doubles motion) ∧
    (∀ phase ∈ motion.phases.keys, phase ≠ Phase.transition.name →
      ((directiveItems motion).map Item.name).count (boundName (bindingName motion phase)) =
        if phase = Phase.animate.name ∧ Doubles motion then 2 else 1) ∧
    ∀ options, transition? motion = some options → Carries options (directiveItems motion.untimed) (directiveItems motion) := by
  have once := distinct.nodup_items (transition? motion)
  have notFirst := distinct.directive_not_mem (transition? motion)
  have enter := distinct.enter_mem_iff (transition? motion)
  have counted : ∀ phase ∈ motion.phases.keys, phase ≠ Phase.transition.name →
      ((phaseItems motion (transition? motion) ++ plainItems motion).map Item.name).count
        (boundName (bindingName motion phase)) = 1 := by
    intro phase key away
    refine List.count_eq_one_of_mem once ?_
    rw [names_items]
    exact List.mem_append_left _ (List.mem_map_of_mem (mem_boundPhases_iff.mpr ⟨key, away⟩))
  rw [names_directiveItems]
  generalize (phaseItems motion (transition? motion) ++ plainItems motion).map Item.name = others at once notFirst enter counted ⊢
  refine ⟨?_, fun phase key away => ?_, fun options given => carries_directiveItems distinct.phases given⟩
  · by_cases alone : StandsAlone motion
    · have apart : "v-motion" ∉ boundName "enter" :: others :=
        List.not_mem_cons_of_ne_of_not_mem (ne_boundName (by decide) "enter") notFirst
      rw [if_pos alone, List.singleton_append, List.nodup_cons, List.nodup_cons, enter]
      exact ⟨fun free doubles => free.2.1 doubles.2, fun single => ⟨apart, fun animated => single ⟨alone, animated⟩, once⟩⟩
    · rw [if_neg alone, List.nil_append, List.nodup_cons]
      exact iff_of_true ⟨notFirst, once⟩ fun doubles => alone doubles.1
  · have entering := distinct.bindingName_eq_enter_iff (mem_boundPhases_iff.mpr ⟨key, away⟩)
    rw [List.count_cons_of_ne (ne_boundName (by decide) _), List.count_append, counted phase key away]
    by_cases doubles : phase = Phase.animate.name ∧ Doubles motion
    · rw [if_pos doubles, if_pos doubles.2.1, entering.mpr doubles.1, List.count_singleton_self]
    · have nothing : (if StandsAlone motion then [boundName "enter"] else []).count (boundName (bindingName motion phase)) = 0 := by
        split
        · rename_i alone
          refine List.count_eq_zero.mpr fun same => doubles ?_
          have animate := entering.mp (boundName_inj (List.mem_singleton.mp same))
          exact ⟨animate, alone, Fields.has_iff.mpr (animate ▸ key)⟩
        · exact List.count_nil
      rw [if_neg doubles, nothing]

/-- A button that is labelled as it enters and hosts its transition where it is hovered. -/
def labelledButton : Motion :=
  { Motion.ofTag "button" with
    phases := [("animate", .text "show"), ("hover", .object [("scale", .int 2)]), ("focused", .object [("x", .int 1)]),
      ("transition", .object [("duration", .int 1)])]
    attributes := [("className", .text "button"), ("onClick", .code "press")] }

theorem hasDistinctNames_labelledButton : HasDistinctNames labelledButton := by
  have names : (plainItems labelledButton).map Item.name = ["class", "@click"] := by decide +kernel
  have apart : ∀ name ∈ ["class", "@click"], name ≠ "v-motion" ∧ name.toList.head? ≠ some ':' := by decide
  refine ⟨by decide, by decide, names ▸ by decide, fun name member => ?_⟩
  obtain ⟨directive, plain⟩ := apart name (names ▸ member)
  exact ⟨directive, fun phase _ => ne_boundName plain phase⟩

/-- Each of its names is bound once. -/
theorem bindsOnce_directiveItems_labelledButton : HasDistinctNames labelledButton ∧
    (directiveItems labelledButton).map Item.name = ["v-motion", ":enter", ":hovered", ":focused", "class", "@click"] ∧
    ((directiveItems labelledButton).map Item.name).Nodup :=
  ⟨hasDistinctNames_labelledButton, by decide +kernel,
    (bindsOnce_directiveItems hasDistinctNames_labelledButton).1.mpr (by decide +kernel)⟩

-- without a state that hosts the transition, the name in which the element enters is bound twice
example : (directiveItems { labelledButton with phases := labelledButton.phases.erase "hover" }).map Item.name =
    ["v-motion", ":enter", ":enter", ":focused", "class", "@click"] := by decide +kernel

end TemplateRender

end AnimationCode
