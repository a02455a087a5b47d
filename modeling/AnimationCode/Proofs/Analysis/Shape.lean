/-
**What the check of form can find in sound phases.**

Findings about options and properties are of three rules. The two others are about phases: that one is not known, and that a
label is not declared. Where the phases of a motion are sound, as those of a pattern are, neither of these two is found.

* `Shape.IsOfContent`: the findings about options and properties;
* `Shape.forall_ofOptions`, `Shape.forall_ofState`: what holds of them holds of all that is found about a transition or a
  state;
* `Shape.ofLabels_eq_nil`: nothing is found about declared labels;
* `Shape.isOfContent_ofMotion`: nothing but content is wrong with a motion whose phases are sound.
-/

import AnimationCode.Analysis.Shape
import AnimationCode.Proofs.Pattern.Merge

namespace AnimationCode

namespace Shape

/-- The rules about options and properties. -/
def contentRules : List String := ["unknown-property", "invalid-value-type", "duration-range"]

/-- Findings about options and properties alone. -/
def IsOfContent (findings : List Finding) : Prop := ∀ finding ∈ findings, finding.rule ∈ contentRules

variable {longest : Binary64} {place : Option Location} {path name phase : String} {value : Value}

theorem isOfContent_nil : IsOfContent [] := List.forall_mem_nil _

theorem isOfContent_flatMap {α : Type} {items : List α} {check : α → List Finding}
    (each : ∀ item ∈ items, IsOfContent (check item)) : IsOfContent (items.flatMap check) := by
  intro finding member
  obtain ⟨item, among, found⟩ := List.mem_flatMap.mp member
  exact each item among finding found

/-! ### Transitions and states -/

/-- What holds of a finding at a place about options or properties, whatever it says. -/
def OfContentAt (place : Option Location) (holds : Finding → Prop) : Prop :=
  ∀ rule ∈ contentRules, ∀ level message hint?, holds ⟨rule, "shape", level, message, place, hint?⟩

variable {holds : Finding → Prop} (each : OfContentAt place holds)

include each

theorem forall_ofOption : ∀ finding ∈ ofOption longest place path name value, holds finding := by
  unfold ofOption
  split
  · exact List.forall_mem_singleton.mpr (each _ (by decide) _ _ _)
  · split
    · exact List.forall_mem_singleton.mpr (each "invalid-value-type" (by decide) _ _ _)
    · split
      · exact List.forall_mem_singleton.mpr (each _ (by decide) _ _ _)
      · exact List.forall_mem_nil _

theorem forall_ofEntries (entries : List (String × Value)) : ∀ finding ∈ ofEntries longest place path entries, holds finding := by
  -- Options inside options are looked at under a longer path.
  fun_induction ofEntries longest place path entries with
  | case1 path => exact List.forall_mem_nil _
  | case2 path name inner rest ihInner ihRest =>
    by_cases animatable : Property.animatable.contains name = true
    · rw [if_pos animatable]
      exact List.forall_mem_append.mpr ⟨ihInner, ihRest⟩
    · rw [if_neg animatable]
      exact List.forall_mem_append.mpr ⟨forall_ofOption each, ihRest⟩
  | case3 path name value rest noObject ihRest => exact List.forall_mem_append.mpr ⟨forall_ofOption each, ihRest⟩

/-- All that is found about a transition is about its options. -/
theorem forall_ofOptions (options : Value) : ∀ finding ∈ ofOptions longest place path options, holds finding := by
  unfold ofOptions
  split
  · exact List.forall_mem_nil _
  · exact forall_ofEntries each _
  · exact List.forall_mem_singleton.mpr (each _ (by decide) _ _ _)

theorem forall_ofProperty : ∀ finding ∈ ofProperty longest place path name value, holds finding := by
  unfold ofProperty
  split
  · exact forall_ofOptions each _
  · split
    · exact List.forall_mem_singleton.mpr (each _ (by decide) _ _ _)
    · split
      · exact List.forall_mem_singleton.mpr (each _ (by decide) _ _ _)
      · exact List.forall_mem_nil _

/-- All that is found about a state is about its properties. -/
theorem forall_ofState (state : Value) : ∀ finding ∈ ofState longest place path state, holds finding := by
  unfold ofState
  split
  · intro finding member
    obtain ⟨field, -, found⟩ := List.mem_flatMap.mp member
    exact forall_ofProperty each finding found
  · exact List.forall_mem_nil _

omit each

theorem content_ofContentAt : OfContentAt place fun finding => finding.rule ∈ contentRules := fun _ among _ _ _ => among

/-! ### Labels -/

theorem filterMap_of_mapM {α β : Type} {read : α → Option β} {items : List α} {results : List β}
    (each : items.mapM read = some results) : items.filterMap read = results := by
  induction items generalizing results with
  | nil =>
    rw [List.mapM_nil] at each
    exact Option.some.inj each
  | cons item rest ih =>
    rw [List.mapM_cons] at each
    obtain ⟨result, here, later⟩ := Option.bind_eq_some_iff.mp each
    obtain ⟨others, made, same⟩ := Option.bind_eq_some_iff.mp later
    rw [List.filterMap_cons_some here, ih made]
    exact Option.some.inj same

/-- Nothing is found about labels that are declared. -/
theorem ofLabels_eq_nil {declared labels : List String} (named : Config.labels? value = some labels)
    (known : labels ⊆ declared) : ofLabels (some declared) place phase value = [] := by
  have none_ : labels.filter (!declared.contains ·) = [] := (Config.filter_eq_nil_iff_subset declared labels).mpr known
  unfold Config.labels? at named
  split at named
  · obtain rfl := Option.some.inj named
    rw [ofLabels]
    simp only [none_, List.map_nil]
  · cases named
  · rw [ofLabels]
    simp only [filterMap_of_mapM named, none_, List.map_nil]
  · cases named

/-! ### Motions with sound phases -/

/-- The variants that are declared at a motion whose phases are sound are those of its own. -/
theorem ofLabels_declaredAt {motion : Motion} (sound : Config.IsSound motion.phases)
    (isState : Config.IsState (Config.variantNames motion.phases) value) (notObject : value.isObject = false) :
    ofLabels (declaredAt none motion) place phase value = [] := by
  unfold declaredAt Motion.phase?
  unfold Config.variantNames at isState
  cases said : Fields.get? motion.phases Phase.variants.name with
  | none => rfl
  | some declared =>
    obtain ⟨variants, rfl⟩ := sound.variants said
    rw [said] at isState
    rcases isState with object | ⟨labels, named, known⟩
    · rw [object] at notObject
      cases notObject
    · exact ofLabels_eq_nil named known

theorem mem_stateNames_of_mem_names (known : phase ∈ Phase.names) (noVariants : phase ≠ Phase.variants.name)
    (noTransition : phase ≠ Phase.transition.name) : phase ∈ Phase.stateNames := by
  have all : ∀ name ∈ Phase.names, name = Phase.variants.name ∨ name = Phase.transition.name ∨ name ∈ Phase.stateNames := by
    decide
  rcases all phase known with same | same | state
  · exact absurd same noVariants
  · exact absurd same noTransition
  · exact state

/-- Nothing but content is wrong with a motion whose phases are sound. -/
theorem isOfContent_ofMotion {motion : Motion} (named : motion.phases.keys.Nodup) (sound : Config.IsSound motion.phases) :
    IsOfContent (ofMotion longest (declaredAt none motion) motion) := by
  refine isOfContent_flatMap fun (phase, value) member => ?_
  have said := Fields.get?_of_mem named member
  obtain ⟨known, form⟩ := Config.phaseDefect?_eq_none_iff.mp (sound.phase phase value said)
  have among : (!Phase.names.contains phase) = false := by simpa using known
  show IsOfContent (ofPhase _ _ _ phase value)
  unfold ofPhase
  rw [among, if_neg Bool.false_ne_true]
  by_cases isTransition : phase = Phase.transition.name
  · rw [if_pos isTransition]
    exact forall_ofOptions content_ofContentAt _
  · rw [if_neg isTransition]
    split
    · split
      · exact isOfContent_flatMap fun field _ => forall_ofState content_ofContentAt _
      · exact forall_ofState content_ofContentAt _
    · rename_i noObject
      split
      · exact isOfContent_nil
      · rename_i noVariants
        have notObject : value.isObject = false := by
          cases value with
          | object fields => exact absurd rfl (noObject fields)
          | _ => rfl
        have isState := sound.state phase (mem_stateNames_of_mem_names known noVariants isTransition) value said
        rw [ofLabels_declaredAt sound isState notObject]
        exact isOfContent_nil

end Shape

end AnimationCode
