/-
**Findings after an optimization.**

An optimization leaves the transitions of an element as they are, and of its attributes the style alone may differ. It
brings no property that makes the page lay itself out. So the checks find nothing that they did not find before, with
one exception: a size that gives way to a scale may now oscillate rapidly, unless the element was guarded as well.

* `Motion.Optimized`: what the optimizations for some aims make of a motion;
* `Component.pairs_optimize`: so it is at every place of a forest;
* `Performance.rules_subset`, `Accessibility.oscillates_of_optimized`: what each check finds of such a motion;
* `Report.rulesAt`: the rules reported of the element at a place;
* `Component.rulesAt_revise`: what a revision for the same framework may add to the findings.
-/

import AnimationCode.Proofs.Analysis.Accessibility
import AnimationCode.Proofs.Analysis.Report
import AnimationCode.Proofs.Optimize.GivesWay

namespace AnimationCode

open Rewrite Transforms

/-! ### What is left as it was -/

namespace Transforms

variable {made : List (String × String)} {state changed : Fields Value}

/-- A name that neither gave way nor came in its place is read as before. -/
theorem get?_becomes {name : String} (apart : ∀ pair ∈ made, name ≠ pair.1 ∧ name ≠ pair.2)
    (becomes : List.Forall₂ (Becomes made) state changed) : changed.get? name = state.get? name := by
  induction becomes with
  | nil => rfl
  | @cons field after _ _ here _ ih =>
    cases here with
    | gives member change value =>
      obtain ⟨notOld, notNew⟩ := apart _ member
      rw [Fields.get?_cons, Fields.get?_cons, if_neg notOld, if_neg notNew, ih]
    | stays =>
      obtain ⟨key, value⟩ := field
      rw [Fields.get?_cons, Fields.get?_cons, ih]

/-- A name that a state has afterwards was there before, or is a transform in whose place a property gave way. -/
theorem mem_keys_of_becomes {name : String} (becomes : List.Forall₂ (Becomes made) state changed)
    (member : name ∈ changed.keys) : name ∈ state.keys ∨ ∃ pair ∈ made, pair.2 = name := by
  obtain ⟨after, inside, same⟩ := List.mem_map.mp member
  obtain ⟨field, zipped, here⟩ := exists_mem_zip becomes.flip inside
  rcases here.name with gave | ⟨stayed, -⟩
  · exact .inr ⟨_, gave, same⟩
  · exact .inl (same ▸ stayed ▸ List.mem_map_of_mem (List.of_mem_zip zipped).2)

theorem Pinned.has_eq {sizes : List String} {before after : Motion} (pinned : Pinned sizes before after) {name : String}
    (away : name ≠ "style") : after.attributes.has name = before.attributes.has name := by
  cases pinned with
  | nothing _ same => rw [same]
  | style _ _ same => rw [same, Fields.has, Fields.get?_set, if_neg away, Fields.has]

end Transforms

namespace Rewrite.Exchanges

variable {made : List (String × String)} {before after : Motion}

theorem hasPhase_eq (exchanges : Exchanges made before after) (phase : Phase) :
    after.hasPhase phase = before.hasPhase phase := by
  obtain ⟨change, phases, -, -⟩ := exchanges.exists_change
  rw [Motion.hasPhase, phases, Motion.mapStates, Fields.has, Fields.get?_mapNamed, Option.isSome_map]
  rfl

/-- No transition gives way. -/
theorem transitions_eq (exchanges : Exchanges made before after) (among : made ⊆ pairs) :
    after.transitions = before.transitions := by
  obtain ⟨change, phases, states, becomes⟩ := exchanges.exists_change
  have own : after.phase? .transition = before.phase? .transition := by
    have aside : Phase.stateNames.contains Phase.transition.name = false ∧ Phase.transition.name ≠ Phase.variants.name := by
      decide
    rw [Motion.phase?, phases, Motion.mapStates, Fields.get?_mapNamed]
    simp only [aside.1, Bool.false_eq_true, if_false, if_neg aside.2, Option.map_id']
    rfl
  have apart : ∀ pair ∈ made, Phase.transition.name ≠ pair.1 ∧ Phase.transition.name ≠ pair.2 := by
    have all : ∀ pair ∈ pairs, Phase.transition.name ≠ pair.1 ∧ Phase.transition.name ≠ pair.2 := by decide
    exact fun pair member => all pair (among member)
  change after.statesIn Phase.states = before.states.map _ at states
  rw [Motion.transitions, Motion.transitions, Motion.transitionsIn, Motion.transitionsIn, own, states, List.filterMap_map]
  refine congrArg _ (List.filterMap_congr fun state _ => ?_)
  rw [Function.comp_apply, get?_becomes apart (becomes state.2)]

/-- A name in a state afterwards. -/
theorem exists_state (exchanges : Exchanges made before after) {state : Fields Value} {name : String}
    (inside : after.HasState state) (member : name ∈ state.keys) :
    (∃ other, before.HasState other ∧ name ∈ other.keys) ∨ ∃ pair ∈ made, pair.2 = name := by
  obtain ⟨change, -, states, becomes⟩ := exchanges.exists_change
  obtain ⟨path, known⟩ := Motion.hasState_iff.mp inside
  rw [states] at known
  obtain ⟨⟨first, other⟩, here, same⟩ := List.mem_map.mp known
  cases same
  exact (mem_keys_of_becomes (becomes other) member).imp_left fun was => ⟨other, Motion.hasState_iff.mpr ⟨_, here⟩, was⟩

end Rewrite.Exchanges

/-! ### What the optimizations make of a motion -/

/-- What the optimizations for some aims make of a motion: properties give way to transforms, and it may have come to give
way to a wish for reduced motion. -/
structure Motion.Optimized (focus : Focus) (before after : Motion) : Prop where
  exchanges : Exchanges (if focus.performance then givenBy rewrites before else []) before
    { after with reducedMotion := before.reducedMotion }
  mark : focus.accessibility = false ∨ before.reducedMotion = true → after.reducedMotion = before.reducedMotion

namespace Component

variable {component revised : Component} {account told : Account} {focus : Focus} {thresholds : Fields Value}

theorem optimized_guard (short : Binary64) {motion before : Motion} (accessible : focus.accessibility = true)
    (exchanges : Exchanges (if focus.performance then givenBy rewrites before else []) before motion) :
    before.Optimized focus (Guard.apply short motion).1 := by
  have kept : motion.reducedMotion = before.reducedMotion := by rw [exchanges.same]
  refine ⟨?_, fun marked => ?_⟩
  · obtain ⟨mark, same⟩ := Guard.apply_fst short motion
    rw [same, ← kept]
    exact exchanges
  · have already : motion.reducedMotion = true := by
      rcases marked with silent | marked
      · rw [accessible] at silent
        cases silent
      · exact kept.trans marked
    rw [Guard.apply_of_settled (.inl already), kept]

/-- The optimizations for some aims, at every place of a forest. -/
theorem pairs_optimize (done : component.optimize focus thresholds account = .ok (revised, told)) :
    Forest.Pairs (fun _ => Motion.Optimized focus) component.elements revised.elements := by
  obtain ⟨middle, between, first, second⟩ := optimize_eq_ok done
  have exchanged : Forest.Pairs (fun _ before after => Exchanges (if focus.performance then givenBy rewrites before else [])
      before after) component.elements middle.elements := by
    rcases first with ⟨performs, first⟩ | ⟨idle, rfl, -⟩
    · obtain ⟨forest, said, result, rfl, -⟩ := optimizePerformance_eq_ok first
      simp only [performs, if_true]
      exact pairs_applyToForest result
    · refine Forest.pairs_self (fun _ own => ?_) middle.elements
      rw [idle]
      exact .refl own
  rcases second with ⟨accessible, second⟩ | ⟨silent, rfl, -⟩
  · obtain ⟨short, forest, said, -, result, rfl, -⟩ := optimizeAccessibility_eq_ok second
    obtain ⟨-, same, -⟩ := Guard.applyToForest_eq_ok result
    cases same
    have guarded : Forest.Pairs (fun _ own after => after = (Guard.apply short own).1) middle.elements
        (middle.elements.map fun motion => (Guard.apply short motion).1) := Forest.pairs_map fun _ _ => rfl
    refine exchanged.after guarded fun _ own middle last exchanges same => ?_
    rw [same]
    exact optimized_guard short accessible exchanges
  · refine exchanged.mono fun _ before after exchanges => ?_
    have kept : after.reducedMotion = before.reducedMotion := by rw [exchanges.same]
    refine ⟨?_, fun _ => kept⟩
    rw [← kept]
    exact exchanges

end Component

namespace Motion.Optimized

variable {focus : Focus} {before after : Motion}

theorem among (focus : Focus) (before : Motion) : (if focus.performance then givenBy rewrites before else []) ⊆ pairs := by
  split
  · exact givenBy_subset (List.Subset.refl _) before
  · exact List.nil_subset _

theorem transitions_eq (optimized : before.Optimized focus after) : after.transitions = before.transitions :=
  optimized.exchanges.transitions_eq (among focus before)

theorem mark_of_mark (optimized : before.Optimized focus after) (marked : before.reducedMotion = true) :
    after.reducedMotion = true := (optimized.mark (.inr marked)).trans marked

/-- A name in a state afterwards. The mark is not seen in the states. -/
theorem exists_state (optimized : before.Optimized focus after) {state : Fields Value} {name : String}
    (inside : after.HasState state) (member : name ∈ state.keys) :
    (∃ other, before.HasState other ∧ name ∈ other.keys) ∨
      ∃ pair ∈ if focus.performance then givenBy rewrites before else [], pair.2 = name := by
  obtain ⟨path, here⟩ := Motion.hasState_iff.mp inside
  have unmarked : Motion.HasState { after with reducedMotion := before.reducedMotion } state :=
    Motion.hasState_iff.mpr ⟨path, here⟩
  exact optimized.exchanges.exists_state unmarked member

theorem replaces_iff (optimized : before.Optimized focus after) {pair : String × String} (known : pair ∈ pairs) :
    before.Replaces after pair ↔ pair ∈ if focus.performance then givenBy rewrites before else [] := by
  refine replaces_iff_mem (among focus before) (fun given member => ?_) optimized.exchanges known
  split at member
  · exact held_of_mem_givenBy member
  · cases member

end Motion.Optimized

/-! ### The checks -/

namespace Performance

variable {long : Binary64} {motion before after : Motion} {focus : Focus}

theorem foldl_eq_nil_iff {entries kept : List (String × String)} :
    entries.foldl (fun kept entry => if kept.any (·.1 == entry.1) then kept else kept ++ [entry]) kept = [] ↔
      kept = [] ∧ entries = [] := by
  induction entries generalizing kept with
  | nil => simp
  | cons entry rest ih =>
    rw [List.foldl_cons, ih]
    have some_ : (if kept.any (·.1 == entry.1) then kept else kept ++ [entry]) ≠ [] := by
      split
      · rintro rfl
        contradiction
      · exact List.append_ne_nil_of_right_ne_nil kept (List.cons_ne_nil entry [])
    simp [some_]

/-- There is something to find on the layout exactly if a state animates it. -/
theorem layoutFindings_ne_nil_iff : layoutFindings motion ≠ [] ↔
    ∃ state, motion.HasState state ∧ ∃ name ∈ Fields.keys state, name ∈ Property.layout := by
  rw [layoutFindings, ne_eq, List.map_eq_nil_iff, layoutProperties, foldl_eq_nil_iff]
  simp only [true_and, List.flatMap_eq_nil_iff, List.filterMap_eq_nil_iff, Motion.hasState_iff]
  constructor
  · intro some_
    push Not at some_
    obtain ⟨⟨path, state⟩, inside, name, member, layout⟩ := some_
    refine ⟨state, ⟨path, inside⟩, name, member, ?_⟩
    split at layout
    · rename_i known
      exact List.contains_iff_mem.mp known
    · exact absurd rfl layout
  · rintro ⟨state, ⟨path, inside⟩, name, member, layout⟩ none_
    have dropped := none_ (path, state) inside name member
    rw [if_pos (List.contains_iff_mem.mpr layout)] at dropped
    cases dropped

theorem mem_rules {rule : String} : rule ∈ (ofMotion long motion).map Finding.rule ↔
    rule = "layout-property" ∧ layoutFindings motion ≠ [] ∨
      rule = "unbounded-long-animation" ∧ (endlessFinding? long motion).isSome = true := by
  rw [ofMotion, List.map_append, List.mem_append]
  refine or_congr ?_ ?_
  · have each : ∀ found ∈ layoutFindings motion, found.rule = "layout-property" := by
      intro found member
      obtain ⟨entry, -, rfl⟩ := List.mem_map.mp member
      rfl
    constructor
    · intro member
      obtain ⟨found, inside, rfl⟩ := List.mem_map.mp member
      exact ⟨each found inside, List.ne_nil_of_mem inside⟩
    · rintro ⟨rfl, some_⟩
      obtain ⟨found, inside⟩ := List.exists_mem_of_ne_nil _ some_
      exact List.mem_map.mpr ⟨found, inside, each found inside⟩
  · unfold endlessFinding?
    cases (motion.transitions.find? (isEndless long)).bind Transition.duration? with
    | none => simp
    | some seconds => simp [finding]

/-- An optimization gives the check for performance nothing new to find. -/
theorem rules_subset (optimized : before.Optimized focus after) :
    (ofMotion long after).map Finding.rule ⊆ (ofMotion long before).map Finding.rule := by
  intro rule member
  rw [mem_rules] at member ⊢
  refine member.imp (fun ⟨same, busy⟩ => ⟨same, ?_⟩) fun ⟨same, endless⟩ => ⟨same, ?_⟩
  · obtain ⟨state, inside, name, known, layout⟩ := layoutFindings_ne_nil_iff.mp busy
    rcases optimized.exists_state inside known with ⟨other, was, there⟩ | ⟨pair, gave, rfl⟩
    · exact layoutFindings_ne_nil_iff.mpr ⟨other, was, name, there, layout⟩
    · have noLayout : ∀ pair ∈ pairs, pair.2 ∉ Property.layout := by decide
      exact absurd layout (noLayout pair (Motion.Optimized.among focus before gave))
  · rw [endlessFinding?, Option.isSome_map, optimized.transitions_eq] at endless
    rw [endlessFinding?, Option.isSome_map]
    exact endless

theorem isUnfit_eq (optimized : before.Optimized focus after) : isUnfit long after = isUnfit long before := by
  rw [isUnfit, isUnfit, optimized.transitions_eq]

end Performance

namespace Accessibility

variable {short : Binary64} {motion before after : Motion} {focus : Focus}

theorem mem_rules {rule : String} : rule ∈ (ofMotion short motion).map Finding.rule ↔
    rule = "rapid-oscillation" ∧ oscillates short motion = true ∨
      rule = "missing-accessible-label" ∧ lacksLabel motion = true := by
  rw [ofMotion, List.map_append, List.mem_append]
  refine or_congr ?_ ?_
  · cases oscillates short motion <;> simp
  · cases lacksLabel motion <;> simp

theorem lacksLabel_eq (optimized : before.Optimized focus after) : lacksLabel after = lacksLabel before := by
  have phases (phase : Phase) : after.hasPhase phase = before.hasPhase phase := optimized.exchanges.hasPhase_eq phase
  have attributes {name : String} (away : name ≠ "style") : after.attributes.has name = before.attributes.has name :=
    optimized.exchanges.pinned.has_eq away
  have content : after.content? = before.content? := by
    have same := congrArg Motion.content? optimized.exchanges.same
    exact same
  have any_ {names : List String} (away : "style" ∉ names) :
      names.any after.attributes.has = names.any before.attributes.has := by
    rw [Bool.eq_iff_iff, List.any_eq_true, List.any_eq_true]
    exact exists_congr fun name => and_congr_right fun member => by
      rw [attributes fun same : name = "style" => away (same ▸ member)]
  have operated : operations.any after.attributes.has = operations.any before.attributes.has := any_ (by decide)
  have labelled : labels.any after.attributes.has = labels.any before.attributes.has := any_ (by decide)
  rw [lacksLabel, lacksLabel, isInteractive, isInteractive, phases, phases, operated, labelled, content]

theorem animatesOscillating_iff : animatesOscillating motion = true ↔
    ∃ state, motion.HasState state ∧ ∃ name ∈ Fields.keys state, name ∈ Property.oscillating := by
  simp only [animatesOscillating, List.any_eq_true, List.contains_iff_mem, Motion.hasState_iff]
  constructor
  · rintro ⟨⟨path, state⟩, inside, found⟩
    exact ⟨state, ⟨path, inside⟩, found⟩
  · rintro ⟨state, ⟨path, inside⟩, found⟩
    exact ⟨(path, state), inside, found⟩

/-- What oscillates after an optimization did so before, or has a size that gave way to a scale. -/
theorem oscillates_of_optimized (optimized : before.Optimized focus after) (rapid : oscillates short after = true) :
    oscillates short before = true ∨
      focus.performance = true ∧ ∃ pair ∈ TextPass.scales, before.Replaces after pair := by
  obtain ⟨⟨moving, hurried⟩, animated⟩ := (Bool.and_eq_true_iff.mp rapid).imp_left Bool.and_eq_true_iff.mp
  have unmarked : before.reducedMotion = false := by
    rw [← Bool.not_eq_true]
    intro marked
    rw [optimized.mark_of_mark marked] at moving
    cases moving
  obtain ⟨state, inside, name, known, disturbing⟩ := animatesOscillating_iff.mp animated
  rcases optimized.exists_state inside known with ⟨other, was, there⟩ | ⟨pair, gave, rfl⟩
  · left
    rw [oscillates, unmarked, ← optimized.transitions_eq, hurried,
      animatesOscillating_iff.mpr ⟨other, was, name, there, disturbing⟩]
    rfl
  · right
    have isScale : ∀ pair ∈ pairs, pair.2 ∈ Property.oscillating → pair ∈ TextPass.scales := by decide
    have listed := Motion.Optimized.among focus before gave
    refine ⟨?_, pair, isScale pair listed disturbing, optimized.replaces_iff listed |>.mpr gave⟩
    by_contra idle
    rw [if_neg idle] at gave
    exact List.not_mem_nil gave

theorem isUnfit_of_optimized (optimized : before.Optimized focus after) (unfit : isUnfit short after = true) :
    isUnfit short before = true := by
  unfold isUnfit at unfit ⊢
  rw [optimized.transitions_eq, Bool.and_eq_true_iff] at unfit
  refine Bool.and_eq_true_iff.mpr ⟨?_, unfit.2⟩
  rw [Bool.not_eq_true', ← Bool.not_eq_true]
  intro marked
  rw [optimized.mark_of_mark marked] at unfit
  cases unfit.1

end Accessibility

namespace Report

variable {long short : Binary64} {forest others : Forest} {place : Nat} {focus : Focus}

/-- The rules that the checks for performance and accessibility report of the element at a place, in document order. -/
def rulesAt (long short : Binary64) (forest : Forest) (place : Nat) : List String :=
  ((forest.motions[place]?).map fun motion =>
    (Performance.ofMotion long motion ++ Accessibility.ofMotion short motion).map Finding.rule).getD []

theorem mem_rulesAt {rule : String} : rule ∈ rulesAt long short forest place ↔
    ∃ motion, forest.motions[place]? = some motion ∧ (rule ∈ (Performance.ofMotion long motion).map Finding.rule ∨
      rule ∈ (Accessibility.ofMotion short motion).map Finding.rule) := by
  unfold rulesAt
  cases forest.motions[place]? with
  | none => simp
  | some motion => simp

end Report

namespace Component

variable {component revised : Component} {account told : Account} {context : Context} {thresholds : Fields Value}
  {long short : Binary64}

/-- **A revision for the same framework adds nothing to the findings**, with one exception: where a size gave way to a scale
that oscillates rapidly, and the revision was not for accessibility as well. -/
theorem rulesAt_revise (stay : context.framework = component.framework)
    (done : component.revise account context thresholds = .ok (revised, told))
    (longest : Threshold.long thresholds = .ok long) (shortest : Threshold.short thresholds = .ok short)
    {slow shut : List Finding} (performance : Performance.detect thresholds component.elements = .ok slow)
    (accessibility : Accessibility.detect thresholds component.elements = .ok shut) :
    (∃ slow shut, Performance.detect thresholds revised.elements = .ok slow ∧
        Accessibility.detect thresholds revised.elements = .ok shut) ∧
      ∀ place, ∀ rule ∈ Report.rulesAt long short revised.elements place,
        rule ∈ Report.rulesAt long short component.elements place ∨
          rule = "rapid-oscillation" ∧ context.focus.performance = true ∧ context.focus.accessibility = false ∧
            ∃ before after, component.elements.motions[place]? = some before ∧
              revised.elements.motions[place]? = some after ∧ ∃ pair ∈ TextPass.scales, before.Replaces after pair := by
  obtain ⟨middle, between, optimized, ⟨-, rfl⟩ | ⟨away, -⟩⟩ := revise_eq_ok done
  case inr => exact absurd stay away
  have motions := (pairs_optimize optimized).forall₂_motions
  obtain ⟨fit, -⟩ := (Performance.detect_eq_ok_iff longest).mp performance
  obtain ⟨fitToo, -⟩ := (Accessibility.detect_eq_ok_iff shortest).mp accessibility
  refine ⟨⟨_, _, (Performance.detect_eq_ok_iff longest).mpr ⟨fun after member => ?_, rfl⟩,
    (Accessibility.detect_eq_ok_iff shortest).mpr ⟨fun after member => ?_, rfl⟩⟩, fun place rule reported => ?_⟩
  · obtain ⟨before, zipped, changed⟩ := exists_mem_zip motions.flip member
    rw [Performance.isUnfit_eq changed]
    exact fit before (List.of_mem_zip zipped).2
  · obtain ⟨before, zipped, changed⟩ := exists_mem_zip motions.flip member
    rw [← Bool.not_eq_true]
    intro unfit
    have fits := fitToo before (List.of_mem_zip zipped).2
    rw [Accessibility.isUnfit_of_optimized changed unfit] at fits
    cases fits
  · obtain ⟨after, at_, found⟩ := Report.mem_rulesAt.mp reported
    obtain ⟨before, was, changed⟩ := exists_getElem? motions at_
    rw [Report.mem_rulesAt]
    rcases found with slow | shut
    · exact .inl ⟨before, was, .inl (Performance.rules_subset changed slow)⟩
    · rcases Accessibility.mem_rules.mp shut with ⟨rfl, rapid⟩ | ⟨rfl, unlabelled⟩
      · rcases Accessibility.oscillates_of_optimized changed rapid with rapid | ⟨performs, sizes⟩
        · exact .inl ⟨before, was, .inr (Accessibility.mem_rules.mpr (.inl ⟨rfl, rapid⟩))⟩
        · refine .inr ⟨rfl, performs, ?_, before, after, was, at_, sizes⟩
          -- what was guarded does not oscillate
          rw [← Bool.not_eq_true]
          intro accessible
          obtain ⟨limit, limits, settled⟩ := (settled_optimize optimized).1.2 accessible
          cases shortest.symm.trans limits
          have calm := Guard.isCalm_of_settled (settled after (List.mem_of_getElem? at_))
          rw [Accessibility.oscillates_of_calm calm] at rapid
          cases rapid
      · rw [Accessibility.lacksLabel_eq changed] at unlabelled
        exact .inl ⟨before, was, .inr (Accessibility.mem_rules.mpr (.inr ⟨rfl, unlabelled⟩))⟩

/-- A component of one element that becomes wider again and again. -/
def widening : Component :=
  Component.ofForest .react false "Box"
    [⟨{ Motion.ofTag "div" with
        phases := [("animate", .object [("width", .int 40)]), ("transition", .object [
          ("duration", .real (Binary64.ofDecimal false 2 (-1))), ("repeat", .real (.infinite false))])] }, []⟩]

/-- Without a guard, a size that becomes a scale is found to oscillate, which it was not before. -/
theorem exists_rulesAt_widening : ∃ revised told long short,
    widening.revise (Account.start .react) ⟨.react, false, "Box", ⟨true, false, false⟩⟩ [] = .ok (revised, told) ∧
    Threshold.long [] = .ok long ∧ Threshold.short [] = .ok short ∧
    "rapid-oscillation" ∈ Report.rulesAt long short revised.elements 0 ∧
    "rapid-oscillation" ∉ Report.rulesAt long short widening.elements 0 :=
  ⟨_, _, _, _, rfl, rfl, rfl, by decide +kernel, by decide +kernel⟩

/-- But for the oscillation, nothing is found that was not found before. -/
theorem rulesAt_revise_widening : ∃ revised told long short,
    widening.revise (Account.start .react) ⟨.react, false, "Box", ⟨true, false, false⟩⟩ [] = .ok (revised, told) ∧
    Threshold.long [] = .ok long ∧ Threshold.short [] = .ok short ∧
    ∀ place, ∀ rule ∈ Report.rulesAt long short revised.elements place,
      rule ∈ Report.rulesAt long short widening.elements place ∨ rule = "rapid-oscillation" := by
  refine ⟨_, _, _, _, rfl, rfl, rfl, fun place rule reported => ?_⟩
  have kept := (@rulesAt_revise widening _ (Account.start .react) _ ⟨.react, false, "Box", ⟨true, false, false⟩⟩ [] _ _
    rfl rfl rfl rfl _ _ ((Performance.detect_eq_ok_iff rfl).mpr ⟨by decide +kernel, rfl⟩)
    ((Accessibility.detect_eq_ok_iff rfl).mpr ⟨by decide +kernel, rfl⟩)).2
  exact (kept place rule reported).imp_right And.left

end Component

end AnimationCode
