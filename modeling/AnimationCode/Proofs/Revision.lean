/-
**Revising a component for its own framework, a second time.**

* `Component.optimize_eq_ok`, `Component.revise_eq_ok`: the steps of an optimization and of a revision;
* `Component.forall_optimize`: what both optimizations keep of a motion, they keep of a component;
* `Component.revise_again`: a component that was revised without conversion is left as it is by the same
  revision, and its account too.
-/

import AnimationCode.Proofs.Account
import AnimationCode.Proofs.Optimize.Guard
import AnimationCode.Proofs.Outcome
import AnimationCode.Revision
import Mathlib

namespace AnimationCode

namespace Component

/-- Layout that could give way is gone, and the advice on the rest was given. -/
def PerformanceSettled (component : Component) (account : Account) : Prop :=
  ∀ motion ∈ component.elements.motions, Transforms.Settled motion account.suggestions

/-- What is rapid gives way. -/
def AccessibilitySettled (component : Component) (thresholds : Fields Value) : Prop :=
  ∃ short, Threshold.short thresholds = .ok short ∧
    ∀ motion ∈ component.elements.motions, Guard.Settled short motion

/-! ### What an optimization changes -/

theorem optimizePerformance_eq_ok {component revised : Component} {account told : Account}
    (done : component.optimizePerformance account = .ok (revised, told)) :
    ∃ forest said, Transforms.applyToForest component.elements = .ok (forest, said) ∧
      revised = { component with elements := forest } ∧ told = account.suggest said := by
  obtain ⟨found, result, same⟩ := Outcome.map_eq_ok.mp done
  cases same
  exact ⟨found.1, found.2, result, rfl, rfl⟩

theorem optimizeAccessibility_eq_ok {component revised : Component} {account told : Account}
    {thresholds : Fields Value}
    (done : component.optimizeAccessibility thresholds account = .ok (revised, told)) :
    ∃ short forest said, Threshold.short thresholds = .ok short ∧
      Guard.applyToForest short component.elements = .ok (forest, said) ∧
      revised = { component with elements := forest } ∧ told = account.suggest said := by
  obtain ⟨short, limit, rest⟩ := Outcome.bind_eq_ok.mp done
  obtain ⟨found, result, same⟩ := Outcome.bind_eq_ok.mp rest
  cases same
  exact ⟨short, found.1, found.2, limit, result, rfl, rfl⟩

/-- The optimizations that a focus asks for, one after the other. -/
theorem optimize_eq_ok {focus : Focus} {thresholds : Fields Value} {component revised : Component}
    {account told : Account}
    (done : component.optimize focus thresholds account = .ok (revised, told)) :
    ∃ middle between,
      (focus.performance = true ∧ component.optimizePerformance account = .ok (middle, between) ∨
        focus.performance = false ∧ middle = component ∧ between = account) ∧
      (focus.accessibility = true ∧
          middle.optimizeAccessibility thresholds between = .ok (revised, told) ∨
        focus.accessibility = false ∧ revised = middle ∧ told = between) := by
  obtain ⟨performance, accessibility, bundleSize⟩ := focus
  have second {middle : Component} {between : Account}
      (rest : (if accessibility then middle.optimizeAccessibility thresholds between
        else .ok (middle, between)) = .ok (revised, told)) :
      accessibility = true ∧ middle.optimizeAccessibility thresholds between = .ok (revised, told) ∨
        accessibility = false ∧ revised = middle ∧ told = between := by
    cases accessibility with
    | false =>
      cases rest
      exact .inr ⟨rfl, rfl, rfl⟩
    | true => exact .inl ⟨rfl, rest⟩
  cases performance with
  | false => exact ⟨component, account, .inr ⟨rfl, rfl, rfl⟩, second done⟩
  | true =>
    obtain ⟨found, first, rest⟩ := Outcome.bind_eq_ok.mp done
    exact ⟨found.1, found.2, .inl ⟨rfl, first⟩, second rest⟩

/-- What both optimizations keep of a motion, they keep of a component. -/
theorem forall_optimize {focus : Focus} {thresholds : Fields Value} {component revised : Component}
    {account told : Account} {holds : Motion → Prop}
    (moved : ∀ motion, holds motion → holds (Transforms.apply motion).1)
    (guarded : ∀ short motion, holds motion → holds (Guard.apply short motion).1)
    (each : ∀ motion ∈ component.elements.motions, holds motion)
    (done : component.optimize focus thresholds account = .ok (revised, told)) :
    ∀ motion ∈ revised.elements.motions, holds motion := by
  obtain ⟨middle, between, first, second⟩ := optimize_eq_ok done
  have halfway : ∀ motion ∈ middle.elements.motions, holds motion := by
    rcases first with ⟨-, first⟩ | ⟨-, rfl, -⟩
    · obtain ⟨forest, said, result, rfl, -⟩ := optimizePerformance_eq_ok first
      intro motion member
      obtain ⟨before, inside, rfl⟩ := (Transforms.applyToForest_eq_ok result).2.2 motion member
      exact moved before (each before inside)
    · exact each
  rcases second with ⟨-, second⟩ | ⟨-, rfl, -⟩
  · obtain ⟨short, forest, said, -, result, rfl, -⟩ := optimizeAccessibility_eq_ok second
    intro motion member
    obtain ⟨before, inside, rfl⟩ := (Guard.applyToForest_eq_ok result).2.2 motion member
    exact guarded short before (halfway before inside)
  · exact halfway

/-! ### One optimization, a second time -/

theorem settled_optimizePerformance {component revised : Component} {account told : Account}
    (done : component.optimizePerformance account = .ok (revised, told)) :
    revised.PerformanceSettled told := by
  obtain ⟨forest, said, result, rfl, rfl⟩ := optimizePerformance_eq_ok done
  intro motion member
  exact (Transforms.settled_applyToForest result motion member).mono
    (items_subset_tellAll account.suggestions said)

theorem optimizePerformance_of_settled {component : Component} {account : Account}
    (settled : component.PerformanceSettled account) :
    component.optimizePerformance account = .ok (component, account) := by
  obtain ⟨again, known, same⟩ := Transforms.applyToForest_of_settled settled
  rw [optimizePerformance, same]
  exact congrArg Except.ok (Prod.ext rfl (Account.suggest_of_subset known))

theorem settled_optimizeAccessibility {component revised : Component} {account told : Account}
    {thresholds : Fields Value}
    (done : component.optimizeAccessibility thresholds account = .ok (revised, told)) :
    revised.AccessibilitySettled thresholds ∧
      (component.PerformanceSettled account → revised.PerformanceSettled told) := by
  obtain ⟨short, forest, said, limit, result, rfl, rfl⟩ := optimizeAccessibility_eq_ok done
  refine ⟨⟨short, limit, Guard.settled_applyToForest result⟩, fun settled motion member => ?_⟩
  obtain ⟨before, inside, rfl⟩ := (Guard.applyToForest_eq_ok result).2.2 motion member
  exact ((settled before inside).guard short).mono (subset_tellAll account.suggestions said)

theorem optimizeAccessibility_of_settled {component : Component} {account : Account}
    {thresholds : Fields Value} (settled : component.AccessibilitySettled thresholds) :
    component.optimizeAccessibility thresholds account = .ok (component, account) := by
  obtain ⟨short, limit, calm⟩ := settled
  simp only [optimizeAccessibility, limit, Guard.applyToForest_of_settled calm, bind, Except.bind,
    pure, Except.pure]
  rfl

/-! ### The optimizations together -/

/-- A component that no optimization of the focus changes. -/
def OptimizeSettled (component : Component) (focus : Focus) (thresholds : Fields Value)
    (account : Account) : Prop :=
  (focus.performance = true → component.PerformanceSettled account) ∧
    (focus.accessibility = true → component.AccessibilitySettled thresholds)

/-- An optimization changes nothing but the elements. -/
theorem optimize_elements {focus : Focus} {thresholds : Fields Value} {component revised : Component}
    {account told : Account}
    (done : component.optimize focus thresholds account = .ok (revised, told)) :
    revised = { component with elements := revised.elements } := by
  obtain ⟨middle, between, first, second⟩ := optimize_eq_ok done
  have halfway : middle = { component with elements := middle.elements } := by
    rcases first with ⟨-, first⟩ | ⟨-, rfl, -⟩
    · obtain ⟨forest, said, -, rfl, -⟩ := optimizePerformance_eq_ok first
      rfl
    · rfl
  rcases second with ⟨-, second⟩ | ⟨-, rfl, -⟩
  · obtain ⟨short, forest, said, -, -, rfl, -⟩ := optimizeAccessibility_eq_ok second
    rw [halfway]
  · exact halfway

/-- Once optimized, a component has settled; its source and its framework are as they were. -/
theorem settled_optimize {focus : Focus} {thresholds : Fields Value} {component revised : Component}
    {account told : Account}
    (done : component.optimize focus thresholds account = .ok (revised, told)) :
    revised.OptimizeSettled focus thresholds told ∧ revised.source = component.source ∧
      revised.framework = component.framework := by
  have same := optimize_elements done
  refine ⟨?_, by rw [same], by rw [same]⟩
  obtain ⟨middle, between, first, second⟩ := optimize_eq_ok done
  have still (on : focus.performance = true) : middle.PerformanceSettled between := by
    rcases first with ⟨-, first⟩ | ⟨off, -, -⟩
    · exact settled_optimizePerformance first
    · rw [off] at on
      cases on
  rcases second with ⟨-, second⟩ | ⟨off, rfl, rfl⟩
  · obtain ⟨calm, kept⟩ := settled_optimizeAccessibility second
    exact ⟨fun on => kept (still on), fun _ => calm⟩
  · exact ⟨still, fun on => by rw [off] at on; cases on⟩

theorem optimize_of_settled {focus : Focus} {thresholds : Fields Value} {component : Component}
    {account : Account} (settled : component.OptimizeSettled focus thresholds account) :
    component.optimize focus thresholds account = .ok (component, account) := by
  obtain ⟨performance, accessibility, bundleSize⟩ := focus
  obtain ⟨still, calm⟩ := settled
  have second (on : accessibility = true) :
      component.optimizeAccessibility thresholds account = .ok (component, account) :=
    optimizeAccessibility_of_settled (calm on)
  cases performance with
  | false =>
    cases accessibility with
    | false => rfl
    | true => exact second rfl
  | true =>
    have first := optimizePerformance_of_settled (still rfl)
    simp only [optimize, if_true, first, bind, Except.bind]
    cases accessibility with
    | false => rfl
    | true => exact second rfl

theorem findUnusedImports_twice (component : Component) (account : Account) :
    component.findUnusedImports (component.findUnusedImports account) =
      component.findUnusedImports account := by
  unfold findUnusedImports
  split
  · rfl
  · have known := items_subset_tellAll account.removedImports
      (Imports.unused component.source (some motionSources))
    simp only [tellAll_of_subset known]

theorem OptimizeSettled.findUnusedImports {component : Component} {focus : Focus}
    {thresholds : Fields Value} {account : Account}
    (settled : component.OptimizeSettled focus thresholds account) :
    component.OptimizeSettled focus thresholds (component.findUnusedImports account) := by
  refine ⟨fun on => ?_, settled.2⟩
  have same : (component.findUnusedImports account).suggestions = account.suggestions := by
    unfold Component.findUnusedImports
    split <;> rfl
  intro motion member
  rw [same]
  exact settled.1 on motion member

/-- A revised component is optimized, and after that converted if another framework is asked for. -/
theorem revise_eq_ok {component revised : Component} {account told : Account} {context : Context}
    {thresholds : Fields Value} (done : component.revise account context thresholds = .ok (revised, told)) :
    ∃ middle between, component.optimize context.focus thresholds account = .ok (middle, between) ∧
      (context.framework = component.framework ∧ revised = middle ∨
        context.framework ≠ component.framework ∧ ∃ converted,
          middle.convert context.framework between = .ok (converted, told) ∧
          revised = { converted with typescript := context.typescript }) := by
  obtain ⟨⟨middle, between⟩, result, rest⟩ := Outcome.bind_eq_ok.mp done
  refine ⟨middle, between, result, ?_⟩
  dsimp only at rest
  split at rest
  · rename_i away
    obtain ⟨converted, made, same⟩ := Outcome.bind_eq_ok.mp rest
    cases same
    exact .inr ⟨away, converted.1, made, rfl⟩
  · rename_i stay
    left
    split at rest <;> cases rest <;> exact ⟨not_not.mp stay, rfl⟩

/-- A component that was revised without conversion is left as it is by the same revision, and its
account too. -/
theorem revise_again {component revised : Component} {account told : Account} {context : Context}
    {thresholds : Fields Value} (stay : context.framework = component.framework)
    (done : component.revise account context thresholds = .ok (revised, told)) :
    revised.revise told context thresholds = .ok (revised, told) := by
  unfold revise at done
  cases result : component.optimize context.focus thresholds account with
  | error failure =>
    rw [result] at done
    cases done
  | ok found =>
    obtain ⟨middle, between⟩ := found
    obtain ⟨settled, source, framework⟩ := settled_optimize result
    have home : ¬ context.framework ≠ middle.framework := by
      rw [framework]
      exact not_not_intro stay
    simp only [result, bind, Except.bind, if_neg (not_not_intro stay)] at done
    unfold revise
    by_cases bundle : context.focus.bundleSize = true
    · rw [if_pos bundle] at done
      cases done
      have again := optimize_of_settled settled.findUnusedImports
      simp only [again, bind, Except.bind, if_neg home, if_pos bundle, pure, Except.pure]
      rw [findUnusedImports_twice]
    · rw [if_neg bundle] at done
      cases done
      simp only [optimize_of_settled settled, bind, Except.bind, if_neg home, if_neg bundle, pure,
        Except.pure]

/-- A component that animates one property of one element. -/
def animating (property : String) : Component :=
  Component.ofForest .react false "Box"
    [⟨{ Motion.ofTag "div" with phases := [("animate", .object [(property, .int 4)])] }, []⟩]

/-- A position that became a shift is left as it is. -/
theorem revise_again_shifted :
    ∃ told, (animating "x").revise told ⟨.react, false, "Box", ⟨true, true, true⟩⟩
        [("short_duration", .real (.finite false 1 0))] = .ok (animating "x", told) ∧
      told.suggestions = ["Replaced left animation with transform: x"] :=
  ⟨{ Account.start .react with suggestions := ["Replaced left animation with transform: x"] },
    @revise_again (animating "left") _ (Account.start .react) _ _ _ rfl (by cbv), rfl⟩

end Component

end AnimationCode
