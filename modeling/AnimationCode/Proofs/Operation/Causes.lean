/-
**The causes for which an operation on a source fails.**

What is wrong with a parameter or with a source has a class of its own, and so has every cause that a caller can mend. The
other causes are few: a whole number past every finite one or of more digits than are written, an escape that stands for
no character, an unfit value of a template. A conversion also fails for a selector that is no text, and a validation for a
fragment whose elements lie before it.

* `Operation.Unclassed`, `Operation.Explained`: these causes;
* `Component.failsOnly_revise`, `Artifact.failsOnly_generate`, `Report.failsOnly_ofComponent`: what each step after reading
  can fail for;
* `Operation.failsOnly_source`: the three operations on a source, with the settings if nothing is said, fail for no
  other cause.
-/

import AnimationCode.Operation.Basic
import AnimationCode.Proofs.Analysis.Place
import AnimationCode.Proofs.Component.Unfit
import AnimationCode.Proofs.Convert.Stagger
import AnimationCode.Proofs.Revision

namespace AnimationCode

open Outcome

/-- A cause with a class of its own. -/
def Failure.IsClassed (failure : Failure) : Prop := failure.category ≠ .unknown

theorem Failure.IsTold.isClassed {failure : Failure} (told : failure.IsTold) : failure.IsClassed := by
  unfold IsClassed
  rw [told]
  decide

theorem Outcome.failsOnly_mapM {α β : Type} {allowed : Failure → Prop} {change : α → Outcome β}
    (each : ∀ item, FailsOnly allowed (change item)) (items : List α) : FailsOnly allowed (items.mapM change) := by
  induction items with
  | nil => exact failsOnly_ok _
  | cons item rest ih =>
    rw [List.mapM_cons]
    exact (each item).bind fun _ _ => ih.bind fun _ _ => failsOnly_ok _

/-! ### Parameters -/

namespace Parameter

/-- A parameter cannot be told of: a number in it has more digits than are written. -/
def Untold (value : Value) (failure : Failure) : Prop := failure = .numberTooLong ∧ value.isWritable = false

theorem classed_or_untold_told (value : Value) {failure : String → Failure} (classed : ∀ shown, (failure shown).IsClassed) :
    (value.told failure).IsClassed ∨ Untold value (value.told failure) := by
  unfold Value.told
  cases writable : value.isWritable with
  | true => exact .inl (classed _)
  | false => exact .inr ⟨rfl, writable⟩

theorem failsOnly_framework (name : String) (value : Value) :
    FailsOnly (fun failure => failure.IsClassed ∨ Untold value failure) (framework name value) := by
  unfold framework
  split
  · exact failsOnly_error (.inl nofun)
  · refine failsOnly_ite (fun _ => failsOnly_error (.inl nofun)) fun _ => ?_
    split
    · exact failsOnly_ok _
    · exact failsOnly_error (classed_or_untold_told _ fun _ => nofun)
  · exact failsOnly_error (classed_or_untold_told _ fun _ => nofun)

theorem failsOnly_texts (name : String) (value : Value) : FailsOnly Failure.IsClassed (texts name value) := by
  unfold texts
  split
  · exact failsOnly_ite (fun _ => failsOnly_ok _) fun _ => failsOnly_error nofun
  · exact failsOnly_error nofun

theorem failsOnly_optionalTexts (name : String) (value : Value) : FailsOnly Failure.IsClassed (optionalTexts name value) := by
  unfold optionalTexts
  split
  · exact failsOnly_ok _
  · exact failsOnly_texts name value

theorem failsOnly_focusAreas (value : Value) : FailsOnly Failure.IsClassed (focusAreas value) := by
  unfold focusAreas
  refine (failsOnly_optionalTexts _ value).bind fun asked _ => failsOnly_ite (fun _ => failsOnly_ok _) fun _ => ?_
  exact failsOnly_mapM (fun area => failsOnly_ite (fun _ => failsOnly_ok _) fun _ => failsOnly_error nofun) asked

theorem failsOnly_optionalTypescript (value : Value) : FailsOnly Failure.IsClassed (optionalTypescript value) := by
  unfold optionalTypescript
  split
  · exact failsOnly_ok _
  · refine FailsOnly.map ?_ _
    unfold typescript
    split
    · exact failsOnly_ok _
    · exact failsOnly_error nofun

/-- A source is a text that is not too long, with the settings if nothing is said. -/
theorem failsOnly_code (value : Value) : FailsOnly Failure.IsClassed (code {} value) := by
  unfold code
  split
  · refine failsOnly_ite (fun _ => failsOnly_error nofun) fun _ => ?_
    exact failsOnly_ite (fun _ => failsOnly_error nofun) fun _ => failsOnly_ok _
  · exact failsOnly_error nofun

theorem code_eq_ok {value : Value} {source : String} (done : code {} value = .ok source) : value = .text source := by
  unfold code at done
  split at done
  · split at done
    · cases done
    · obtain ⟨-, rfl⟩ := ite_eq_ok.mp done
      rfl
  · cases done

/-- A framework is one of the three, whatever the parameter is called. -/
theorem framework_eq_ok {name : String} {value : Value} {target : Framework} (done : framework name value = .ok target) :
    (∀ other, framework other value = .ok target) ∧ Framework.ofName? target.label = some target ∧ ∀ name, target ≠ .other name := by
  unfold framework at done
  split at done
  · cases done
  · rename_i text
    split at done
    · cases done
    · rename_i filled
      split at done
      · rename_i found known
        obtain rfl := Except.ok.inj done
        have among := show _ ∈ Framework.aliases from Fields.mem_of_get? known
        have all : ∀ entry ∈ Framework.aliases, Framework.ofName? entry.2.label = some entry.2 ∧
            (entry.2 = .react ∨ entry.2 = .vue ∨ entry.2 = .js) := by decide +kernel
        obtain ⟨named, three⟩ := all _ among
        refine ⟨fun other => ?_, named, fun name same => ?_⟩
        · rw [framework, if_neg filled, known]
        · rw [same] at three
          rcases three with same | same | same <;> cases same
      · cases done
  · cases done

end Parameter

/-! ### The settings if nothing is said -/

namespace Rules

/-- The thresholds if nothing is said. -/
def standardThresholds : Fields Value :=
  [("short_duration", .real (Binary64.ofDecimal false 5 (-1))), ("long_duration", .real (Binary64.ofDecimal false 2 0)),
    ("max_duration", .real (Binary64.ofDecimal false 10 0))]

theorem thresholds_standard : thresholds ({} : Settings).rules = .ok standardThresholds := rfl

theorem merged_weights_standard : (weights ({} : Settings).rules >>= Weights.merged) = .ok Weights.default := rfl

end Rules

/-- The weight of a category if nothing is said. -/
theorem Weights.ofCategory_default (category : String) :
    default.ofCategory category ∈ [Binary64.ofDecimal false 1 0, Binary64.ofDecimal false 6 (-1), Binary64.ofDecimal false 7 (-1),
      Binary64.ofDecimal false 3 (-1), Binary64.ofDecimal false 5 (-1)] := by
  show (Fields.get? default category).getD (Binary64.ofDecimal false 5 (-1)) ∈ _
  cases known : Fields.get? default category with
  | none => simp
  | some weight =>
    have among := Fields.mem_of_get? known
    simp only [default, List.mem_cons, Prod.mk.injEq, List.not_mem_nil, or_false] at among
    rcases among with ⟨-, rfl⟩ | ⟨-, rfl⟩ | ⟨-, rfl⟩ | ⟨-, rfl⟩ <;> simp

/-- With the weights if nothing is said, all findings can be scored. -/
theorem Finding.exists_score (findings : List Finding) : ∃ points, score Weights.default findings = .ok points := by
  have number (finding : Finding) : finding.penalty Weights.default ≠ .nan := by
    have all : ∀ base ∈ [Level.error.base, Level.warning.base, Level.suggestion.base, Binary64.zero false],
        ∀ weight ∈ [Binary64.ofDecimal false 1 0, Binary64.ofDecimal false 6 (-1), Binary64.ofDecimal false 7 (-1),
          Binary64.ofDecimal false 3 (-1), Binary64.ofDecimal false 5 (-1)], (base.mul weight).clamped ≠ .nan := by
      decide +kernel
    have base : finding.level.base ∈ [Level.error.base, Level.warning.base, Level.suggestion.base, Binary64.zero false] := by
      cases finding.level with
      | other name => exact List.mem_of_mem_getLast? rfl
      | _ => simp
    exact all _ base _ (Weights.ofCategory_default finding.category)
  cases scored : score Weights.default findings with
  | ok points => exact ⟨points, rfl⟩
  | error failure =>
    obtain ⟨-, finding, -, none_⟩ := score_eq_error.mp scored
    exact absurd none_ (number finding)

/-! ### Revision -/

/-- A whole number past every finite one. -/
def Failure.IsTooLarge (failure : Failure) : Prop := failure = .numberTooLarge

/-- A whole number past every finite one, or of more digits than are written. -/
def Failure.IsUnbounded (failure : Failure) : Prop := failure = .numberTooLarge ∨ failure = .numberTooLong

theorem Failure.IsTooLarge.isUnbounded {failure : Failure} (large : failure.IsTooLarge) : failure.IsUnbounded := .inl large

namespace Stagger

theorem failsOnly_delayed (stagger : Stagger) (steps : Nat) (child : Motion) :
    FailsOnly Failure.IsTooLarge (stagger.delayed steps child) := by
  unfold delayed
  dsimp only
  split
  · exact failsOnly_ok _
  · exact failsOnly_error rfl

mutual

theorem failsOnly_expand (outer : Option (Stagger × Nat)) : (element : Element) → FailsOnly Failure.IsTooLarge (expand outer element)
  | ⟨own, children⟩ => by
    rw [expand_eq]
    have receives : FailsOnly Failure.IsTooLarge (receive outer own) := by
      cases outer with
      | none => exact failsOnly_ok _
      | some given => exact failsOnly_delayed given.1 given.2 own
    exact receives.bind fun _ _ => (failsOnly_expandEach _ _ _ children).bind fun _ _ => failsOnly_ok _

theorem failsOnly_expandEach (outer : Option Stagger) (count place : Nat) :
    (elements : List Element) → FailsOnly Failure.IsTooLarge (expandEach outer count place elements)
  | [] => by
    rw [expandEach]
    exact failsOnly_ok _
  | element :: rest => by
    rw [expandEach]
    exact (failsOnly_expand _ element).bind fun _ _ => (failsOnly_expandEach outer count (place + 1) rest).bind fun _ _ => failsOnly_ok _

end

end Stagger

namespace Component

theorem failsOnly_optimize (focus : Focus) (component : Component) (account : Account) :
    FailsOnly Failure.IsTooLarge (component.optimize focus Rules.standardThresholds account) := by
  have performance : FailsOnly Failure.IsTooLarge (component.optimizePerformance account) := by
    refine FailsOnly.map ?_ _
    exact failsOnly_ite (fun _ => failsOnly_error rfl) fun _ => failsOnly_ok _
  have accessibility (component : Component) (account : Account) :
      FailsOnly Failure.IsTooLarge (component.optimizeAccessibility Rules.standardThresholds account) := by
    refine FailsOnly.bind (failsOnly_ok _) fun short _ => FailsOnly.bind ?_ fun _ _ => failsOnly_ok _
    exact failsOnly_ite (fun _ => failsOnly_error rfl) fun _ => failsOnly_ok _
  obtain ⟨first, second, bundleSize⟩ := focus
  cases first with
  | true =>
    refine performance.bind fun middle _ => failsOnly_ite (fun _ => accessibility _ _) fun _ => failsOnly_ok _
  | false => exact failsOnly_ite (fun _ => accessibility _ _) fun _ => failsOnly_ok _

theorem failsOnly_convert (target : Framework) (component : Component) (account : Account) :
    FailsOnly Failure.IsTooLarge (component.convert target account) := by
  refine FailsOnly.bind ?_ fun _ _ => failsOnly_ok _
  unfold convertForest
  dsimp only
  refine FailsOnly.bind ?_ fun _ _ => failsOnly_ok _
  unfold expandStagger
  exact failsOnly_ite (fun _ => (Stagger.failsOnly_expandEach none 0 0 _).bind fun _ _ => failsOnly_ok _) fun _ => failsOnly_ok _

/-- A component is revised, unless a number in it is too large. -/
theorem failsOnly_revise (component : Component) (account : Account) (context : Context) :
    FailsOnly Failure.IsTooLarge (component.revise account context Rules.standardThresholds) := by
  unfold revise
  refine (failsOnly_optimize _ component account).bind fun optimized _ => failsOnly_ite (fun _ => ?_) fun _ => ?_
  · exact (failsOnly_convert _ _ _).bind fun _ _ => failsOnly_ok _
  · exact failsOnly_ite (fun _ => failsOnly_ok _) fun _ => failsOnly_ok _

end Component

/-! ### Generation -/

namespace Artifact

/-- What is to be known of code is found, unless a number is too large. -/
theorem failsOnly_detect (forest : Forest) :
    FailsOnly Failure.IsTooLarge (Performance.detect [] forest) ∧ FailsOnly Failure.IsTooLarge (Accessibility.detect [] forest) := by
  constructor
  all_goals
    refine FailsOnly.bind (failsOnly_ok _) fun _ _ => ?_
    exact failsOnly_ite (fun _ => failsOnly_error rfl) fun _ => failsOnly_ok _

theorem failsOnly_bodyFrom (position : Nat) (motions : List Motion) :
    FailsOnly (fun failure => failure = .missingMember ∨ failure = .numberTooLong) (CallRender.bodyFrom position motions) := by
  induction motions generalizing position with
  | nil => exact failsOnly_ok _
  | cons motion rest ih =>
    have here : FailsOnly (fun failure => failure = .missingMember ∨ failure = .numberTooLong)
        (CallRender.elementStatements position motion) := by
      unfold CallRender.elementStatements
      dsimp only
      refine failsOnly_ite (fun _ => Value.failsOnly_whenWritable.mono fun _ => .inr) fun _ => ?_
      split
      · exact Value.failsOnly_whenWritable.mono fun _ => .inr
      · exact failsOnly_error (.inl rfl)
    rw [CallRender.bodyFrom]
    exact here.bind fun _ _ => (ih _).bind fun _ _ => failsOnly_ok _

/-- Code for one of the three frameworks is written, unless a number is too long or calls need a selector that is no
text. -/
theorem failsOnly_codeOf {component : Component} {account : Account} {context : Context}
    (three : ∀ name, context.framework ≠ .other name) :
    FailsOnly (fun failure => failure = .numberTooLong ∨ failure = .missingMember ∧ context.framework = .js)
      (codeOf component account context) := by
  have written {values : List Value} {text : String} : FailsOnly (fun failure => failure = .numberTooLong ∨
      failure = .missingMember ∧ context.framework = .js) (String.toList <$> Value.whenWritable values text) :=
    (Value.failsOnly_whenWritable.mono fun _ => .inl).map _
  unfold codeOf
  refine failsOnly_ite (fun _ => Value.failsOnly_whenWritable.mono fun _ => .inl) fun _ => ?_
  split
  · exact written
  · exact written
  · rename_i js
    have body := (failsOnly_bodyFrom 0 component.elements.motions).mono fun failure cause =>
      cause.symm.imp_right fun missing => And.intro missing js
    exact (body.bind fun _ _ => failsOnly_ok _).map _
  · rename_i name same
    exact absurd same (three name)

/-- Options that name focus areas at most. -/
def NamesAreas (options : Fields Value) : Prop :=
  options = [] ∨ ∃ areas, options = [("focus_areas", Operation.textList areas)]

theorem NamesAreas.exists_areas {options : Fields Value} (names : NamesAreas options) :
    ∃ areas, listOption options "focus_areas" = .ok areas := by
  rcases names with rfl | ⟨areas, rfl⟩
  · exact ⟨[], rfl⟩
  · cases areas with
    | nil => exact ⟨[], rfl⟩
    | cons area rest => exact ⟨_, rfl⟩

theorem NamesAreas.noPatterns {options : Fields Value} (names : NamesAreas options) : listOption options "patterns_used" = .ok [] := by
  rcases names with rfl | ⟨areas, rfl⟩ <;> rfl

theorem NamesAreas.complexity {options : Fields Value} (names : NamesAreas options) (forest : Forest) :
    complexityOption options forest = ((Complexity.ofForest forest).label, []) := by
  rcases names with rfl | ⟨areas, rfl⟩ <;> rfl

/-- An artifact is made of code that was written, unless a number is too large. -/
theorem failsOnly_generate {component : Component} {account : Account} {context : Context} {options : Fields Value}
    {allowed : Failure → Prop} (areas : NamesAreas options) (code : FailsOnly allowed (codeOf component account context))
    (large : allowed .numberTooLarge) : FailsOnly allowed (generate component account context options) := by
  have tooLarge : ∀ failure : Failure, failure.IsTooLarge → allowed failure := fun failure same => same ▸ large
  obtain ⟨listed, areas_⟩ := areas.exists_areas
  unfold generate
  rw [areas_, areas.noPatterns, areas.complexity]
  refine code.bind fun text _ => (failsOnly_ok listed).bind fun _ _ => ?_
  refine ((failsOnly_detect _).1.mono tooLarge).bind fun performance _ => ?_
  refine ((failsOnly_detect _).2.mono tooLarge).bind fun accessibility _ => ?_
  obtain ⟨points, scored⟩ := Finding.exists_score (performance ++ accessibility)
  refine FailsOnly.bind (failsOnly_ok []) fun patterns none_ => ?_
  obtain rfl := Except.ok.inj none_
  rw [scored]
  exact failsOnly_ok _

end Artifact

/-! ### Reports -/

namespace Report

theorem failsOnly_check (forest : Forest) : FailsOnly Failure.IsUnbounded (check Rules.standardThresholds forest) := by
  have each {check : Binary64 → List Finding} {threshold : Outcome Binary64} {limit : Binary64} (limit_ : threshold = .ok limit)
      {unfit : Binary64 → Bool} : FailsOnly Failure.IsUnbounded (do
        let limit ← threshold
        if unfit limit then throw .numberTooLarge
        return check limit) := by
    rw [limit_]
    exact failsOnly_ite (fun _ => failsOnly_error (.inl rfl)) fun _ => failsOnly_ok _
  unfold check
  refine FailsOnly.bind (failsOnly_ok _) fun times _ => FailsOnly.bind (failsOnly_ok _) fun found _ => ?_
  refine FailsOnly.bind (Value.failsOnly_whenWritable.mono fun _ => .inr) fun shape _ => ?_
  exact FailsOnly.bind (each rfl) fun performance _ => FailsOnly.bind (each rfl) fun accessibility _ => failsOnly_ok _

/-- A report is made of a component, unless a number is too large or too long or an element lies before the first line or
column. -/
theorem failsOnly_ofComponent {weights : Fields Value} (merged : Weights.merged weights = .ok Weights.default)
    (component : Component) (rules : List String) (strict : Bool) :
    FailsOnly (fun failure => failure.IsUnbounded ∨
        (∃ faults, failure = .invalidRecord faults) ∧ ∃ motion ∈ component.elements.motions, ¬ motion.IsPlaced)
      (ofComponent component rules strict Rules.standardThresholds weights) := by
  unfold ofComponent
  refine ((failsOnly_check component.elements).mono fun _ => .inl).bind fun findings checked => ?_
  dsimp only
  rw [merged]
  refine FailsOnly.bind (failsOnly_ok Weights.default) fun weights same => ?_
  obtain rfl := Except.ok.inj same
  refine FailsOnly.bind ?_ fun issues _ => ?_
  · by_cases placed : ∀ motion ∈ component.elements.motions, motion.IsPlaced
    · have all : ∀ finding ∈ findings ++ bestPractice component, finding.IsPlaced :=
        List.forall_mem_append.mpr ⟨isPlaced_check placed checked, isPlaced_bestPractice component⟩
      have escalated : ∀ finding ∈ (if strict then escalate rules (findings ++ bestPractice component)
          else findings ++ bestPractice component), finding.IsPlaced := by
        split
        · exact isPlaced_escalate all
        · exact all
      obtain ⟨issues, told⟩ := exists_issuesOf escalated
      rw [told]
      exact failsOnly_ok _
    · push Not at placed
      exact (failsOnly_issuesOf _).mono fun failure faults => .inr ⟨faults, placed⟩
  · obtain ⟨points, scored⟩ := Finding.exists_score (if strict then escalate rules (findings ++ bestPractice component)
      else findings ++ bestPractice component)
    rw [scored]
    exact failsOnly_ok _

end Report

/-! ### Operations -/

namespace Operation

/-- A cause without a class of its own for which an operation on a source of a framework fails. -/
inductive Unclassed (code : List Char) (framework : Framework) : Failure → Prop
  /-- A whole number past every finite one. -/
  | number : Unclassed code framework .numberTooLarge
  /-- A whole number of more digits than are written. -/
  | digits : Unclassed code framework .numberTooLong
  /-- An escape that stands for no character stands in the source. -/
  | escape (void : Text.HasVoidEscape code) : Unclassed code framework .unfitValue
  /-- A value of a template is unfit. -/
  | template (template : framework = .vue) : Unclassed code framework .unfitValue

/-- A source of a framework that was given as parameters. -/
def IsGiven (code framework : Value) (text : String) (target : Framework) : Prop :=
  code = .text text ∧ Parameter.framework "framework" framework = .ok target

/-- A cause that has a class of its own, or a parameter that cannot be told of, or one of the few other causes of a
source. -/
def Explained (code framework : Value) (failure : Failure) : Prop :=
  failure.IsClassed ∨ Parameter.Untold framework failure ∨
    ∃ text target, IsGiven code framework text target ∧ Unclassed text.toList target failure

/-- A conversion to calls comes to grief over a selector that is no text. -/
def Unselectable (toFramework : Value) (failure : Failure) : Prop :=
  failure = .missingMember ∧ Parameter.framework "framework" toFramework = .ok .js

/-- A conversion comes to grief over its target. -/
def Unreached (toFramework : Value) (failure : Failure) : Prop :=
  Parameter.Untold toFramework failure ∨ Unselectable toFramework failure

/-- A report cannot tell where an element of a fragment lies. -/
def Misplaced (parse : Script.Parser) (code framework : Value) (failure : Failure) : Prop :=
  (∃ faults, failure = .invalidRecord faults) ∧ ∃ text target read, IsGiven code framework text target ∧
    component text target parse = .ok read ∧ read.tree?.any (·.wrapped != 0) = true

variable {parse : Script.Parser} {code framework : Value} {text : String} {target : Framework}

theorem Explained.of_unread {failure : Failure} (unread : Source.Unread text.toList target failure)
    (given : IsGiven code framework text target) : Explained code framework failure := by
  cases unread with
  | told told => exact .inl told.isClassed
  | escape void => exact .inr (.inr ⟨text, target, given, .escape void⟩)
  | template template unread =>
    rcases unread with told | rfl | rfl
    · exact .inl (Failure.IsTold.isClassed told)
    · exact .inr (.inr ⟨text, target, given, .template template⟩)
    · exact .inr (.inr ⟨text, target, given, .number⟩)

theorem IsGiven.explained_of_isUnbounded (given : IsGiven code framework text target) {failure : Failure}
    (unbounded : failure.IsUnbounded) : Explained code framework failure := by
  rcases unbounded with rfl | rfl
  · exact .inr (.inr ⟨text, target, given, .number⟩)
  · exact .inr (.inr ⟨text, target, given, .digits⟩)

theorem Explained.of_framework {failure : Failure} (cause : failure.IsClassed ∨ Parameter.Untold framework failure) :
    Explained code framework failure := cause.imp_right .inl

theorem framework_of_given (given : IsGiven code framework text target) :
    (Source.framework ⟨text.toList, some target.label, none, none⟩) = .ok target := by
  obtain ⟨-, -, three⟩ := Parameter.framework_eq_ok given.2
  cases target with
  | other name => exact absurd rfl (three name)
  | _ => rfl

/-- A source is read, but for such a cause. -/
theorem failsOnly_component (given : IsGiven code framework text target) :
    FailsOnly (Explained code framework) (component text target parse) :=
  (Source.failsOnly_read (framework_of_given given)).mono fun _ unread => .of_unread unread given

/-- What was read is revised and written, but for such a cause; calls may also need a selector that is no text. -/
theorem failsOnly_emit (given : IsGiven code framework text target) {read : Component} (done : component text target parse = .ok read)
    {context : Context} {options : Fields Value} (areas : Artifact.NamesAreas options) {asked : Value}
    (three : Parameter.framework "framework" asked = .ok context.framework) :
    FailsOnly (fun failure => Explained code framework failure ∨
      context.framework ≠ target ∧ Unselectable asked failure) (emit {} read context options) := by
  have isTarget := Source.framework_read (framework_of_given given) done
  obtain ⟨source, filled, tree⟩ := Source.kept_read done
  unfold emit
  rw [Rules.thresholds_standard]
  refine FailsOnly.bind (failsOnly_ok _) fun thresholds same => ?_
  obtain rfl := Except.ok.inj same
  have long {failure : Failure} (same : failure = .numberTooLong) : Explained code framework failure :=
    given.explained_of_isUnbounded (.inr same)
  refine ((Component.failsOnly_revise read _ context).mono fun _ large =>
    .inl (given.explained_of_isUnbounded large.isUnbounded)).bind fun (revised, account) revises => ?_
  refine FailsOnly.bind (Value.failsOnly_whenWritable.mono fun _ same => .inl (long same)) fun kept told => ?_
  obtain ⟨-, rfl⟩ := Value.whenWritable_eq_ok.mp told
  refine FailsOnly.bind (Artifact.failsOnly_generate areas ?_ (.inl (given.explained_of_isUnbounded (.inl rfl))))
    fun _ _ => failsOnly_ok _
  by_cases away : context.framework = target
  · -- the source is at hand, and its animated parts are written in their places
    obtain ⟨middle, between, optimized, rest⟩ := Component.revise_eq_ok revises
    obtain ⟨-, rfl⟩ | ⟨off, -⟩ := rest
    · have same := Component.optimize_elements optimized
      have inPlace : (!revised.source.isEmpty && revised.tree?.isSome && revised.framework == context.framework) = true := by
        rw [same]
        simp [source, tree, isTarget, away, filled]
      unfold Artifact.codeOf
      rw [if_pos inPlace]
      exact Value.failsOnly_whenWritable.mono fun _ same => .inl (long same)
    · exact absurd (away.trans isTarget.symm) off
  · refine (Artifact.failsOnly_codeOf (Parameter.framework_eq_ok three).2.2).mono fun failure cause => ?_
    rcases cause with same | ⟨missing, js⟩
    · exact .inl (long same)
    · exact .inr ⟨away, missing, js ▸ three⟩

end Operation

end AnimationCode
