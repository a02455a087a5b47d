/-
**Elements that cannot be read.**

The animated elements of a source are read unless a value in it is unfit. In scripts that takes an escape that stands
for no character; a template has its expressions and its timings.

* `Markup.failsOnly_extract`, `Calls.failsOnly_extract`: the elements of a script are read, but for such an escape;
* `TemplateMotion.failsOnly_extract`: the causes for which those of a template are not.
-/

import AnimationCode.Element.OfCalls
import AnimationCode.Element.OfMarkup
import AnimationCode.Element.OfTemplate
import AnimationCode.Proofs.Script.Valued

namespace AnimationCode

open Outcome

/-! ### Markup -/

namespace Markup

open Script (Node Unfit failsOnly_evaluate failsOnly_unquoted)

variable {fragment : Fragment}

theorem failsOnly_attributeValue (fragment : Fragment) (value : Option Node) :
    FailsOnly (Unfit fragment.text) (attributeValue fragment value) := by
  unfold attributeValue
  split
  · exact failsOnly_ok _
  · split
    · exact (failsOnly_unquoted _ _).map _
    · split
      · exact failsOnly_evaluate _ _
      · exact failsOnly_ok _
    · exact failsOnly_ok _

theorem failsOnly_addAttributes (fragment : Fragment) (nodes : List Node) (motion : Motion) (warnings : List String) :
    FailsOnly (Unfit fragment.text) (addAttributes fragment motion warnings nodes) := by
  induction nodes generalizing motion warnings with
  | nil => exact failsOnly_ok _
  | cons node rest ih =>
    rw [addAttributes]
    split
    · exact (failsOnly_attributeValue fragment _).bind fun value _ => ih _ _
    · exact ih _ _
    · exact ih _ _

theorem failsOnly_motion (fragment : Fragment) (node : Node) : FailsOnly (Unfit fragment.text) (motion fragment node) := by
  unfold motion
  split
  · exact failsOnly_ok _
  · split
    · exact failsOnly_ok _
    · refine (failsOnly_addAttributes fragment _ _ _).bind fun found _ => ?_
      obtain ⟨motion, warnings⟩ := found
      refine failsOnly_ite (fun _ => failsOnly_ok _) fun _ => ?_
      exact failsOnly_ite (fun _ => failsOnly_ok _) fun _ => failsOnly_ok _

mutual

theorem failsOnly_collectOne (fragment : Fragment) : (node : Node) → FailsOnly (Unfit fragment.text) (collectOne fragment node)
  | .mk kind role span children => by
    have inner := failsOnly_collect fragment children
    have tag : FailsOnly (Unfit fragment.text) (do
        let (found, warnings) ← motion fragment (.mk kind role span children)
        match found with
        | some motion =>
          if kind == .selfClosingTag then return ⟨[⟨motion, []⟩], 0, warnings⟩
          let inner ← collect fragment children
          return ⟨[⟨{ motion with plainMarkup := inner.plainMarkup }, inner.elements⟩], 0, warnings ++ inner.warnings⟩
        | none =>
          return ((← collect fragment children).within (if isFragment (.mk kind role span children) then 0 else 1)).warned
            warnings : Outcome Found) := by
      refine (failsOnly_motion fragment _).bind fun found _ => ?_
      obtain ⟨_ | motion, warnings⟩ := found
      · exact inner.bind fun _ _ => failsOnly_ok _
      · exact failsOnly_ite (fun _ => failsOnly_ok _) fun _ => inner.bind fun _ _ => failsOnly_ok _
    unfold collectOne
    dsimp only
    split
    · exact failsOnly_ok _
    · exact failsOnly_ok _
    · exact tag
    · exact tag
    · exact inner

theorem failsOnly_collect (fragment : Fragment) : (nodes : List Node) → FailsOnly (Unfit fragment.text) (collect fragment nodes)
  | [] => by
    rw [collect]
    exact failsOnly_ok _
  | node :: rest => by
    rw [collect]
    exact (failsOnly_collectOne fragment node).bind fun _ _ => (failsOnly_collect fragment rest).bind fun _ _ => failsOnly_ok _

end

/-- The elements of a script are read, unless an escape that stands for no character stands in it. -/
theorem failsOnly_extract (fragment : Fragment) (root : Node) : FailsOnly (Unfit fragment.text) (extract fragment root) :=
  failsOnly_collect fragment root.children

end Markup

/-! ### Calls -/

namespace Calls

open Script (Node Unfit failsOnly_evaluate failsOnly_unquoted)

variable {source : List Char}

theorem failsOnly_firstString? {call : Node} {first : Outcome String} (found : firstString? source call = some first) :
    FailsOnly (Unfit source) first := by
  unfold firstString? at found
  split at found
  · split at found
    · obtain rfl := Option.some.inj found
      exact failsOnly_unquoted source _
    · cases found
  · cases found

theorem failsOnly_selector? {node : Node} {selector : Outcome String} (found : selector? source node = some selector) :
    FailsOnly (Unfit source) selector := by
  unfold selector? at found
  split at found
  · exact failsOnly_firstString? found
  · cases found

theorem failsOnly_enclosingPhase (source : List Char) (ancestors : List Node) :
    FailsOnly (Unfit source) (enclosingPhase source ancestors) := by
  induction ancestors with
  | nil => exact failsOnly_ok _
  | cons node outer ih =>
    rw [enclosingPhase]
    refine failsOnly_ite (fun _ => ?_) fun _ => ih
    dsimp only
    split
    · rename_i event listened
      split at listened
      · exact (failsOnly_firstString? listened).bind fun _ _ => failsOnly_ok _
      · cases listened
    · exact failsOnly_ite (fun _ => failsOnly_ok _) fun _ => ih

theorem failsOnly_selectors (source : List Char) (nodes : List Node) : FailsOnly (Unfit source) (selectors source nodes) := by
  induction nodes with
  | nil => exact failsOnly_ok _
  | cons node rest ih =>
    rw [selectors]
    refine ih.bind fun others _ => failsOnly_ite (fun _ => ?_) fun _ => failsOnly_ok _
    split
    · rename_i name selector _ looked
      obtain ⟨value, _, found⟩ := Option.bind_eq_some_iff.mp looked
      exact (failsOnly_selector? found).bind fun _ _ => failsOnly_ok _
    · exact failsOnly_ok _

theorem failsOnly_looked (source : List Char) (target : Node) : FailsOnly (Unfit source) (recognize.looked source target) := by
  unfold recognize.looked
  split
  · rename_i selector found
    exact (failsOnly_selector? found).map _
  · exact failsOnly_ok _

theorem failsOnly_recognize (source : List Char) (known : Fields String) (node : Node) (ancestors : List Node) :
    FailsOnly (Unfit source) (recognize source known node ancestors) := by
  unfold recognize
  refine failsOnly_ite (fun _ => ?_) fun _ => failsOnly_ok _
  split
  · rename_i target frames others _
    refine (failsOnly_evaluate source frames).bind fun value _ => ?_
    split
    · have none_ : FailsOnly (Unfit source) (pure Value.null) := failsOnly_ok _
      have looked := failsOnly_looked source target
      cases others
      -- whether options were given does not matter once they are there
      all_goals
        refine FailsOnly.bind (by first | exact none_ | exact failsOnly_evaluate source _) fun options _ =>
          (failsOnly_enclosingPhase source ancestors).bind fun phase _ => ?_
        split
        · exact failsOnly_ok _
        · cases known.get? (String.ofList (target.text source)) with
          | none => exact looked.bind fun _ _ => failsOnly_ok _
          | some selector =>
            refine failsOnly_ite (fun _ => looked.bind fun _ _ => failsOnly_ok _) fun _ => failsOnly_ok _
    · exact failsOnly_ok _
  · exact failsOnly_ok _

theorem failsOnly_recognizeAll (source : List Char) (known : Fields String) (nodes : List (Node × List Node)) :
    FailsOnly (Unfit source) (recognizeAll source known nodes) := by
  induction nodes with
  | nil => exact failsOnly_ok _
  | cons entry rest ih =>
    obtain ⟨node, ancestors⟩ := entry
    rw [recognizeAll]
    exact (failsOnly_recognize source known node ancestors).bind fun _ _ => ih.bind fun _ _ => failsOnly_ok _

/-- The elements of a script are read, unless an escape that stands for no character stands in it. -/
theorem failsOnly_extract (source : List Char) (root : Node) : FailsOnly (Unfit source) (extract source root) := by
  unfold extract
  exact (failsOnly_selectors source _).bind fun known _ => (failsOnly_recognizeAll source known _).bind fun _ _ => failsOnly_ok _

end Calls

/-! ### Templates -/

namespace TemplateMotion

/-- A cause for which a template cannot be read: what is wrong with it is told, or a value in it is unfit. -/
def Unread (failure : Failure) : Prop :=
  failure.category = .parseFailed ∨ failure = .unfitValue ∨ failure = .numberTooLarge

variable (parse : Script.Parser)

theorem failsOnly_unescaped (raw : Option String) : FailsOnly (· = .unfitValue) (unescaped raw) :=
  failsOnly_ite (fun _ => failsOnly_error rfl) fun _ => failsOnly_ok _

theorem failsOnly_plainValue (raw : Option String) : FailsOnly (· = .unfitValue) (plainValue raw) := by
  unfold plainValue
  split
  · exact (failsOnly_unescaped _).bind fun _ _ => failsOnly_ok _
  · exact failsOnly_ok _

theorem failsOnly_boundValue (place : Location) (raw : Option String) : FailsOnly Unread (boundValue parse place raw) := by
  refine ((failsOnly_unescaped raw).mono fun _ unfit => .inr (.inl unfit)).bind fun text _ => ?_
  have fails := Script.failsOnly_evaluateText parse text
  split
  · exact failsOnly_error (.inl rfl)
  · rename_i other
    intro failure failed
    rcases fails failure failed with ⟨cause, rfl⟩ | unfit
    · exact absurd failed (other cause)
    · exact .inr (.inl unfit)

theorem failsOnly_addAttribute (carrier : Carrier) (place : Location) (motion : Motion) (written : Template.Attribute) :
    FailsOnly Unread (addAttribute parse carrier place motion written) := by
  unfold addAttribute
  dsimp only
  split
  · exact failsOnly_ok _
  · refine (failsOnly_boundValue parse place _).bind fun value _ => ?_
    split
    · exact failsOnly_ok _
    · exact failsOnly_ok _
    · exact failsOnly_ite (fun _ => failsOnly_ok _) fun _ => failsOnly_ok _
  · exact ((failsOnly_unescaped _).mono fun _ unfit => .inr (.inl unfit)).bind fun _ _ => failsOnly_ok _
  · exact ((failsOnly_plainValue _).mono fun _ unfit => .inr (.inl unfit)).bind fun _ _ => failsOnly_ok _

theorem failsOnly_addAttributes (carrier : Carrier) (place : Location) (attributes : List Template.Attribute)
    (motion : Motion) (warnings : List String) :
    FailsOnly Unread (addAttributes parse carrier place motion warnings attributes) := by
  induction attributes generalizing motion warnings with
  | nil => exact failsOnly_ok _
  | cons written rest ih =>
    rw [addAttributes]
    exact (failsOnly_addAttribute parse carrier place motion written).bind fun _ _ => ih _ _

/-- Times only fail to be converted if one is too large. -/
theorem failsOnly_inSeconds (options : Value) : FailsOnly (· = .numberTooLarge) (inSeconds options) := by
  unfold inSeconds
  split
  · exact failsOnly_ok _
  · exact failsOnly_error rfl

theorem failsOnly_stateInSeconds (state : Value) : FailsOnly (· = .numberTooLarge) (stateInSeconds state) := by
  unfold stateInSeconds
  split
  · split
    · exact (failsOnly_inSeconds _).bind fun _ _ => failsOnly_ok _
    · exact failsOnly_ok _
  · exact failsOnly_ok _

theorem failsOnly_variantsInSeconds (variants : Fields Value) :
    FailsOnly (· = .numberTooLarge) (variantsInSeconds variants) := by
  induction variants with
  | nil => exact failsOnly_ok _
  | cons variant rest ih =>
    obtain ⟨name, state⟩ := variant
    rw [variantsInSeconds]
    exact (failsOnly_stateInSeconds state).bind fun _ _ => ih.bind fun _ _ => failsOnly_ok _

theorem failsOnly_phasesInSeconds (carrier : Carrier) (phases : Fields Value) (transition : Value) :
    FailsOnly (· = .numberTooLarge) (phasesInSeconds carrier phases transition) := by
  unfold phasesInSeconds
  cases carrier with
  | component => exact failsOnly_ok _
  | directive =>
    refine (failsOnly_inSeconds transition).bind fun transition _ => ?_
    split
    · exact (failsOnly_variantsInSeconds _).bind fun _ _ => failsOnly_ok _
    · exact failsOnly_ok _

theorem failsOnly_lift (carrier : Carrier) (motion : Motion) : FailsOnly (· = .numberTooLarge) (lift carrier motion) := by
  unfold lift
  exact (failsOnly_phasesInSeconds carrier _ _).bind fun _ _ => failsOnly_ok _

theorem failsOnly_motion (index : LineIndex) (node : TemplateNode) : FailsOnly Unread (motion parse index node) := by
  unfold motion
  split
  · exact failsOnly_ok _
  · rename_i carrier _
    refine (failsOnly_addAttributes parse carrier _ _ _ _).bind fun found _ => ?_
    obtain ⟨motion, warnings⟩ := found
    have lifted : FailsOnly Unread (lift carrier motion) := (failsOnly_lift carrier motion).mono fun _ same => .inr (.inr same)
    exact lifted.bind fun _ _ => failsOnly_ite (fun _ => failsOnly_ok _) fun _ => failsOnly_ok _

mutual

theorem failsOnly_collectOne (index : LineIndex) : (node : TemplateNode) → FailsOnly Unread (collectOne parse index node)
  | ⟨tag, attributes, start, stop, texts, children⟩ => by
    rw [collectOne]
    refine (failsOnly_motion parse index _).bind fun found _ => (failsOnly_collect index children).bind fun inner _ => ?_
    obtain ⟨_ | motion, warnings⟩ := found
    · exact failsOnly_ok _
    · exact failsOnly_ok _

theorem failsOnly_collect (index : LineIndex) : (nodes : List TemplateNode) → FailsOnly Unread (collect parse index nodes)
  | [] => by
    rw [collect]
    exact failsOnly_ok _
  | node :: rest => by
    rw [collect]
    exact (failsOnly_collectOne index node).bind fun _ _ => (failsOnly_collect index rest).bind fun _ _ => failsOnly_ok _

end

/-- The elements of a template are read, but for such a cause. -/
theorem failsOnly_extract (source : List Char) (root : TemplateNode) : FailsOnly Unread (extract parse source root) :=
  failsOnly_collect _ _ _

end TemplateMotion

end AnimationCode
