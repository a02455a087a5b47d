/-
**What expressions come to.**

A literal has no value if one of its strings stands for no text, and a string stands for a text unless it has an escape
that stands for no character. An object literal may write a name twice; its value keeps the place of the first and what the
last one says.

* `Script.Unfit`: the one cause for which what is written in a script has no value;
* `Script.failsOnly_evaluate`: an expression has a value, but for this cause;
* `Script.failsOnly_evaluateText`: so has a text, if it is an expression;
* `Value.IsNamedOnce.set`: a field written into an object;
* `Script.isNamedOnce_evaluate`: no object in the value of an expression names a field twice.
-/

import AnimationCode.Proofs.Fields
import AnimationCode.Proofs.Outcome
import AnimationCode.Proofs.Record.Reading
import AnimationCode.Proofs.Text.Escape
import AnimationCode.Script.Literal

namespace AnimationCode

namespace Script

open Outcome

/-- What is written in a source has no value: an escape that stands for no character stands in it. -/
def Unfit (source : List Char) (failure : Failure) : Prop := failure = .unfitValue ∧ Text.HasVoidEscape source

variable {source : List Char}

theorem Unfit.mono {more : List Char} {failure : Failure} (unfit : Unfit source failure) (within : source <:+: more) :
    Unfit more failure := ⟨unfit.1, unfit.2.mono within⟩

theorem Node.text_isInfix (source : List Char) (node : Node) : node.text source <:+: source :=
  (List.take_prefix _ _).isInfix.trans (List.drop_suffix _ _).isInfix

theorem failsOnly_unquoted (source : List Char) (node : Node) : FailsOnly (Unfit source) (unquoted (node.text source)) := by
  unfold unquoted
  split
  · exact failsOnly_ok _
  · rename_i none_
    exact failsOnly_error ⟨rfl, (Text.hasVoidEscape_of_unquote? none_).mono (Node.text_isInfix source node)⟩

theorem failsOnly_keyText (source : List Char) (key : Node) : FailsOnly (Unfit source) (keyText source key) := by
  unfold keyText
  split
  case h_3 => exact (failsOnly_unquoted source key).map _
  all_goals exact failsOnly_ok _

/-- Every value of a list is there, but for the one cause. -/
def AreFit (source : List Char) (parts : List Valued) : Prop := ∀ part ∈ parts, FailsOnly (Unfit source) part.2

theorem AreFit.valueIn? {parts : List Valued} (fit : AreFit source parts) {role : Role} {value : Outcome Value}
    (found : valueIn? role parts = some value) : FailsOnly (Unfit source) value := by
  obtain ⟨part, first, rfl⟩ := Option.map_eq_some_iff.mp found
  exact fit part (List.mem_of_find?_eq_some first)

theorem AreFit.solid {parts : List Valued} (fit : AreFit source parts) : AreFit source (solid parts) :=
  fun part member => fit part (List.mem_of_mem_filter member)

theorem failsOnly_objectFields (fields : Fields Value) (entries : List (Node × List Valued))
    (fit : ∀ entry ∈ entries, AreFit source entry.2) : FailsOnly (Unfit source) (objectFields source fields entries) := by
  induction entries generalizing fields with
  | nil => exact failsOnly_ok _
  | cons entry rest ih =>
    obtain ⟨entry, parts⟩ := entry
    rw [objectFields]
    refine failsOnly_ite (fun _ => failsOnly_ok _) fun _ => ?_
    split
    · rename_i key value _ given
      refine (failsOnly_keyText source key).bind fun name _ => ?_
      cases name with
      | none => exact failsOnly_ok _
      | some name =>
        refine ((fit _ List.mem_cons_self).valueIn? given).bind fun value _ => ?_
        exact ih _ fun entry member => fit entry (List.mem_cons_of_mem _ member)
    · exact failsOnly_ok _

theorem failsOnly_listValues (parts : List Valued) (fit : AreFit source parts) :
    FailsOnly (Unfit source) (listValues parts) := by
  induction parts with
  | nil => exact failsOnly_ok _
  | cons part rest ih =>
    rw [listValues]
    refine (fit part List.mem_cons_self).bind fun value _ => ?_
    exact (ih fun part member => fit part (List.mem_cons_of_mem _ member)).bind fun _ _ => failsOnly_ok _

mutual

/-- **An expression has a value, unless an escape that stands for no character stands in the source.** -/
theorem failsOnly_evaluate (source : List Char) : (node : Node) → FailsOnly (Unfit source) (evaluate source node)
  | .mk kind role span children => by
    have parts := areFit_evaluateEach source children
    unfold evaluate
    dsimp only
    split
    · split
      · rename_i part value only
        exact parts.solid (part, value) (only ▸ List.mem_singleton_self _)
      · exact failsOnly_ok _
    · split
      · rename_i part value rest only
        exact parts (part, value) (only ▸ List.mem_cons_self)
      · exact failsOnly_ok _
    · split
      · rename_i part value rest only
        exact parts (part, value) (only ▸ List.mem_cons_self)
      · exact failsOnly_ok _
    · refine (failsOnly_objectFields [] _ fun entry member => ?_).bind fun fields _ => ?_
      · exact areFit_evaluateEntries source children entry (List.mem_of_mem_filter member)
      · split <;> exact failsOnly_ok _
    · exact (failsOnly_listValues _ parts.solid).map _
    · exact (failsOnly_unquoted source _).map _
    · refine failsOnly_ite (fun _ => failsOnly_ok _) fun _ => (failsOnly_unquoted source _).map _
    all_goals try exact failsOnly_ok _
    · split
      · rename_i operator value _ given
        exact (parts.valueIn? given).bind fun _ _ => failsOnly_ok _
      · exact failsOnly_ok _
    · split
      · rename_i condition consequence alternative _ chosen other
        refine failsOnly_ite (fun _ => ?_) fun _ => failsOnly_ok _
        refine (parts.valueIn? chosen).bind fun value _ => failsOnly_ite (fun _ => ?_) fun _ => failsOnly_ok _
        exact (parts.valueIn? other).bind fun _ _ => failsOnly_ok _
      · exact failsOnly_ok _

theorem areFit_evaluateEach (source : List Char) : (nodes : List Node) → AreFit source (evaluateEach source nodes)
  | [] => by
    rw [evaluateEach]
    exact List.forall_mem_nil _
  | node :: rest => by
    rw [evaluateEach]
    exact List.forall_mem_cons.mpr ⟨failsOnly_evaluate source node, areFit_evaluateEach source rest⟩

theorem areFit_evaluateEntries (source : List Char) :
    (nodes : List Node) → ∀ entry ∈ evaluateEntries source nodes, AreFit source entry.2
  | [] => by
    rw [evaluateEntries]
    exact List.forall_mem_nil _
  | .mk kind role span children :: rest => by
    rw [evaluateEntries]
    exact List.forall_mem_cons.mpr ⟨areFit_evaluateEach source children, areFit_evaluateEntries source rest⟩

end

/-- A text that is an expression has a value, or none for want of a value. -/
theorem failsOnly_evaluateText (parse : Parser) (text : List Char) :
    FailsOnly (fun failure => (∃ cause, failure = .malformedExpression cause) ∨ failure = .unfitValue)
      (evaluateText text parse) := by
  unfold evaluateText
  dsimp only
  split
  · exact failsOnly_error (.inl ⟨_, rfl⟩)
  · split
    · exact (failsOnly_evaluate _ _).mono fun _ unfit => .inr unfit.1
    · exact failsOnly_error (.inr rfl)

end Script

theorem Value.IsNamedOnce.set {fields : Fields Value} (named : Value.IsNamedOnce (.object fields)) {name : String}
    {value : Value} (once : value.IsNamedOnce) : Value.IsNamedOnce (.object (fields.set name value)) := by
  rw [Value.IsNamedOnce] at named ⊢
  refine ⟨Fields.nodup_set named.1 name value, Value.entriesNamedOnce_iff.mpr fun field member => ?_⟩
  rcases Fields.mem_set member with before | same
  · exact named.2.of_mem field before
  · exact same ▸ once

namespace Script

open Outcome
open Value (IsNamedOnce)

variable {source : List Char}

/-- The values of some nodes, where they have any, name each field once. -/
def AreNamed (parts : List Valued) : Prop := ∀ part ∈ parts, Yields IsNamedOnce part.2

theorem AreNamed.valueIn? {parts : List Valued} (named : AreNamed parts) {role : Role} {value : Outcome Value}
    (found : valueIn? role parts = some value) : Yields IsNamedOnce value := by
  obtain ⟨part, first, rfl⟩ := Option.map_eq_some_iff.mp found
  exact named part (List.mem_of_find?_eq_some first)

theorem AreNamed.solid {parts : List Valued} (named : AreNamed parts) : AreNamed (solid parts) :=
  fun part member => named part (List.mem_of_mem_filter member)

theorem isNamedOnce_numberValue (cs : List Char) : (numberValue cs).IsNamedOnce := by
  unfold numberValue
  dsimp only
  repeat' split
  all_goals trivial

theorem isNamedOnce_signedValue {value raw : Value} (operator : List Char) (named : value.IsNamedOnce)
    (other : raw.IsNamedOnce) : (signedValue operator value raw).IsNamedOnce := by
  unfold signedValue
  repeat' split
  all_goals first | exact named | exact other

theorem yields_objectFields {fields : Fields Value} (named : IsNamedOnce (.object fields)) (entries : List (Node × List Valued))
    (each : ∀ entry ∈ entries, AreNamed entry.2) :
    Yields (fun found => ∀ fields ∈ found, IsNamedOnce (.object fields)) (objectFields source fields entries) := by
  induction entries generalizing fields with
  | nil =>
    refine yields_ok fun found same => ?_
    obtain rfl := Option.some.inj same
    exact named
  | cons entry rest ih =>
    obtain ⟨entry, parts⟩ := entry
    rw [objectFields]
    refine yields_ite (fun _ => yields_ok nofun) fun _ => ?_
    split
    · rename_i key value _ given
      refine yields_bind fun name => ?_
      cases name with
      | none => exact yields_ok nofun
      | some name =>
        refine ((each _ List.mem_cons_self).valueIn? given).bind fun value once => ?_
        exact ih (named.set once) fun entry member => each entry (List.mem_cons_of_mem _ member)
    · exact yields_ok nofun

theorem yields_listValues {parts : List Valued} (named : AreNamed parts) :
    Yields Value.AreNamedOnce (listValues parts) := by
  induction parts with
  | nil => exact yields_ok trivial
  | cons part rest ih =>
    rw [listValues]
    refine (named part List.mem_cons_self).bind fun value once => ?_
    have later := ih fun part member => named part (List.mem_cons_of_mem _ member)
    exact later.bind fun values others => yields_ok ⟨once, others⟩

theorem yields_text (text : Outcome String) : Yields IsNamedOnce (Value.text <$> text) := by
  intro value made
  obtain ⟨_, -, rfl⟩ := map_eq_ok.mp made
  trivial

mutual

theorem yields_evaluate (source : List Char) : (node : Node) → Yields IsNamedOnce (evaluate source node)
  | .mk kind role span children => by
    have parts := areNamed_evaluateEach source children
    have raw (text : String) : IsNamedOnce (.code text) := trivial
    unfold evaluate
    dsimp only
    split
    · split
      · rename_i part value only
        exact parts.solid (part, value) (only ▸ List.mem_singleton_self _)
      · exact yields_ok (raw _)
    · split
      · rename_i part value rest only
        exact parts (part, value) (only ▸ List.mem_cons_self)
      · exact yields_ok (raw _)
    · split
      · rename_i part value rest only
        exact parts (part, value) (only ▸ List.mem_cons_self)
      · exact yields_ok (raw _)
    · have empty : IsNamedOnce (.object []) := ⟨List.nodup_nil, trivial⟩
      have entries : ∀ entry ∈ solid (evaluateEntries source children), AreNamed entry.2 := fun entry member =>
        areNamed_evaluateEntries source children entry (List.mem_of_mem_filter member)
      refine (yields_objectFields empty _ entries).bind fun found named => ?_
      cases found with
      | none => exact yields_ok (raw _)
      | some fields => exact yields_ok (named fields rfl)
    · intro value made
      obtain ⟨values, listed, rfl⟩ := map_eq_ok.mp made
      exact yields_listValues parts.solid values listed
    · exact yields_text _
    · exact yields_ite (fun _ => yields_ok (raw _)) fun _ => yields_text _
    · exact yields_ok (isNamedOnce_numberValue _)
    · exact yields_ok trivial
    · exact yields_ok trivial
    · exact yields_ok trivial
    · refine yields_ok ?_
      split
      · trivial
      · exact raw _
    · split
      · rename_i operator value _ given
        exact (parts.valueIn? given).bind fun value named => yields_ok (isNamedOnce_signedValue _ named (raw _))
      · exact yields_ok (raw _)
    · split
      · rename_i condition consequence alternative _ chosen other
        refine yields_ite (fun _ => yields_bind fun _ => ?_) fun _ => yields_ok (raw _)
        refine yields_ite (fun _ => ?_) fun _ => yields_ok (raw _)
        exact (parts.valueIn? other).bind fun value named => yields_ok named
      · exact yields_ok (raw _)
    · exact yields_ok (raw _)

theorem areNamed_evaluateEach (source : List Char) : (nodes : List Node) → AreNamed (evaluateEach source nodes)
  | [] => by
    rw [evaluateEach]
    exact List.forall_mem_nil _
  | node :: rest => by
    rw [evaluateEach]
    exact List.forall_mem_cons.mpr ⟨yields_evaluate source node, areNamed_evaluateEach source rest⟩

theorem areNamed_evaluateEntries (source : List Char) :
    (nodes : List Node) → ∀ entry ∈ evaluateEntries source nodes, AreNamed entry.2
  | [] => by
    rw [evaluateEntries]
    exact List.forall_mem_nil _
  | .mk kind role span children :: rest => by
    rw [evaluateEntries]
    exact List.forall_mem_cons.mpr ⟨areNamed_evaluateEach source children, areNamed_evaluateEntries source rest⟩

end

/-- No object in the value of an expression names a field twice. -/
theorem isNamedOnce_evaluate {node : Node} {value : Value} (evaluates : evaluate source node = .ok value) :
    value.IsNamedOnce := yields_evaluate source node value evaluates

end Script

end AnimationCode
