/-
**Sources that cannot be read.**

What is wrong with a source is told, and has the class of its own. Only a value in it that is unfit has none: an escape
that stands for no character in a script, or what a template gives.

* `Template.failsOnly_scan`, `Blocks.failsOnly_ofSource`: the causes for which a template has no tree;
* `Source.Unread`: the causes for which a source of a framework is not read;
* `Source.failsOnly_read`: a source is read, but for such a cause.
-/

import AnimationCode.Proofs.Element.Reach
import AnimationCode.Proofs.Element.Unfit

namespace AnimationCode

open Outcome

/-- A cause that is told as what is wrong with a source. -/
def Failure.IsTold (failure : Failure) : Prop := failure.category = .parseFailed

theorem Template.failsOnly_build (index : LineIndex) (pieces : List Piece) (inner : OpenNode) (outer : List OpenNode) :
    FailsOnly Failure.IsTold (build index inner outer pieces) := by
  fun_induction build index inner outer pieces with
  | case1 => exact failsOnly_ok _
  | case2 => exact failsOnly_error rfl
  | case6 => exact failsOnly_error rfl
  | case8 => exact failsOnly_error rfl
  | _ => assumption

theorem Template.failsOnly_scan (markup : List Char) (offset : Nat) (source : List Char) :
    FailsOnly Failure.IsTold (scan markup offset source) := failsOnly_build _ _ _ _

theorem Blocks.failsOnly_ofSource (source : List Char) : FailsOnly Failure.IsTold (ofSource source) := by
  unfold ofSource
  dsimp only
  split
  · exact failsOnly_ite (fun _ => failsOnly_ok _) fun _ => failsOnly_ok _
  · split
    · exact failsOnly_ok _
    · exact failsOnly_error rfl

namespace Declarations

open Script (Node Unfit)

theorem failsOnly_importOf (source : List Char) (statement : Node) : FailsOnly (Unfit source) (importOf source statement) := by
  unfold importOf
  split
  · exact failsOnly_ok _
  · exact (Script.failsOnly_unquoted source _).bind fun _ _ => failsOnly_ok _

theorem failsOnly_imports (source : List Char) (root : Node) : FailsOnly (Unfit source) (imports source root) := by
  unfold imports
  induction root.named with
  | nil => exact failsOnly_ok _
  | cons statement rest ih =>
    rw [importsAmong]
    exact failsOnly_ite (fun _ => (failsOnly_importOf source statement).bind fun _ _ => ih.bind fun _ _ => failsOnly_ok _)
      fun _ => ih

end Declarations

namespace Source

/-- A cause for which a source of a framework is not read. -/
inductive Unread (code : List Char) (framework : Framework) : Failure → Prop
  /-- What is wrong with the source is told. -/
  | told {failure : Failure} (told : failure.IsTold) : Unread code framework failure
  /-- A string of the script stands for no text. -/
  | escape (void : Text.HasVoidEscape code) : Unread code framework .unfitValue
  /-- A value of the template is unfit, or a time in it too large. -/
  | template {failure : Failure} (template : framework = .vue) (unread : TemplateMotion.Unread failure) :
    Unread code framework failure

variable {parse : Script.Parser} {source : Source} {kind : Framework}

/-! ### Scripts -/

/-- A script was read as it stands, or as a fragment. -/
theorem text_of_readScript {code : List Char} {tries : List Attempt} {reading : ScriptReading}
    (read : readScript parse kind code tries = some reading) :
    reading.text = code ∧ reading.wrapped = 0 ∨
      reading.text = "<>".toList ++ code ++ "\n</>".toList ∧ reading.wrapped = fragmentOffset := by
  obtain ⟨attempt, -, tree, wrapped⟩ := readScript_eq_some read
  obtain ⟨_, -, made⟩ := Option.map_eq_some_iff.mp tree
  obtain ⟨text, -⟩ := Prod.mk.inj made
  by_cases fragment : attempt.wrapped = true
  · rw [if_pos fragment] at text wrapped
    exact .inr ⟨text.symm, wrapped⟩
  · rw [if_neg fragment] at text wrapped
    exact .inl ⟨text.symm, wrapped⟩

/-- What goes around a fragment has no part of an escape, so that an unfit script is so by itself. -/
theorem unread_of_unfit {code : List Char} {tries : List Attempt} {reading : ScriptReading}
    (read : readScript parse kind code tries = some reading) {failure : Failure} (unfit : Script.Unfit reading.text failure) :
    Unread code kind failure := by
  obtain ⟨rfl, void⟩ := unfit
  rcases text_of_readScript read with ⟨same, -⟩ | ⟨same, -⟩ <;> rw [same] at void
  · exact .escape void
  · exact .escape (void.of_framed (by decide))

theorem failsOnly_readScriptComponent (source : Source) (kind : Framework) :
    FailsOnly (Unread source.code kind) (readScriptComponent parse source kind) := by
  unfold readScriptComponent
  dsimp only
  split
  · exact failsOnly_error (.told rfl)
  · rename_i reading read
    have unread (failure : Failure) (unfit : Script.Unfit reading.text failure) := unread_of_unfit read unfit
    refine ((Declarations.failsOnly_imports _ _).mono unread).bind fun imports _ => ?_
    refine FailsOnly.bind ?_ fun found _ => failsOnly_ok _
    split_ifs
    · exact (Markup.failsOnly_extract ⟨reading.text, reading.wrapped⟩ reading.root).mono unread
    · exact (Calls.failsOnly_extract reading.text reading.root).mono unread

/-! ### Templates -/

/-- A script block is no script, or a string in it stands for no text. -/
def UnreadBlock (failure : Failure) : Prop := failure = .malformedScript "Vue script" ∨ failure = .unfitValue

theorem UnreadBlock.unread {code : List Char} {failure : Failure} (unread : UnreadBlock failure) : Unread code .vue failure := by
  rcases unread with rfl | rfl
  · exact .told rfl
  · exact .template rfl (.inr (.inl rfl))

theorem failsOnly_readBlock (source : Source) (block : ScriptBlock) : FailsOnly UnreadBlock (readBlock parse source block) := by
  unfold readBlock
  dsimp only
  split
  · exact failsOnly_error (.inl rfl)
  · exact ((Declarations.failsOnly_imports _ _).mono fun _ unfit => .inr unfit.1).bind fun _ _ => failsOnly_ok _

theorem failsOnly_readBlocks (source : Source) (blocks : List ScriptBlock) :
    FailsOnly UnreadBlock (readBlocks parse source blocks) := by
  induction blocks with
  | nil => exact failsOnly_ok _
  | cons block rest ih =>
    rw [readBlocks]
    exact (failsOnly_readBlock source block).bind fun _ _ => ih.bind fun _ _ => failsOnly_ok _

theorem failsOnly_readTemplate (source : Source) (blocks : Blocks) :
    FailsOnly (Unread source.code .vue) (source.readTemplate blocks) := by
  unfold readTemplate
  split
  · exact ((Template.failsOnly_scan _ _ _).mono fun _ => .told).map _
  · exact failsOnly_ok _

theorem failsOnly_readTemplateComponent (source : Source) :
    FailsOnly (Unread source.code .vue) (readTemplateComponent parse source) := by
  unfold readTemplateComponent
  refine ((Blocks.failsOnly_ofSource _).mono fun _ => .told).bind fun blocks _ => ?_
  refine (failsOnly_readTemplate source blocks).bind fun template _ => ?_
  refine ((failsOnly_readBlocks source blocks.scripts).mono fun _ => UnreadBlock.unread).bind fun facts _ => ?_
  refine FailsOnly.bind ?_ fun found _ => failsOnly_ok _
  cases template with
  | none => exact failsOnly_ok _
  | some root => exact (TemplateMotion.failsOnly_extract parse source.code root).mono fun _ => .template rfl

/-! ### Sources -/

/-- **A source is read, unless something is told of it, or a value in it is unfit.** -/
theorem failsOnly_read (framework : source.framework = .ok kind) : FailsOnly (Unread source.code kind) (source.read parse) := by
  unfold read
  refine failsOnly_ite (fun _ => failsOnly_error (Unread.told rfl)) fun _ => ?_
  rw [framework]
  cases kind with
  | vue => exact failsOnly_readTemplateComponent source
  | react => exact failsOnly_readScriptComponent source .react
  | js => exact failsOnly_readScriptComponent source .js
  | other name => exact failsOnly_readScriptComponent source (.other name)

end Source

end AnimationCode
