/-
**Scripts that are read as components.**

The name of a component begins with a capital letter, so that it is no word of the language.

* `isCapital_of_isPascal`: the name of a component is a word that begins so;
* `read_of_script`: a source whose framework is no template is read as a script;
* `exists_readScriptComponent`: a script whose imports say where they take from has these and the elements found in it;
* `tree?_plain`: what is tried first, the script as it stands.
-/

import AnimationCode.Component.Declarations
import AnimationCode.Component.OfSource
import AnimationCode.Proofs.Script.Markup
import AnimationCode.Proofs.Script.Signature

namespace AnimationCode

namespace Script

/-- A word that begins with a capital letter. -/
structure IsCapital (word : List Char) : Prop where
  all : ∀ c ∈ word, Markup.isTagPart c = true
  first : ∃ c rest, word = c :: rest ∧ c.isUpper = true

namespace IsCapital

variable {word : List Char}

theorem isWord (isCapital : IsCapital word) : IsWord word := by
  obtain ⟨all, c, rest, rfl, upper⟩ := isCapital
  refine ⟨fun e member => Markup.isNameRest_of_isTagPart (all e member), ?_, List.cons_ne_nil _ _⟩
  rintro e ⟨⟩
  exact isDigit_of_isAlpha (isAlpha_iff.mpr (.inl upper))

theorem not_mem (isCapital : IsCapital word) {words : List String}
    (small : ∀ other ∈ words, other.toList.head?.all (!·.isUpper) = true) : String.ofList word ∉ words := by
  obtain ⟨-, c, rest, rfl, upper⟩ := isCapital
  intro member
  have head := small _ member
  rw [String.toList_ofList, List.head?_cons, Option.all_some, upper] at head
  cases head

theorem isName (isCapital : IsCapital word) : IsName word := ⟨isCapital.isWord, isCapital.not_mem (by decide)⟩

theorem isTypeName (isCapital : IsCapital word) : IsTypeName word :=
  ⟨isCapital.isWord, isCapital.not_mem (by decide)⟩

theorem append (isCapital : IsCapital word) (more : List Char) (all : ∀ c ∈ more, Markup.isTagPart c = true) :
    IsCapital (word ++ more) := by
  obtain ⟨allWord, c, rest, rfl, upper⟩ := isCapital
  exact ⟨List.forall_mem_append.mpr ⟨allWord, all⟩, c, rest ++ more, rfl, upper⟩

end IsCapital

/-- The name of a component. -/
theorem isCapital_of_isPascal {name : String} (pascal : Declarations.isPascal name = true) : IsCapital name.toList := by
  unfold Declarations.isPascal at pascal
  split at pascal
  · rename_i c rest same
    rw [Bool.and_eq_true, List.all_eq_true] at pascal
    rw [same]
    refine ⟨List.forall_mem_cons.mpr ⟨?_, fun e member => ?_⟩, c, rest, rfl, pascal.1⟩
    · simp [Markup.isTagPart, Char.isAlphanum, isAlpha_iff.mpr (.inl pascal.1)]
    · have part := pascal.2 e member
      rw [Markup.isTagPart, part, Bool.true_or]
  · cases pascal

end Script

namespace Source

variable {parse : Script.Parser} {source : Source} {kind : Framework}

/-- A source whose framework is no template is read as a script. -/
theorem read_of_script (some_ : Text.isBlankText source.code = false) (framework : source.framework = .ok kind)
    (script : kind ≠ .vue) : source.read parse = readScriptComponent parse source kind := by
  unfold read
  rw [some_, framework]
  cases kind with
  | vue => exact absurd rfl script
  | react => rfl
  | js => rfl
  | other name => rfl

/-- The tree of a script that was read. -/
def ScriptReading.tree (reading : ScriptReading) (kind : Framework) : SourceTree :=
  if kind = .react then .markup reading.text reading.root reading.wrapped else .calls reading.text reading.root

/-- A script whose imports say where they take from has these and the elements found in it. -/
theorem exists_readScriptComponent {reading : ScriptReading}
    (read : readScript parse kind source.code (attempts kind source.typescript?) = some reading)
    {declarations : List ImportDeclaration} (imports : Declarations.imports reading.text reading.root = .ok declarations)
    {found : Found} (extract : (reading.tree kind).extract parse = .ok found) :
    ∃ component, readScriptComponent parse source kind = .ok component ∧ component.elements = found.elements ∧
      component.imports = declarations := by
  unfold ScriptReading.tree at extract
  unfold readScriptComponent
  dsimp only
  rw [read]
  dsimp only
  rw [imports]
  dsimp only [bind, Except.bind]
  rw [extract]
  exact ⟨_, rfl, rfl, rfl⟩

/-- The ways to read a component with markup of which it is known whether it has types. -/
theorem attempts_some (typescript : Bool) :
    attempts .react (some typescript) = [⟨typescript, false⟩, ⟨typescript, true⟩] := rfl

theorem attempts_none :
    attempts .react none = [⟨false, false⟩, ⟨false, true⟩, ⟨true, false⟩, ⟨true, true⟩] := rfl

/-- A script as it stands. -/
theorem tree?_plain {typescript : Bool} {code : List Char} {root : Script.Node}
    (parsed : parse (dialect kind typescript) code = some root) :
    Attempt.tree? parse ⟨typescript, false⟩ kind code = some (code, root) := by
  unfold Attempt.tree?
  dsimp only
  rw [if_neg Bool.false_ne_true, parsed]
  rfl

theorem tree?_of_refused {attempt : Attempt} {code : List Char}
    (refused : parse (dialect kind attempt.typescript)
      (if attempt.wrapped then "<>".toList ++ code ++ "\n</>".toList else code) = none) :
    attempt.tree? parse kind code = none := by
  unfold Attempt.tree?
  dsimp only
  rw [refused]
  rfl

end Source

end AnimationCode
