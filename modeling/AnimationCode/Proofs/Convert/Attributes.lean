/-
**What becomes of the attributes in another framework.**

An attribute that the target has no use for is taken out, and its loss is reported at the place of its element. One of
them says elsewhere what it said before: a selector of one class is that class in markup. A script that calls selects by
the first of several classes. Nothing else is new, and whatever the target understands stays as it is.

* `Attributes.selects_of_selectedClass?`: the selectors that a class stands for;
* `Attributes.Accounted`: every attribute before and after is accounted for;
* `Attributes.accounted_of_told`: the pass over the attributes of one motion;
* `Component.accounted_convert`: a whole conversion, at every depth.
-/

import AnimationCode.Proofs.Convert.Still

namespace AnimationCode

namespace Attributes

variable {target : Framework} {motion : Motion} {before after : Fields Value} {limitations : List Limitation}
  {place? : Option Location}

/-- A selector of one class. The line feed at its end that is overlooked belongs to no class. -/
structure Selects (selector : Value) (name : String) : Prop where
  isName : isClassName name.toList = true
  spelled : selector = .text (String.ofList ('.' :: name.toList)) ∨
    selector = .text (String.ofList ('.' :: (name.toList ++ ['\n'])))

/-- A selector that is a class in markup, where there was none before. -/
structure BecomesClass (target : Framework) (before after : Fields Value) (name : String) : Prop where
  markup : target ≠ .js
  selects : ∃ selector, before.get? "selector" = some selector ∧ Selects selector name
  free : before.has "className" = false
  written : after.get? "className" = some (.text name)

/-- The first of several classes that is a selector in a script that calls, where there was none before. -/
structure BecomesSelector (target : Framework) (before after : Fields Value) (name : String) : Prop where
  calls : target = .js
  first : ∃ classes others, before.get? "className" = some (.text classes) ∧
    Text.words classes.toList = name.toList :: others
  free : before.has "selector" = false
  written : after.get? "selector" = some (.text (String.ofList ('.' :: name.toList)))

/-- An attribute that is taken out and reported at the place of its element. -/
def IsReported (limitations : List Limitation) (place? : Option Location) (name : String) : Prop :=
  ∃ message, ⟨name, message, place?⟩ ∈ limitations

/-- The attributes that were there stay or are answered for, and so are those that were not. -/
structure Answered (target : Framework) (limitations : List Limitation) (place? : Option Location)
    (before after : Fields Value) : Prop where
  kept : ∀ name value, before.get? name = some value →
    after.get? name = some value ∨
      after.has name = false ∧
        (IsReported limitations place? name ∨ name = "selector" ∧ ∃ word, BecomesClass target before after word)
  new : ∀ name ∈ after.keys, before.has name = false →
    (name = "className" ∧ ∃ word, BecomesClass target before after word) ∨
      (name = "selector" ∧ ∃ word, BecomesSelector target before after word)

/-- **The attributes of a motion before and after, all of them accounted for.** -/
structure Accounted (target : Framework) (limitations : List Limitation) (place? : Option Location)
    (before after : Fields Value) : Prop
    extends Answered target limitations place? before after where
  understood : ∀ name ∈ after.keys, name = "selector" ∨ name = "viewport" ∨ isPortable target name = true

/-! ### Selectors and classes -/

/-- A class stands for selectors of it alone. -/
theorem selects_of_selectedClass? {selector : Value} {name : String} (found : selectedClass? selector = some name) :
    Selects selector name := by
  unfold selectedClass? at found
  split at found
  · rename_i cs same
    obtain ⟨text, here, spelled⟩ := Option.map_eq_some_iff.mp same
    have selects : selector = .text text := by
      cases selector <;> cases here
      rfl
    rw [← String.ofList_toList (s := text), spelled] at selects
    split at found
    · rename_i isName
      cases found
      rw [← String.toList_ofList (l := cs)] at isName selects
      exact ⟨isName, .inl selects⟩
    · split at found
      · rename_i last
        cases found
        obtain ⟨final, isName⟩ := last
        have whole : cs.dropLast ++ ['\n'] = cs := List.dropLast_append_getLast? '\n' final
        rw [← whole, ← String.toList_ofList (l := cs.dropLast)] at selects
        rw [← String.toList_ofList (l := cs.dropLast)] at isName
        exact ⟨isName, .inr selects⟩
      · cases found
  · cases found

-- a line feed after the name of the class is overlooked, and nothing is reported
example : selectedClass? (.text ".box\n") = some "box" := by decide +kernel

/-- Every framework with markup has classes. -/
theorem isPortable_className (markup : target ≠ .js) : isPortable target "className" = true := by
  have component : isPortable .react "className" = true := by decide +kernel
  cases target with
  | react => exact component
  | vue => decide +kernel
  | js => exact absurd rfl markup
  | other name => exact component

/-! ### The pass over the attributes -/

theorem get?_dropOthers (target : Framework) (motion : Motion) (name : String) :
    (dropOthers target motion).attributes.get? name = if stays target name then motion.attributes.get? name else none :=
  Fields.get?_filter motion.attributes (stays target) name

theorem keys_dropOthers (target : Framework) (motion : Motion) :
    (dropOthers target motion).attributes.keys = motion.attributes.keys.filter (stays target) :=
  Fields.keys_filter motion.attributes (stays target)

/-- A selector stays, or it is reported, or a class is in its place; nothing else changes. -/
theorem selectorToClass_cases (target : Framework) (motion : Motion) :
    selectorToClass target motion = (motion, []) ∨
    target ≠ .js ∧ ∃ selector, motion.attributes.get? "selector" = some selector ∧
      (selectorToClass target motion =
          ({ motion with attributes := motion.attributes.erase "selector" }, selectorToClass.report motion selector) ∨
        ∃ name, Selects selector name ∧ motion.attributes.has "className" = false ∧ selectorToClass target motion =
          ({ motion with attributes := (motion.attributes.erase "selector").set "className" (.text name) }, [])) := by
  unfold selectorToClass
  split
  · exact .inl rfl
  · exact .inl rfl
  · rename_i selector _ found
    split
    · exact .inl rfl
    · rename_i markup
      refine .inr ⟨markup, selector, found, ?_⟩
      dsimp only
      split
      · rename_i name stands
        split
        · exact .inl rfl
        · rename_i free
          exact .inr ⟨name, selects_of_selectedClass? stands, Bool.eq_false_iff.mpr free, rfl⟩
      · exact .inl rfl

/-- A script that calls selects by the first of several classes, unless there is a selector; nothing else changes. -/
theorem classToSelector_cases (target : Framework) (motion : Motion) :
    classToSelector target motion = motion ∨
    target = .js ∧ motion.attributes.has "selector" = false ∧ ∃ classes name others,
      motion.attributes.get? "className" = some (.text classes) ∧ Text.words classes.toList = name :: others ∧
      classToSelector target motion = { motion with
        attributes := motion.attributes.set "selector" (.text (String.ofList ('.' :: name))) } := by
  unfold classToSelector
  split
  · rename_i free
    split
    · rename_i classes found
      split
      · rename_i name others words
        obtain ⟨value, given, text⟩ := Option.bind_eq_some_iff.mp found
        have written : value = .text classes := by
          cases value <;> cases text
          rfl
        exact .inr ⟨free.1, Bool.eq_false_iff.mpr free.2, classes, name, others, by rw [given, written], words, rfl⟩
      · exact .inl rfl
    · exact .inl rfl
  · exact .inl rfl

/-- Attributes that stay as they are. -/
theorem Answered.self : Answered target limitations place? before before :=
  ⟨fun _ _ => .inl, fun _ member absent => absurd (Fields.has_iff.mpr member) (Bool.eq_false_iff.mp absent)⟩

/-- A selector that is taken out is reported, or a class is in its place. -/
theorem answered_selectorToClass
    (told : ∀ limitation, .limitation limitation ∈ (selectorToClass target motion).2 → limitation ∈ limitations) :
    Answered target limitations motion.location? motion.attributes (selectorToClass target motion).1.attributes := by
  rcases selectorToClass_cases target motion with same | ⟨markup, selector, found, same | ⟨word, selects, free, same⟩⟩
  · rw [same]
    exact .self
  · rw [same] at told ⊢
    refine ⟨fun name value given => ?_, fun name member absent => ?_⟩
    · by_cases here : name = "selector"
      · refine .inr ⟨?_, .inl ?_⟩
        · rw [here, Fields.has, Fields.get?_erase, if_pos rfl, Option.isSome_none]
        · rw [here]
          exact ⟨_, told _ (List.mem_singleton_self _)⟩
      · exact .inl (by rw [Fields.get?_erase, if_neg here, given])
    · rw [Fields.keys_erase] at member
      exact absurd (Fields.has_iff.mpr (List.mem_filter.mp member).1) (Bool.eq_false_iff.mp absent)
  · rw [same]
    have other : "selector" ≠ "className" := by decide
    have becomes : BecomesClass target motion.attributes
        ((motion.attributes.erase "selector").set "className" (.text word)) word :=
      ⟨markup, ⟨selector, found, selects⟩, free, by rw [Fields.get?_set, if_pos rfl]⟩
    refine ⟨fun name value given => ?_, fun name member absent => ?_⟩
    · by_cases here : name = "selector"
      · refine .inr ⟨?_, .inr ⟨here, word, becomes⟩⟩
        rw [here, Fields.has, Fields.get?_set, if_neg other, Fields.get?_erase, if_pos rfl, Option.isSome_none]
      · have apart : name ≠ "className" := by
          rintro rfl
          rw [Fields.has, given] at free
          cases free
        exact .inl (by rw [Fields.get?_set, if_neg apart, Fields.get?_erase, if_neg here, given])
    · rw [← Fields.has_iff, Fields.has, Fields.get?_set] at member
      split at member
      · rename_i here
        exact .inl ⟨here, word, becomes⟩
      · rw [Fields.get?_erase] at member
        split at member
        · cases member
        · exact absurd member (Bool.eq_false_iff.mp absent)

/-- The first of several classes that is a selector is new; nothing else changes. -/
theorem answered_classToSelector :
    Answered target limitations place? motion.attributes (classToSelector target motion).attributes := by
  rcases classToSelector_cases target motion with same | ⟨calls, free, classes, word, others, found, words, same⟩
  · rw [same]
    exact .self
  · rw [same]
    refine ⟨fun name value given => .inl ?_, fun name member absent => ?_⟩
    · have apart : name ≠ "selector" := by
        rintro rfl
        rw [Fields.has, given] at free
        cases free
      rw [Fields.get?_set, if_neg apart, given]
    · rw [← Fields.has_iff, Fields.has, Fields.get?_set] at member
      split at member
      · rename_i here
        refine .inr ⟨here, String.ofList word, calls, ⟨classes, others, found, ?_⟩, free, ?_⟩
        · rw [words, String.toList_ofList]
        · rw [Fields.get?_set, if_pos rfl, String.toList_ofList]
      · exact absurd member (Bool.eq_false_iff.mp absent)

/-- What the target does not understand is taken out and reported. -/
theorem Answered.dropOthers (answered : Answered target limitations motion.location? before motion.attributes)
    (told : ∀ limitation, .limitation limitation ∈ dropRemarks target motion → limitation ∈ limitations) :
    Accounted target limitations motion.location? before (dropOthers target motion).attributes := by
  have class_ {word : String} (becomes : BecomesClass target before motion.attributes word) :
      BecomesClass target before (Attributes.dropOthers target motion).attributes word := by
    refine { becomes with written := ?_ }
    rw [get?_dropOthers, if_pos (stays_of_portable (isPortable_className becomes.markup)), becomes.written]
  have selector {word : String} (becomes : BecomesSelector target before motion.attributes word) :
      BecomesSelector target before (Attributes.dropOthers target motion).attributes word := by
    refine { becomes with written := ?_ }
    have stay : stays target "selector" = true := rfl
    rw [get?_dropOthers, if_pos stay, becomes.written]
  refine { kept := fun name value given => ?_, new := fun name member absent => ?_, understood := fun name member => ?_ }
  · rcases answered.kept name value given with still | ⟨gone, answer⟩
    · rw [get?_dropOthers]
      by_cases stay : stays target name = true
      · exact .inl (by rw [if_pos stay, still])
      · refine .inr ⟨by rw [Fields.has, get?_dropOthers, if_neg stay, Option.isSome_none], .inl ?_⟩
        have known : name ∈ motion.attributes.keys := Fields.has_iff.mp (by rw [Fields.has, still, Option.isSome_some])
        refine ⟨_, told _ (List.mem_map.mpr ⟨name, List.mem_filter.mpr ⟨known, ?_⟩, rfl⟩)⟩
        rwa [Bool.not_eq_true', ← Bool.not_eq_true]
    · refine .inr ⟨?_, answer.imp_right (And.imp_right (Exists.imp fun _ => class_))⟩
      rw [Fields.has, Option.isSome_eq_false_iff, Option.isNone_iff_eq_none] at gone ⊢
      rw [get?_dropOthers, gone, ite_self]
  · rw [keys_dropOthers] at member
    exact (answered.new name (List.mem_filter.mp member).1 absent).imp (And.imp_right (Exists.imp fun _ => class_))
      (And.imp_right (Exists.imp fun _ => selector))
  · rw [keys_dropOthers] at member
    have stay := (List.mem_filter.mp member).2
    rw [stays, Bool.or_eq_true, Bool.or_eq_true, beq_iff_eq, beq_iff_eq, or_assoc] at stay
    exact stay

/-- The pass over the attributes of one motion accounts for all of them. -/
theorem accounted_of_told
    (told : ∀ limitation, .limitation limitation ∈ (convert target motion).2 → limitation ∈ limitations) :
    Accounted target limitations motion.location? motion.attributes (convert target motion).1.attributes := by
  have classed : Answered target limitations motion.location? motion.attributes (selectorToClass target motion).1.attributes :=
    answered_selectorToClass fun limitation remarked =>
      told limitation (List.mem_append_left _ (List.mem_append_right _ remarked))
  have place : (classToSelector target (selectorToClass target motion).1).location? = motion.location? := by
    rw [classToSelector_eq, selectorToClass_fst]
  have selected : Answered target limitations motion.location? motion.attributes
      (classToSelector target (selectorToClass target motion).1).attributes := by
    by_cases calls : target = .js
    · have same : selectorToClass target motion = (motion, []) :=
        (selectorToClass_cases target motion).resolve_right fun turned => turned.1 calls
      rw [same]
      exact answered_classToSelector
    · rw [show classToSelector target (selectorToClass target motion).1 = (selectorToClass target motion).1 from
        if_neg fun both => calls both.1]
      exact classed
  rw [← place] at selected ⊢
  exact selected.dropOthers fun limitation remarked => told limitation (List.mem_append_right _ remarked)

end Attributes

namespace Component

open Attributes (Accounted)

variable {target : Framework} {component converted : Component} {account told : Account}

/-- **Attributes are kept, translated or reported.** At every depth of a component that is converted, whatever is left of the
attributes means something to the target, what is gone is reported or is a class now, and nothing else is new. -/
theorem accounted_convert (done : component.convert target account = .ok (converted, told)) :
    Forest.Pairs (fun _ own after => Accounted target told.limitations own.location? own.attributes after.attributes)
      component.elements converted.elements := by
  obtain ⟨staggered, pairs, after, remarks⟩ := exists_carried done
  have each : Forest.Pairs (fun _ own after => Accounted target told.limitations own.location? own.attributes after.attributes)
      staggered converted.elements := by
    rw [after]
    refine Forest.pairs_map fun motion member => Attributes.accounted_of_told fun limitation remarked => ?_
    exact remarks motion member limitation (List.mem_append_left _ (List.mem_append_left _ remarked))
  refine pairs.after each fun _ own middle last same accounted => ?_
  obtain ⟨place, attributes, -⟩ := Motion.of_withoutPhases_eq same
  rwa [← place, ← attributes]

/-- A box that is selected by its class, and in it one that is dragged and has a class beside its selector. -/
def selectedBoxes : Component :=
  Component.ofForest .js false "Box"
    [⟨{ Motion.ofTag "div" with attributes := [("selector", .text ".box"), ("title", .text "Box")] },
      [⟨{ Motion.ofTag "p" with
          attributes := [("drag", .bool true), ("selector", .text ".inner"), ("className", .text "plain")] }, []⟩]⟩]

/-- In a template the outer box has the class, and of the inner one the drag and the selector are reported. -/
theorem accounted_convert_selectedBoxes : ∃ converted told,
    selectedBoxes.convert .vue (Account.start .js) = .ok (converted, told) ∧
    converted.elements.motions.map (fun motion => (motion.attributes.get? "className").bind Value.text?) =
      [some "box", some "plain"] ∧
    told.limitations.map Limitation.construct = ["selector", "drag"] ∧
    Forest.Pairs (fun _ own after => Accounted .vue told.limitations own.location? own.attributes after.attributes)
      selectedBoxes.elements converted.elements := by
  have shown : ((selectedBoxes.convert .vue (Account.start .js)).map fun result =>
      (result.1.elements.motions.map fun motion => (motion.attributes.get? "className").bind Value.text?,
        result.2.limitations.map Limitation.construct)).toOption =
      some ([some "box", some "plain"], ["selector", "drag"]) := by decide +kernel
  cases done : selectedBoxes.convert .vue (Account.start .js) with
  | error failure =>
    rw [done] at shown
    cases shown
  | ok result =>
    rw [done] at shown
    obtain ⟨classes, constructs⟩ := Prod.mk.inj (Option.some.inj shown)
    exact ⟨result.1, result.2, rfl, classes, constructs, accounted_convert done⟩

end Component

end AnimationCode
