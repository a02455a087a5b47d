/-
**The imports of a source that is written anew in place.**

Names that its animated parts need go to the import lines that bind names of the same source already, or onto lines of
their own, and names that nothing uses are taken out. As long as no line to which a name goes binds a namespace, the import
lines stay statements of the language, no name is bound twice, and the names that are needed are bound.

* `InPlace.IsSupplied`: import lines that bind what a component needs;
* `InPlace.Knows`: a component that knows which names its text binds;
* `InPlace.isSupplied_render`: the import lines of a component that is written anew.
-/

import AnimationCode.Component.OfSource
import AnimationCode.InPlace
import AnimationCode.Proofs.Import.Edit
import AnimationCode.Proofs.Import.Unused

namespace AnimationCode

open ImportLine (BeginsNone IsImportable localNames readAll)
open Stretch (AreFit AreRead bound placed whole)

namespace Stretch

variable {stretches : List Stretch} {sources : List String}

/-- A text of one line goes behind the import lines, after an empty line. -/
theorem exists_afterImports {block : List Char} (read : AreRead true stretches) (fits : AreFit sources stretches)
    (some_ : bound stretches ≠ []) (filled : block ≠ []) (within : '\n' ∉ block) (quiet : ∀ rest, BeginsNone (block ++ rest)) :
    ∃ after, ReducedMotion.afterImports (whole stretches) block = whole after ∧ AreRead true after ∧ AreFit sources after ∧
      bound after = bound stretches := by
  unfold ReducedMotion.afterImports
  rw [readAll_whole read]
  cases last_ : (placed 0 stretches).getLast? with
  | none =>
    rw [← flatMap_localNames_placed 0, List.getLast?_eq_none_iff.mp last_] at some_
    exact absurd rfl some_
  | some last =>
    obtain ⟨before, chars, line, rest, rfl, rfl⟩ := (mem_placed_iff 0).mp (List.mem_of_getLast? last_)
    obtain ⟨-, till, past⟩ := take_drop_whole before chars line rest
    obtain ⟨fitsBefore, fitsOn⟩ := areFit_append.mp fits
    obtain ⟨fitsLine, fitsRest⟩ := areFit_statement.mp fitsOn
    have onward : AreRead true (.other '\n' :: (block.map .other ++ rest)) :=
      .other (fun _ => ImportLine.beginsNone_cons rfl (by decide) _)
        (areRead_map_other within (fun _ => quiet _) (fun _ => filled) read.behind)
    refine ⟨before ++ .statement chars line :: .other '\n' :: .other '\n' :: (block.map .other ++ rest), ?_, read.insert onward, ?_, ?_⟩
    · dsimp only
      rw [Nat.zero_add, till, past]
      simp
    · exact areFit_append.mpr ⟨fitsBefore, areFit_statement.mpr ⟨fitsLine, areFit_other.mpr (areFit_other.mpr
        (areFit_append.mpr ⟨areFit_map_other block, fitsRest⟩))⟩⟩
    · simp

/-- The declaration of the wish for reduced motion goes behind the import lines. -/
theorem exists_ensure {framework : Framework} (script : framework ≠ .vue) (typescript : Bool) (read : AreRead true stretches)
    (fits : AreFit sources stretches) (some_ : bound stretches ≠ []) :
    ∃ after, ReducedMotion.ensure (whole stretches) framework typescript = whole after ∧ AreRead true after ∧
      AreFit sources after ∧ bound after = bound stretches := by
  unfold ReducedMotion.ensure
  rw [if_neg script]
  split
  · exact ⟨stretches, rfl, read, fits, rfl⟩
  · have chars : ReducedMotion.declaration.toList = 'c' :: ReducedMotion.declaration.toList.drop 1 := by decide +kernel
    refine exists_afterImports read fits some_ (by rw [chars]; exact List.cons_ne_nil _ _) (by decide +kernel) fun rest => ?_
    rw [chars]
    exact ImportLine.beginsNone_cons rfl (by decide) _

end Stretch

namespace InPlace

/-- Whether a name serves where another is needed: it is that name, or the short name of the motion namespace. -/
def Serves (component : Component) (name wanted : String) : Prop := name = wanted ∨ component.framework = .react ∧ name = "m"

/-- Import statements, written as they are read, that bind no name twice, and all that the animated parts of a component
need. -/
structure IsSupplied (component : Component) (lines : List ImportLine) : Prop where
  valid : ∀ line ∈ lines, line.IsValid
  regular : ∀ line ∈ lines, line.isBare = false → line.IsRegular
  distinct : (lines.flatMap localNames).Nodup
  supplied : ∀ wanted ∈ requiredImports component, ∃ name ∈ lines.flatMap localNames, Serves component name wanted.2

/-- What a component needs and does not have. -/
def neededImports (component : Component) : List (String × String) :=
  (requiredImports component).filter fun wanted => !(presentNames component).contains wanted.2

/-- Whether a text uses a name outside its import lines. -/
def IsUsed (text : List Char) (name : String) : Prop := Imports.uses (Imports.without text (readAll text)) name.toList = true

/-- A component that knows which names the import lines of its text bind, of those that it needs, and which of them it uses. -/
structure Knows (component : Component) (removed : List String) : Prop where
  fits : ∀ line ∈ readAll (splice component), line.Fits ((neededImports component).map Prod.fst)
  distinct : ((readAll (splice component)).flatMap localNames).Nodup
  present : ∀ wanted ∈ requiredImports component, wanted.2 ∈ presentNames component →
    ∃ name ∈ (readAll (splice component)).flatMap localNames, Serves component name wanted.2 ∧ IsUsed component.source name
  absent : ∀ wanted ∈ neededImports component, wanted.2 ∉ (readAll (splice component)).flatMap localNames
  unused : ∀ name ∈ removed, name ∈ Imports.unused component.source (some motionSources)
  /-- Where lines may be taken out, no text before one leaves a quote open. -/
  closed : removed ≠ [] → ∀ line ∈ readAll (splice component), ¬ ImportLine.LeavesOpen true ((splice component).take line.start)

variable {component : Component} {removed : List String} {stretches : List Stretch}

theorem requiredImports_cases (component : Component) : requiredImports component ⊆
    [("framer-motion", "motion"), ("motion", "animate"), ("motion", "inView")] ∧
    ((requiredImports component).map Prod.snd).Nodup := by
  unfold requiredImports
  split
  · exact ⟨List.nil_subset _, List.nodup_nil⟩
  · split
    · exact ⟨List.nil_subset _, List.nodup_nil⟩
    · decide
    · split <;> decide

theorem isImportable {wanted : String × String} (member : wanted ∈ requiredImports component) :
    IsImportable wanted.1 wanted.2 := by
  have simple := (requiredImports_cases component).1 member
  simp only [List.mem_cons, List.not_mem_nil, or_false] at simple
  rcases simple with rfl | rfl | rfl
  all_goals
    refine ⟨⟨by decide, by decide⟩, ⟨Script.isWord_of_check rfl, by decide⟩, ⟨by decide, rfl, by decide⟩, rfl⟩

theorem fixImports_eq (code : List Char) (component : Component) (removed : List String) :
    fixImports code component removed = (neededImports component).foldl (fun text wanted => Imports.add text wanted.1 wanted.2)
      (if removed.isEmpty then code else Imports.trim code removed none) := rfl

/-- The import lines of a text that are statements, told by its stretches. -/
theorem Knows.areFit (knows : Knows component removed) (read : AreRead true stretches) (same : whole stretches = splice component) :
    AreFit ((neededImports component).map Prod.fst) stretches := by
  intro chars line member
  obtain ⟨before, after, rfl⟩ := List.append_of_mem member
  have lines := knows.fits
  rw [← same, Stretch.readAll_whole read] at lines
  obtain ⟨valid, single⟩ := lines _ ((Stretch.mem_placed_iff 0).mpr ⟨before, chars, line, after, rfl, rfl⟩)
  exact ⟨⟨valid.sound, valid.statement⟩, single⟩

/-- The import lines of a text get what a component needs. -/
theorem exists_fixImports (knows : Knows component removed) (read : AreRead true stretches) (same : whole stretches = splice component) :
    ∃ after, fixImports (whole stretches) component removed = whole after ∧ AreRead true after ∧
      AreFit ((neededImports component).map Prod.fst) after ∧ (bound after).Nodup ∧
      ∀ wanted ∈ requiredImports component, ∃ name ∈ bound after, Serves component name wanted.2 := by
  have fits := knows.areFit read same
  have bound_ : (readAll (splice component)).flatMap localNames = bound stretches := by
    rw [← same, Stretch.readAll_whole read, Stretch.flatMap_localNames_placed]
  obtain ⟨-, distinct, present, absent, unused, closed⟩ := knows
  rw [bound_] at distinct
  have freed : ∃ middle, (if removed.isEmpty then whole stretches else Imports.trim (whole stretches) removed none) = whole middle ∧
      AreRead true middle ∧ AreFit ((neededImports component).map Prod.fst) middle ∧ (bound middle).Sublist (bound stretches) ∧
      ∀ name ∈ bound stretches, name ∉ removed → name ∈ bound middle := by
    split
    · exact ⟨stretches, rfl, read, fits, .refl _, fun _ member _ => member⟩
    · rename_i some_
      obtain ⟨middle, trims, text⟩ := Stretch.exists_trims removed none read
      have quotes : Stretch.Closed true stretches := Stretch.closed_of_readAll read (by
        rw [same]
        exact closed (by simpa using some_))
      exact ⟨middle, text, read.trims trims (fun chars line member => (fits chars line member).sound) quotes, trims.areFit fits,
        trims.sublist_bound, fun name member kept => trims.mem_bound fits
          (fun gone known => ImportLine.ne_namespace_of_mem_unused (unused gone known)) member kept⟩
  obtain ⟨middle, text, readMiddle, fitsMiddle, sublist, stays⟩ := freed
  have among {wanted : String × String} : wanted ∈ neededImports component ↔
      wanted ∈ requiredImports component ∧ wanted.2 ∉ presentNames component := by
    rw [neededImports, List.mem_filter]
    simp
  have names : ((neededImports component).map Prod.snd).Nodup :=
    (requiredImports_cases component).2.sublist (List.filter_sublist.map Prod.snd)
  have fresh : ∀ wanted ∈ neededImports component, wanted.2 ∉ bound stretches := fun wanted member => bound_ ▸ absent wanted member
  obtain ⟨after, done, readAfter, good, perm⟩ := Stretch.exists_foldl_add readMiddle fitsMiddle
    (fun wanted member => ⟨List.mem_map_of_mem member, isImportable (among.mp member).1⟩)
    (fun wanted member known => fresh wanted member (sublist.subset known)) names
  refine ⟨after, ?_, readAfter, good, perm.nodup_iff.mpr ?_, fun wanted member => ?_⟩
  · rw [fixImports_eq, text]
    exact done
  · refine List.nodup_append.mpr ⟨names, distinct.sublist sublist, ?_⟩
    rintro name new _ known rfl
    obtain ⟨wanted, member, rfl⟩ := List.mem_map.mp new
    exact fresh wanted member (sublist.subset known)
  · by_cases has : wanted.2 ∈ presentNames component
    · obtain ⟨name, known, serves, used⟩ := present wanted member has
      -- what is used is not among the names that are removed
      have kept : name ∉ removed := fun gone => Imports.not_mem_unused used (unused name gone)
      exact ⟨name, perm.mem_iff.mpr (List.mem_append_right _ (stays name (bound_ ▸ known) kept)), serves⟩
    · have new : wanted.2 ∈ (neededImports component).map Prod.snd := List.mem_map_of_mem (among.mpr ⟨member, has⟩)
      exact ⟨wanted.2, perm.mem_iff.mpr (List.mem_append_left _ new), .inl rfl⟩

/-- A component that gives way to the wish for reduced motion needs some name. -/
theorem exists_required (script : component.framework = .react ∨ component.framework = .js)
    (reduced : component.elements.reducesMotion = true) : ∃ wanted, wanted ∈ requiredImports component := by
  have some_ : component.elements.isEmpty = false := by
    cases elements : component.elements with
    | nil =>
      rw [elements] at reduced
      cases reduced
    | cons => rfl
  unfold requiredImports
  rw [some_]
  rcases script with react | js
  · exact ⟨_, by rw [react]; exact List.mem_cons_self⟩
  · exact ⟨_, by rw [js]; exact List.mem_cons_self⟩

/-- **The import lines of a component that is written anew in place**, whatever is removed and whether it gives way to a
wish for reduced motion. -/
theorem isSupplied_render (script : component.framework = .react ∨ component.framework = .js) (shell : component.hasShell = true)
    (knows : Knows component removed) (context : Context) :
    IsSupplied component (readAll (render component removed context)) := by
  obtain ⟨stretches, same, read⟩ := Stretch.exists_areRead true (splice component)
  obtain ⟨middle, fixed, readMiddle, fits, distinct, supplied⟩ := exists_fixImports knows read same
  have ready : ∃ after, render component removed context = whole after ∧ AreRead true after ∧
      AreFit ((neededImports component).map Prod.fst) after ∧ bound after = bound middle := by
    unfold render
    dsimp only
    rw [if_pos shell, ← same, fixed]
    split
    · rename_i reduced
      refine Stretch.exists_ensure (by rcases script with react | js <;> simp [*]) context.typescript readMiddle fits ?_
      obtain ⟨wanted, member⟩ := exists_required script reduced
      obtain ⟨name, known, -⟩ := supplied wanted member
      exact List.ne_nil_of_mem known
    · exact ⟨middle, rfl, readMiddle, fits, rfl⟩
  obtain ⟨after, text, readAfter, good, names⟩ := ready
  have bound_ : (readAll (render component removed context)).flatMap localNames = bound middle := by
    rw [text, Stretch.readAll_whole readAfter, Stretch.flatMap_localNames_placed, names]
  have each : ∀ found ∈ readAll (render component removed context), found.IsValid ∧ (found.isBare = false → found.IsRegular) := by
    intro found member
    rw [text, Stretch.readAll_whole readAfter] at member
    obtain ⟨before, chars, line, rest, rfl, rfl⟩ := (Stretch.mem_placed_iff 0).mp member
    have valid := (good chars line (by simp)).toIsValid
    refine ⟨⟨valid.sound, valid.statement⟩, fun filled => ?_⟩
    obtain ⟨source, default, named, sound, -⟩ := ImportLine.isRegular_of_spells readAfter.of_append.1 valid.sound filled
    exact ⟨source, default, named, sound, filled⟩
  exact ⟨fun found member => (each found member).1, fun found member => (each found member).2, by rwa [bound_], by rwa [bound_]⟩

/-- A component that imports a name it does not use, and not all that it uses. -/
def careless : Source :=
  ⟨"import \x7b animate, spring \x7d from \"motion\"\n\nexport function animateBox(element) \x7b\n  inView(element, () => \x7b animate(element, \x7b x: 1 \x7d); \x7d);\n\x7d\n".toList,
    some "js", some false, none⟩

/-- The component imports what it uses, and no more, after it was written anew. -/
theorem isSupplied_render_careless : ∃ component, careless.read = .ok component ∧
    IsSupplied component (readAll (render component ["spring"] ⟨.js, false, "Box", Focus.none⟩)) ∧
    (readAll (render component ["spring"] ⟨.js, false, "Box", Focus.none⟩)).map ImportLine.render =
      ["import \x7b animate, inView \x7d from 'motion';"] := by
  have names : careless.read.toOption.map (fun component => ((component.framework, component.hasShell),
      requiredImports component, presentNames component, readAll (splice component))) =
        some ((.js, true), [("motion", "animate"), ("motion", "inView")], ["animate", "spring"],
          [⟨0, 40, "motion", none, ["animate", "spring"], false⟩]) := by decide +kernel
  have uses : careless.read.toOption.map (fun component =>
      (Imports.uses (Imports.without component.source (readAll component.source)) "animate".toList,
        Imports.unused component.source (some motionSources),
        (readAll (render component ["spring"] ⟨.js, false, "Box", Focus.none⟩)).map ImportLine.render)) =
          some (true, ["spring"], ["import \x7b animate, inView \x7d from 'motion';"]) := by decide +kernel
  cases done : careless.read with
  | error failure =>
    rw [done] at names
    cases names
  | ok component =>
    rw [done] at names uses
    simp only [Except.toOption, Option.map_some, Option.some.injEq, Prod.mk.injEq] at names uses
    obtain ⟨⟨js, shell⟩, required, present, lines⟩ := names
    obtain ⟨used, unused, written⟩ := uses
    have needed : neededImports component = [("motion", "inView")] := by
      rw [neededImports, required, present]
      decide
    refine ⟨component, rfl, isSupplied_render (.inr js) shell ⟨?_, ?_, ?_, ?_, ?_, fun _ => ?_⟩ _, written⟩
    · rw [lines]
      refine List.forall_mem_singleton.mpr ⟨⟨nofun, fun spec member => ?_, nofun⟩, nofun⟩
      rcases List.mem_pair.mp member with rfl | rfl
      · exact .inl ⟨Script.isWord_of_check rfl, by decide⟩
      · exact .inl ⟨Script.isWord_of_check rfl, by decide⟩
    · rw [lines]
      decide +kernel
    · rw [required, present, lines]
      refine List.forall_mem_cons.mpr ⟨fun _ => ⟨"animate", by decide +kernel, .inl rfl, used⟩, ?_⟩
      exact List.forall_mem_singleton.mpr fun known => absurd known (by decide)
    · rw [needed, lines]
      decide +kernel
    · rw [unused]
      exact List.forall_mem_singleton.mpr List.mem_cons_self
    · rw [lines]
      exact List.forall_mem_singleton.mpr (ImportLine.not_leavesOpen (List.forall_mem_nil _) true)

end InPlace

end AnimationCode
