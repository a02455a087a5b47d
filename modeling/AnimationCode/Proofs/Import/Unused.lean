/-
**Which imports count as unused.**

An imported name counts as used where it stands whole outside the import lines, as a name of the script does, unless a point
stands right before it. So a name that is reported, and then removed, stands nowhere else but behind points: behind the point
of a property, and behind the last point of a spread as well.

What stands outside the import lines loses no more than line breaks between lines when imports are removed, so that a name
that was used there still is.

* `Imports.StandsWhole`: between two texts stands a whole name;
* `Imports.uses_eq_true_iff`: what a use is;
* `Stretch.mem_unused_iff`, `Imports.not_mem_unused`: the names that are reported, and those that are not;
* `ImportLine.ne_namespace_of_mem_unused`: no namespace is reported as such;
* `Loses`, `Loses.uses`: what is used in a text is used in it without some of its line breaks;
* `Stretch.unused_trims`, `Stretch.Trims.eq_of_settled`: nothing more is removed, and what is written is written again;
* `TextPass.exists_bundleSize`: what is removed is reported, and what is reported stands behind points only;
* `TextPass.bundleSize_bundleSize`: unused imports are removed once.
-/

import AnimationCode.Optimize.Text
import AnimationCode.Proofs.Import.Trimmed
import AnimationCode.Proofs.Script.Lexeme

namespace AnimationCode

open ImportLine (IsSpecifier isBare isIndent localName readAll revised)
open Stretch (whole others placed AreRead Trims)

namespace Imports

/-- A character that a name goes on with. -/
def goesOn (c : Char) : Bool := Text.isWord c || c == '$'

/-- Between two texts stands a whole name. -/
structure StandsWhole (front back : List Char) : Prop where
  begins : ∀ c ∈ front.getLast?, goesOn c = false
  ends : ∀ c ∈ back.head?, goesOn c = false

/-- A name of the script stands whole. -/
theorem standsWhole_of_endsName {front back : List Char} (begins : ∀ c ∈ front.getLast?, Script.isNameRest c = false)
    (ends : Script.EndsName back) : StandsWhole front back := by
  have other {c : Char} (outside : Script.isNameRest c = false) : goesOn c = false := by
    cases inside : goesOn c with
    | false => rfl
    | true =>
      rw [Script.isNameRest_of_isNamePart inside] at outside
      cases outside
  exact ⟨fun c member => other (begins c member), fun c member => other (ends c member).1⟩

/-- **A use of a name**: it stands whole, and not behind a point. -/
theorem uses_eq_true_iff {text name : List Char} : uses text name = true ↔
    ∃ front back, text = front ++ (name ++ back) ∧ StandsWhole front back ∧ front.getLast? ≠ some '.' := by
  unfold uses
  rw [Text.anySuffix_eq_true_iff]
  simp only [Option.or_none, Bool.and_eq_true, Bool.not_eq_true']
  constructor
  · rintro ⟨front, suffix, rfl, before, here⟩
    split at here
    · rename_i back stripped
      obtain rfl := Text.eq_append_of_stripStart? stripped
      refine ⟨front, back, rfl, ⟨fun c member => ?_, fun c member => ?_⟩, fun point => ?_⟩
      · rw [member] at before
        exact (Bool.or_eq_false_iff.mp before).1
      · rw [member] at here
        simpa [goesOn] using here
      · rw [point] at before
        cases before
    · cases here
  · rintro ⟨front, back, rfl, ⟨begins, ends⟩, point⟩
    refine ⟨front, name ++ back, rfl, ?_, ?_⟩
    · cases last : front.getLast? with
      | none => rfl
      | some c =>
        rw [last] at point
        exact Bool.or_eq_false_iff.mpr ⟨begins c last, by simpa using fun same : c = '.' => point (congrArg some same)⟩
    · rw [Text.stripStart?_append]
      dsimp only
      cases first : back.head? with
      | none => rfl
      | some c =>
        have other : (Text.isWord c || c == '$') = false := ends c first
        rw [Option.any_some, other]
        rfl

end Imports

open Imports (StandsWhole)

variable {stretches : List Stretch} {sources : Option (List String)} {name : String}

/-- Some import line from one of the sources binds a name. -/
def Stretch.Binds (stretches : List Stretch) (sources : Option (List String)) (name : String) : Prop :=
  ∃ chars line, .statement chars line ∈ stretches ∧ sources.all (·.contains line.source) = true ∧ name ∈ Imports.boundNames line

/-- A name stands nowhere outside the import lines as a whole, but behind points. -/
def Stretch.OnlyBehindPoints (stretches : List Stretch) (name : String) : Prop :=
  ∀ front back, others stretches = front ++ (name.toList ++ back) → StandsWhole front back → front.getLast? = some '.'

open Stretch (Binds OnlyBehindPoints)

theorem Stretch.onlyBehindPoints_iff : OnlyBehindPoints stretches name ↔ Imports.uses (others stretches) name.toList = false := by
  rw [← Bool.not_eq_true, Imports.uses_eq_true_iff]
  constructor
  · rintro only ⟨front, back, split, whole_, point⟩
    exact point (only front back split whole_)
  · exact fun none_ front back split whole_ => Decidable.byContradiction fun point => none_ ⟨front, back, split, whole_, point⟩

/-- **The names that are reported** are those which a line binds and which stand behind points only. -/
theorem Stretch.mem_unused_iff (read : AreRead true stretches) :
    name ∈ Imports.unused (whole stretches) sources ↔ Binds stretches sources name ∧ OnlyBehindPoints stretches name := by
  unfold Imports.unused
  dsimp only
  rw [Stretch.without_whole read, Stretch.readAll_whole read, List.mem_flatMap]
  constructor
  · rintro ⟨found, member, here⟩
    obtain ⟨before, chars, line, after, rfl, rfl⟩ := (Stretch.mem_placed_iff 0).mp member
    split at here
    · rename_i known
      obtain ⟨bound, silent⟩ := List.mem_filter.mp here
      exact ⟨⟨chars, line, List.mem_append_right _ List.mem_cons_self, known, bound⟩, Stretch.onlyBehindPoints_iff.mpr (by simpa using silent)⟩
    · cases here
  · rintro ⟨⟨chars, line, member, known, bound⟩, only⟩
    obtain ⟨before, after, rfl⟩ := List.append_of_mem member
    refine ⟨_, (Stretch.mem_placed_iff 0).mpr ⟨before, chars, line, after, rfl, rfl⟩, ?_⟩
    rw [if_pos (show sources.all (·.contains line.source) = true from known)]
    exact List.mem_filter.mpr ⟨bound, by rw [Stretch.onlyBehindPoints_iff.mp only]; rfl⟩

/-- A name of the script that is reported stands behind a point wherever it stands outside the import lines. -/
theorem Stretch.OnlyBehindPoints.getLast?_eq (only : OnlyBehindPoints stretches name) {front back : List Char}
    (split : others stretches = front ++ (name.toList ++ back)) (begins : ∀ c ∈ front.getLast?, Script.isNameRest c = false)
    (ends : Script.EndsName back) : front.getLast? = some '.' :=
  only front back split (Imports.standsWhole_of_endsName begins ends)

/-- The last point of a spread counts as the point of a property. -/
example : Imports.unused "import \x7b spring \x7d from 'motion';\n\nanimate(\x7b ...spring \x7d);\n".toList none = ["spring"] := by
  decide +kernel

/-- A name that is used is not reported. -/
theorem Imports.not_mem_unused {text : List Char} (used : uses (without text (readAll text)) name.toList = true) :
    name ∉ unused text sources := by
  intro reported
  obtain ⟨line, -, here⟩ := List.mem_flatMap.mp reported
  split at here
  · have silent := (List.mem_filter.mp here).2
    rw [used] at silent
    cases silent
  · cases here

/-! ### Removing again -/

namespace Text

/-- The last piece of a text is the text, or stands behind an occurrence of the part. -/
theorem exists_getLast_splitOnText (needle text : List Char) : ∃ before last, (splitOnText needle text).getLast? = some last ∧
    text = before ++ last ∧ (before = [] ∨ needle <:+ before) := by
  have pieces (fuel : Nat) (pending rest : List Char) : ∃ before last,
      (splitOnText.go needle fuel pending rest).getLast? = some last ∧ pending ++ rest = before ++ last ∧
        (before = [] ∨ needle <:+ before) := by
    induction fuel generalizing pending rest with
    | zero =>
      cases rest with
      | nil => exact ⟨[], pending, rfl, List.append_nil pending, .inl rfl⟩
      | cons c rest => exact ⟨[], pending ++ c :: rest, rfl, rfl, .inl rfl⟩
    | succ fuel ih =>
      cases rest with
      | nil => exact ⟨[], pending, rfl, List.append_nil pending, .inl rfl⟩
      | cons c rest =>
        rw [splitOnText.go]
        split
        · rename_i left found
          split at found
          · cases found
          · obtain ⟨before, last, same, split, ends⟩ := ih [] left
            rw [List.nil_append] at split
            refine ⟨pending ++ needle ++ before, last, ?_, ?_, .inr ?_⟩
            · rw [List.getLast?_cons, same]
              rfl
            · rw [eq_append_of_stripStart? found, split]
              simp
            · rcases ends with rfl | ends
              · rw [List.append_nil]
                exact List.suffix_append pending needle
              · exact ends.trans (List.suffix_append _ before)
        · obtain ⟨before, last, same, split, ends⟩ := ih (pending ++ [c]) rest
          exact ⟨before, last, same, by rw [← split]; simp, ends⟩
  exact pieces text.length [] text

theorem splitOnText_go_ne_nil (needle : List Char) (fuel : Nat) (pending rest : List Char) :
    splitOnText.go needle fuel pending rest ≠ [] := by
  fun_induction splitOnText.go needle fuel pending rest with
  | case4 fuel pending c cs none_ ih => exact ih
  | _ => exact List.cons_ne_nil _ _

/-- The last piece of a text does not hold the part. -/
theorem not_infix_getLast_splitOnText {needle text : List Char} (some_ : needle ≠ []) :
    ∀ last ∈ (splitOnText needle text).getLast?, ¬ needle <:+: last := by
  have stops (pending : List Char) (passed : ∀ front back, pending = front ++ back → back ≠ [] → stripStart? needle back = none) :
      ¬ needle <:+: pending := by
    rintro ⟨front, back, rfl⟩
    have none_ := passed front (needle ++ back) (List.append_assoc ..) (List.append_ne_nil_of_left_ne_nil some_ back)
    rw [stripStart?_append] at none_
    cases none_
  -- the part begins nowhere in the piece that is being read
  have pieces (fuel : Nat) (pending rest : List Char) (enough : rest.length ≤ fuel)
      (passed : ∀ front back, pending = front ++ back → back ≠ [] → stripStart? needle (back ++ rest) = none) :
      ∀ last ∈ (splitOnText.go needle fuel pending rest).getLast?, ¬ needle <:+: last := by
    induction fuel generalizing pending rest with
    | zero =>
      obtain rfl := List.length_eq_zero_iff.mp (Nat.le_zero.mp enough)
      intro last member
      obtain rfl : pending = last := Option.some.inj member
      exact stops pending (by simpa using passed)
    | succ fuel ih =>
      cases rest with
      | nil =>
        intro last member
        obtain rfl : pending = last := Option.some.inj member
        exact stops pending (by simpa using passed)
      | cons c rest =>
        intro last member
        rw [splitOnText.go, if_neg some_] at member
        split at member
        · rename_i left found
          rw [List.getLast?_cons] at member
          have shorter : left.length ≤ fuel := by
            have whole := congrArg List.length (eq_append_of_stripStart? found)
            have positive := List.length_pos_iff.mpr some_
            simp only [List.length_cons, List.length_append] at whole enough
            omega
          have inner := ih [] left shorter fun front back split filled => absurd (List.append_eq_nil_iff.mp split.symm).2 filled
          cases after : (splitOnText.go needle fuel [] left).getLast? with
          | none => exact absurd (List.getLast?_eq_none_iff.mp after) (splitOnText_go_ne_nil needle fuel [] left)
          | some piece =>
            rw [after] at member
            exact inner last (after.trans member)
        · rename_i none_
          refine ih (pending ++ [c]) rest (by simpa using enough) (fun front back split filled => ?_) last member
          obtain ⟨inner, d, rfl⟩ : ∃ inner d, back = inner ++ [d] := ⟨_, _, (List.dropLast_append_getLast filled).symm⟩
          obtain ⟨rfl, same⟩ := List.append_inj' (split.trans (List.append_assoc ..).symm) rfl
          obtain rfl := (List.cons.inj same).1
          cases inner with
          | nil => exact none_
          | cons e inner =>
            rw [List.append_assoc]
            exact passed front (e :: inner) rfl (List.cons_ne_nil e inner)
  exact pieces text.length [] text (Nat.le_refl _) fun front back split filled => absurd (List.append_eq_nil_iff.mp split.symm).2 filled

theorem not_mem_squeeze_of_isBlank {c : Char} {text : List Char} (blank : isBlank c = true) (other : c ≠ ' ') :
    c ∉ squeeze text := by
  intro member
  rcases mem_of_mem_intercalate member with same | ⟨word, known, inside⟩
  · exact other (List.mem_singleton.mp same)
  · rw [(isWord_of_mem_words word known).2 c inside] at blank
    cases blank

end Text

/-- A name that may be looked for: it is not empty and stands on one line. -/
structure IsSought (name : List Char) : Prop where
  nonempty : name ≠ []
  unbroken : '\n' ∉ name

namespace ImportLine

variable {line : ImportLine} {removed : List String} {tidySources : Option (List String)}

theorem toList_localName {spec : String} {last : List Char}
    (same : (Text.splitOnText " as ".toList spec.toList).getLast? = some last) : (localName spec).toList = Text.trim last := by
  rw [localName, same, String.toList_ofList]
  rfl

theorem isSought_localName {spec : String} (isSpecifier : IsSpecifier spec.toList) : IsSought (localName spec).toList := by
  obtain ⟨before, last, same, split, ends⟩ := Text.exists_getLast_splitOnText " as ".toList spec.toList
  rw [toList_localName same]
  refine ⟨fun nothing => ?_, fun member => ?_⟩
  · -- a specifier does not end with a blank, so that its last piece is no blank text
    have solid : ∀ c ∈ spec.toList.getLast?, Text.isBlank c = false := by
      rw [← isSpecifier.squeezed]
      exact Text.not_isBlank_getLast?_intercalate Text.isWord_of_mem_words
    have blank : Text.isBlankText last = true := by
      rw [← Text.words_eq_nil_iff, ← Text.words_trim, nothing]
      rfl
    cases ended : spec.toList.getLast? with
    | none => exact isSpecifier.nonempty (List.getLast?_eq_none_iff.mp ended)
    | some c =>
      have known := ended
      rw [split, List.getLast?_append] at known
      cases lastChar : last.getLast? with
      | some d =>
        rw [lastChar, Option.some_or] at known
        obtain rfl := Option.some.inj known
        have space : Text.isBlank d = true := List.all_eq_true.mp blank d (List.mem_of_getLast? lastChar)
        rw [solid d ended] at space
        cases space
      | none =>
        rw [lastChar, Option.none_or] at known
        rcases ends with rfl | ⟨front, rfl⟩
        · cases known
        · rw [List.getLast?_append] at known
          obtain rfl : ' ' = c := Option.some.inj known
          exact absurd (solid ' ' ended) (by decide)
  · have inside : '\n' ∈ spec.toList := split ▸ List.mem_append_right before (Text.trim_subset member)
    rw [← isSpecifier.squeezed] at inside
    exact Text.not_mem_squeeze_of_isBlank (by decide) (by decide) inside

/-- A name is what stands behind the last word for another one. -/
theorem not_infix_localName (spec : String) : ¬ " as ".toList <:+: (localName spec).toList := by
  obtain ⟨before, last, same, -⟩ := Text.exists_getLast_splitOnText " as ".toList spec.toList
  have within : Text.trim last <:+: last :=
    (Text.prefix_trimRight (Text.trimLeft last)).isInfix.trans (List.dropWhile_suffix Text.isBlank).isInfix
  rw [toList_localName same]
  exact fun inside => Text.not_infix_getLast_splitOnText (by decide) last same (inside.trans within)

/-- A namespace is not reported. -/
theorem ne_namespace_of_mem_unused {text : List Char} {sources : Option (List String)} {name : String}
    (reported : name ∈ Imports.unused text sources) (inner : List Char) : name.toList ≠ "* as ".toList ++ inner := by
  intro namespace_
  obtain ⟨line, -, here⟩ := List.mem_flatMap.mp reported
  split at here
  · rcases List.mem_append.mp (List.mem_filter.mp here).1 with named | default
    · obtain ⟨spec, -, rfl⟩ := List.mem_map.mp named
      exact not_infix_localName spec ⟨['*'], inner, namespace_.symm⟩
    · split at default
      · split at default
        · cases default
        · rename_i unstarred
          obtain rfl := List.mem_singleton.mp default
          exact unstarred (String.startsWith_string_iff.mpr ⟨" as ".toList ++ inner, namespace_.symm⟩)
      · cases default
  · cases here

/-- The names that a regular line binds. -/
theorem IsRegular.isSought (regular : line.IsRegular) {name : String} (bound : name ∈ Imports.boundNames line) :
    IsSought name.toList := by
  rcases List.mem_append.mp bound with named | default
  · obtain ⟨spec, member, rfl⟩ := List.mem_map.mp named
    exact isSought_localName (regular.named spec member)
  · split at default
    · rename_i found same
      split at default
      · cases default
      · rename_i unstarred
        obtain rfl := List.mem_singleton.mp default
        refine ⟨(regular.default name same).nonempty, fun member => ?_⟩
        rcases (regular.sound name same).2 with starred | solid
        · refine unstarred (String.startsWith_string_iff.mpr ?_)
          cases chars : name.toList with
          | nil =>
            rw [chars] at starred
            cases starred
          | cons c rest =>
            rw [chars] at starred
            obtain rfl := Option.some.inj starred
            exact ⟨rest, rfl⟩
        · exact absurd (solid '\n' member) (by decide)
    · cases default

theorem mem_boundNames_revised {name : String} (bound : name ∈ Imports.boundNames (revised removed tidySources line)) :
    name ∈ Imports.boundNames line ∧ name ∉ removed := by
  rcases List.mem_append.mp bound with named | default
  · obtain ⟨spec, member, rfl⟩ := List.mem_map.mp named
    obtain ⟨known, kept⟩ := mem_named_revised.mp member
    exact ⟨List.mem_append_left _ (List.mem_map_of_mem known), kept⟩
  · split at default
    · rename_i found same
      obtain ⟨known, kept⟩ := mem_default_revised.mp (show found ∈ _ from same)
      have own : name = found := by
        split at default
        · cases default
        · exact List.mem_singleton.mp default
      subst own
      refine ⟨List.mem_append_right _ ?_, kept⟩
      rw [Option.mem_def.mp known]
      exact default
    · cases default

theorem eraseDups_of_nodup {named : List String} (distinct : named.Nodup) : named.eraseDups = named := by
  rw [eraseDups_eq_tellAll]
  exact tellAll_of_nodup distinct

/-- Names in order are in order. -/
theorem tidy_tidy (named : List String) : Imports.tidy (Imports.tidy named) = Imports.tidy named := by
  have ordered : (Imports.tidy named).Pairwise fun first second =>
      decide (¬ Text.lowerText (localName second) < Text.lowerText (localName first)) = true := by
    refine List.pairwise_mergeSort (fun a b c first second => ?_) (fun a b => ?_) _
    · rw [decide_eq_true_eq, String.not_lt] at first second ⊢
      exact String.le_trans first second
    · rw [Bool.or_eq_true, decide_eq_true_eq, decide_eq_true_eq, String.not_lt, String.not_lt]
      exact String.le_total _ _
  conv_lhs => rw [Imports.tidy]
  rw [eraseDups_of_nodup nodup_tidy]
  exact List.mergeSort_of_pairwise ordered

theorem revised_nil (line : ImportLine) : revised [] tidySources line =
    if tidySources.any (·.contains line.source) then { line with named := Imports.tidy line.named } else line := by
  have same : without_ [] line = line := by
    unfold without_
    cases line with
    | mk start stop source default? named typeOnly => cases default? <;> simp
  rw [revised, same]

/-- What is left of a line loses nothing more, and is in order. -/
theorem revised_revised {sources : List String} (among : line.source ∈ sources) :
    revised [] tidySources (revised removed (some sources) line) = revised removed (some sources) line := by
  have ordered : Imports.tidy (revised removed (some sources) line).named = (revised removed (some sources) line).named := by
    have known : sources.contains line.source = true := by simpa using among
    unfold revised
    dsimp only
    rw [Option.any_some, known, if_pos rfl]
    exact tidy_tidy _
  rw [revised_nil]
  split
  · rw [ordered]
  · rfl

/-- The word that a line begins with. -/
theorem exists_render (line : ImportLine) : ∃ more, line.render.toList = "import".toList ++ more := by
  unfold render
  split
  · cases line.typeOnly
    · exact ⟨" ".toList ++ (line.clauseText ++ " from '" ++ line.source ++ "';").toList, by simp⟩
    · exact ⟨" type ".toList ++ (line.clauseText ++ " from '" ++ line.source ++ "';").toList, by simp⟩
  · exact ⟨" '".toList ++ (line.source ++ "';").toList, by simp⟩

end ImportLine

/-- A text without some line breaks, each of them at the beginning of a line. -/
inductive Loses : Bool → List Char → List Char → Prop
  | nil {start : Bool} : Loses start [] []
  | keeps {start : Bool} (c : Char) {rest left : List Char} (later : Loses (c == '\n') rest left) : Loses start (c :: rest) (c :: left)
  | drops {rest left : List Char} (later : Loses true rest left) : Loses true ('\n' :: rest) left

namespace Loses

variable {start : Bool} {text rest left out front name back : List Char}

theorem weaken (loses : Loses false text left) : Loses start text left := by
  cases loses with
  | nil => exact .nil
  | keeps c later => exact .keeps c later

/-- A beginning of the text is left before what is left of the rest. It ends as before, or with a line. -/
theorem exists_append (loses : Loses start (front ++ rest) out) : ∃ first last more, out = first ++ more ∧ Loses last rest more ∧
    (first = [] → front = [] ∨ start = true) ∧ ∀ c ∈ first.getLast?, c = '\n' ∨ front.getLast? = some c := by
  induction front generalizing start out with
  | nil => exact ⟨[], start, out, rfl, loses, fun _ => .inl rfl, fun c member => by cases member⟩
  | cons d front ih =>
    have onward {c : Char} (ended : front.getLast? = some c) : (d :: front).getLast? = some c := by
      rw [List.getLast?_cons, ended]
      rfl
    cases loses with
    | keeps _ later =>
      obtain ⟨first, last, more, rfl, loses, empty, ends⟩ := ih later
      refine ⟨d :: first, last, more, rfl, loses, (fun nothing => by cases nothing), fun c member => ?_⟩
      cases ended : first.getLast? with
      | some e =>
        rw [List.getLast?_cons, ended] at member
        obtain rfl := Option.some.inj member
        exact (ends e ended).imp_right onward
      | none =>
        obtain rfl := List.getLast?_eq_none_iff.mp ended
        obtain rfl : d = c := Option.some.inj member
        exact (empty rfl).symm.imp beq_iff_eq.mp fun nothing => by rw [nothing]; rfl
    | drops later =>
      obtain ⟨first, last, more, rfl, loses, -, ends⟩ := ih later
      exact ⟨first, last, more, rfl, loses, fun _ => .inr rfl, fun c member => (ends c member).imp_right onward⟩

/-- A name on one line is kept. -/
theorem exists_name (loses : Loses start (name ++ back) out) (unbroken : '\n' ∉ name) : ∃ last more, out = name ++ more ∧
    Loses last back more ∧ (name ≠ [] → last = false) := by
  induction name generalizing start out with
  | nil => exact ⟨start, out, rfl, loses, fun some_ => absurd rfl some_⟩
  | cons c name ih =>
    cases loses with
    | drops later => exact absurd List.mem_cons_self unbroken
    | keeps _ later =>
      obtain ⟨last, more, rfl, loses, ends⟩ := ih later (List.not_mem_of_not_mem_cons unbroken)
      have other : (c == '\n') = false := by simpa using fun same : c = '\n' => unbroken (same ▸ List.mem_cons_self)
      by_cases nothing : name = []
      · subst nothing
        exact ⟨false, _, rfl, other ▸ later, fun _ => rfl⟩
      · exact ⟨last, more, rfl, loses, fun _ => ends nothing⟩

/-- What is used in a text is used in what is left of it. -/
theorem uses (loses : Loses start text left) (sought : IsSought name) (used : Imports.uses text name = true) :
    Imports.uses left name = true := by
  obtain ⟨front, back, rfl, whole_, point⟩ := Imports.uses_eq_true_iff.mp used
  obtain ⟨first, last, more, rfl, loses, -, ends⟩ := loses.exists_append
  obtain ⟨flag, behind, rfl, loses, same⟩ := loses.exists_name sought.unbroken
  obtain rfl := same sought.nonempty
  have head : behind.head? = back.head? := by
    cases loses with
    | nil => rfl
    | keeps c later => rfl
  refine Imports.uses_eq_true_iff.mpr ⟨first, behind, rfl, ⟨fun c member => ?_, fun c member => whole_.ends c (head ▸ member)⟩, fun dot => ?_⟩
  · rcases ends c member with rfl | same
    · decide
    · exact whole_.begins c same
  · rcases ends '.' dot with broken | same
    · exact absurd broken (by decide)
    · exact point same

end Loses

namespace Stretch

variable {removed : List String} {tidySources : Option (List String)} {before after left : List Stretch} {start : Bool}
variable {chars : List Char} {line : ImportLine}

/-- What stands outside the import lines loses line breaks only. -/
theorem AreRead.loses (read : AreRead start before) (trims : Trims removed tidySources before after) :
    Loses start (others before) (others after) := by
  induction read generalizing after with
  | nil =>
    cases trims
    exact .nil
  | other none_ later ih =>
    cases trims with
    | other trims => exact .keeps _ (ih trims)
  | statement spells ends later ih =>
    cases trims with
    | bare bare trims => exact (ih trims).weaken
    | kept filled some_ blank trims => exact (ih trims).weaken
    | gone filled nothing trims =>
      cases ih (.other trims) with
      | keeps _ loses => exact .drops loses
    | last filled nothing => exact .nil

/-- Every line of what is left was there before, with nothing to it, or is what is left of one, written anew. -/
theorem Trims.exists_of_mem (trims : Trims removed tidySources before after) (member : .statement chars line ∈ after) :
    isBare line = true ∨ ∃ text found, .statement text found ∈ before ∧ isBare found = false ∧
      line = revised removed tidySources found ∧ ∃ indent, (∀ c ∈ indent, isIndent c = true) ∧ chars = indent ++ line.render.toList := by
  induction trims with
  | nil => cases member
  | other _ ih =>
    rcases List.mem_cons.mp member with same | member
    · cases same
    · exact (ih member).imp_right fun ⟨text, found, known, more⟩ => ⟨text, found, List.mem_cons_of_mem _ known, more⟩
  | bare bare _ ih =>
    rcases List.mem_cons.mp member with same | member
    · cases same
      exact .inl bare
    · exact (ih member).imp_right fun ⟨text, found, known, more⟩ => ⟨text, found, List.mem_cons_of_mem _ known, more⟩
  | kept filled some_ blank _ ih =>
    rcases List.mem_cons.mp member with same | member
    · cases same
      exact .inr ⟨_, _, List.mem_cons_self, filled, rfl, _, blank, rfl⟩
    · exact (ih member).imp_right fun ⟨text, found, known, more⟩ => ⟨text, found, List.mem_cons_of_mem _ known, more⟩
  | gone _ _ _ ih =>
    exact (ih member).imp_right fun ⟨text, found, known, more⟩ =>
      ⟨text, found, List.mem_cons_of_mem _ (List.mem_cons_of_mem _ known), more⟩
  | last => cases member

/-- A line that is written as it would be. -/
def Settled (tidySources : Option (List String)) (chars : List Char) (line : ImportLine) : Prop :=
  isBare line = true ∨ revised [] tidySources line = line ∧ ∃ indent, (∀ c ∈ indent, isIndent c = true) ∧
    chars = indent ++ line.render.toList

/-- Lines that are written as they would be stay as they are. -/
theorem Trims.eq_of_settled (trims : Trims [] tidySources before after)
    (settled : ∀ chars line, .statement chars line ∈ before → Settled tidySources chars line) : after = before := by
  induction trims with
  | nil => rfl
  | other _ ih => exact congrArg _ (ih fun chars line member => settled chars line (List.mem_cons_of_mem _ member))
  | bare _ _ ih => exact congrArg _ (ih fun chars line member => settled chars line (List.mem_cons_of_mem _ member))
  | @kept indent tail line rest left filled some_ blank later ih =>
    obtain rfl := ih fun chars line member => settled chars line (List.mem_cons_of_mem _ member)
    rcases settled _ _ List.mem_cons_self with bare | ⟨same, indent', blank', written⟩
    · rw [filled] at bare
      cases bare
    · obtain ⟨more, begins⟩ := line.exists_render
      rw [begins] at written
      -- the indentation of the line is what stands before its first word
      have first (indent more : List Char) (blank : ∀ c ∈ indent, isIndent c = true) :
          (indent ++ ("import".toList ++ more)).takeWhile isIndent = indent :=
        Text.takeWhile_run blank fun c member => by
          obtain rfl := Option.some.inj member
          decide
      have indented : indent = indent' := by rw [← first indent tail blank, written, first indent' more blank']
      rw [same, begins, written, indented]
  | gone filled nothing =>
    rcases settled _ _ List.mem_cons_self with bare | ⟨same, -⟩
    · rw [filled] at bare
      cases bare
    · rw [same, filled] at nothing
      cases nothing
  | last filled nothing =>
    rcases settled _ _ List.mem_cons_self with bare | ⟨same, -⟩
    · rw [filled] at bare
      cases bare
    · rw [same, filled] at nothing
      cases nothing

/-- A bare line binds no name. -/
theorem boundNames_of_isBare (bare : isBare line = true) : Imports.boundNames line = [] := by
  obtain ⟨named, default⟩ : line.named = [] ∧ line.default? = none := by simpa [isBare] using bare
  rw [Imports.boundNames, named, default]
  rfl

/-- **What is left has nothing to remove.** -/
theorem unused_trims {sources : Option (List String)} (read : AreRead true before) (readAfter : AreRead true after)
    (sound : Sound before) (trims : Trims (Imports.unused (whole before) sources) tidySources before after) :
    Imports.unused (whole after) sources = [] := by
  refine List.eq_nil_iff_forall_not_mem.mpr fun name reported => ?_
  obtain ⟨⟨chars, line, member, known, bound⟩, only⟩ := (mem_unused_iff readAfter).mp reported
  rcases trims.exists_of_mem member with bare | ⟨text, found, among, filled, rfl, -⟩
  · rw [boundNames_of_isBare bare] at bound
    cases bound
  · obtain ⟨bound, kept⟩ := ImportLine.mem_boundNames_revised bound
    rw [ImportLine.source_revised] at known
    refine kept ((mem_unused_iff read).mpr ⟨⟨text, found, among, known, bound⟩, ?_⟩)
    obtain ⟨front, back, split⟩ := List.append_of_mem among
    have regular := ImportLine.isRegular_of_spells (AreRead.of_append (split ▸ read)).1 (sound text found among) filled
    rw [onlyBehindPoints_iff] at only ⊢
    cases used : Imports.uses (others before) name.toList with
    | false => rfl
    | true => rw [(read.loses trims).uses (regular.isSought bound) used] at only; cases only

end Stretch

namespace TextPass

/-- The sources whose unused names are removed. -/
def knownSources : List String := motionSources ++ ["react", "vue"]

/-- **What is reported as unused stands behind points only**, whatever sources are asked for. The rewriting of imports reports what
it removes, and removes nothing else. -/
theorem exists_bundleSize (code : List Char) : ∃ before, whole before = code ∧ AreRead true before ∧
    (∀ sources name, name ∈ Imports.unused code sources ↔ Binds before sources name ∧ OnlyBehindPoints before name) ∧
    ∃ after removed, whole after = (bundleSize code).1 ∧ Trims removed (some ((readAll code).map (·.source))) before after ∧
      (bundleSize code).2 = removed.map ("Removed unused import " ++ ·) ∧
      ∀ name, name ∈ removed ↔ Binds before (some knownSources) name ∧ OnlyBehindPoints before name := by
  obtain ⟨before, rfl, read⟩ := Stretch.exists_areRead true code
  obtain ⟨after, trims, same⟩ := Stretch.exists_trims (Imports.unused (whole before) (some knownSources))
    (some ((readAll (whole before)).map (·.source))) read
  exact ⟨before, rfl, read, fun sources name => Stretch.mem_unused_iff read, after, _, same.symm, trims, rfl,
    fun name => Stretch.mem_unused_iff read⟩

/-- **Unused imports are removed once**, if the defaults of the lines are sound and no text before a line leaves a quote open. -/
theorem bundleSize_bundleSize {code : List Char} (sound : ∀ line ∈ readAll code, line.IsSound)
    (closed : ∀ line ∈ readAll code, ¬ ImportLine.LeavesOpen true (code.take line.start)) :
    bundleSize (bundleSize code).1 = ((bundleSize code).1, []) := by
  obtain ⟨before, rfl, read⟩ := Stretch.exists_areRead true code
  have sources (chars : List Char) (line : ImportLine) (member : .statement chars line ∈ before) :
      line.source ∈ (readAll (whole before)).map (·.source) := by
    obtain ⟨front, back, split⟩ := List.append_of_mem member
    rw [Stretch.readAll_whole read]
    exact List.mem_map.mpr ⟨_, (Stretch.mem_placed_iff 0).mpr ⟨front, chars, line, back, split, rfl⟩, rfl⟩
  obtain ⟨after, trims, same⟩ := Stretch.exists_trims (Imports.unused (whole before) (some knownSources))
    (some ((readAll (whole before)).map (·.source))) read
  have soundBefore := Stretch.sound_of_readAll read sound
  have readAfter : AreRead true after := read.trims trims soundBefore (Stretch.closed_of_readAll read closed)
  have first : (bundleSize (whole before)).1 = whole after := same
  have nothing : Imports.unused (whole after) (some knownSources) = [] := Stretch.unused_trims read readAfter soundBefore trims
  obtain ⟨last, trimsAgain, sameAgain⟩ := Stretch.exists_trims [] (some ((readAll (whole after)).map (·.source))) readAfter
  obtain rfl : last = after := by
    refine trimsAgain.eq_of_settled fun chars line member => ?_
    rcases trims.exists_of_mem member with bare | ⟨text, found, among, filled, rfl, indented⟩
    · exact .inl bare
    · exact .inr ⟨ImportLine.revised_revised (sources text found among), indented⟩
  rw [first]
  change (Imports.trim (whole last) (Imports.unused (whole last) (some knownSources)) _,
    (Imports.unused (whole last) (some knownSources)).map _) = _
  rw [nothing, sameAgain]
  rfl

end TextPass

end AnimationCode
