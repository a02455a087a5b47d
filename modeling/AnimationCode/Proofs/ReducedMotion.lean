/-
**Where the wish for reduced motion is declared.**

Code that is written for a forest with a marked element declares the wish: afresh in a line of its own, in place by the
declaration that is put in unless the code has one. The marks decide and not the values, so that a guard which stands inside
a state of elements without a mark is written as it is, with no declaration for it.

* `ReducedMotion.isDeclared_of_infix`: code that holds the declaration declares the wish;
* `ReducedMotion.isDeclared_ensure`, `ReducedMotion.ensure_ensure`: the declaration is put in, and only once;
* `ReducedMotion.IsSetupTag`, `ReducedMotion.setupBlock?_append`: the first text that is the tag of a setup block;
* `ReducedMotion.Conserves`, `ReducedMotion.conserves_ensure`: nothing but the declaration is put in, and where it stands;
* `TextPass.isDeclared_accessibility`: what stops for reduced motion asks a declared wish;
* `Artifact.isDeclared_codeOf`: the code of a component with a marked element declares the wish.
-/

import AnimationCode.Artifact
import AnimationCode.Proofs.Outcome
import AnimationCode.Proofs.Render.Lines
import AnimationCode.Proofs.Template.Blanked
import AnimationCode.Proofs.Text.Split

namespace AnimationCode

namespace Text

variable {text : List Char}

/-- A text without its line breaks. -/
def unbroken (text : List Char) : List Char := text.filter (· != '\n')

@[simp] theorem unbroken_append (front back : List Char) : unbroken (front ++ back) = unbroken front ++ unbroken back :=
  List.filter_append ..

theorem unbroken_of_breaks (breaks : ∀ c ∈ text, c = '\n') : unbroken text = [] :=
  List.filter_eq_nil_iff.mpr fun c member => by simp [breaks c member]

theorem exists_dropLeading (text : List Char) : ∃ breaks, text = breaks ++ dropLeading '\n' text ∧ ∀ c ∈ breaks, c = '\n' :=
  ⟨text.takeWhile (· == '\n'), List.takeWhile_append_dropWhile.symm, fun c member => by simpa using all_takeWhile _ text c member⟩

theorem exists_dropTrailing (text : List Char) : ∃ breaks, text = dropTrailing '\n' text ++ breaks ∧ ∀ c ∈ breaks, c = '\n' := by
  obtain ⟨breaks, same, all⟩ := exists_dropLeading text.reverse
  refine ⟨breaks.reverse, ?_, fun c member => all c (List.mem_reverse.mp member)⟩
  rw [dropTrailing, dropLastWhile, ← List.reverse_append]
  exact List.reverse_eq_iff.mp same

end Text

namespace ReducedMotion

/-- The declaration of a setup block, or of a script. -/
def lineOf (typescript : Bool) : String := if typescript then typedDeclaration else declaration

/-- The beginning of a declaration, from the name up to the value. -/
def headOf (typescript : Bool) : String :=
  if typescript then "prefersReducedMotion: boolean = t" else "prefersReducedMotion = t"

theorem toList_lineOf (typescript : Bool) :
    (lineOf typescript).toList = "const ".toList ++
      ((headOf typescript).toList ++ (lineOf typescript).toList.drop (6 + (headOf typescript).toList.length)) := by
  cases typescript <;> decide +kernel

theorem declaredHere_headOf (typescript : Bool) (rest : List Char) :
    declaredHere (some ' ') ((headOf typescript).toList ++ rest) = true := by
  cases typescript <;> rfl

/-- Code that holds the declaration declares the wish. -/
theorem isDeclared_of_infix {code : List Char} {typescript : Bool} (holds : (lineOf typescript).toList <:+: code) :
    isDeclared code = true := by
  obtain ⟨front, back, rfl⟩ := holds
  rw [isDeclared, toList_lineOf, List.append_assoc, List.append_assoc, List.append_assoc, ← List.append_assoc front]
  refine Text.anySuffix_append ?_
  rw [List.getLast?_append, show "const ".toList.getLast? = some ' ' from rfl, Option.some_or, Option.some_or]
  exact declaredHere_headOf typescript _

/-! ### Putting the declaration in -/

theorem infix_afterImports (text block : List Char) : block <:+: afterImports text block := by
  unfold afterImports
  dsimp only
  split
  · rename_i last _
    exact ⟨text.take last.stop ++ ['\n', '\n'], text.drop last.stop, by simp⟩
  · exact ⟨_, _, rfl⟩

theorem infix_ensureInComponent (code : List Char) (typescript : Bool) :
    (lineOf typescript).toList <:+: ensureInComponent code typescript := by
  unfold ensureInComponent
  dsimp only
  split
  · exact ⟨_, _, rfl⟩
  · rename_i before rest _
    generalize Text.dropLeading '\n' _ = trimmed
    generalize List.drop _ rest = left
    have block : (lineOf typescript).toList <:+: afterImports trimmed (lineOf typescript).toList := infix_afterImports _ _
    exact block.trans ⟨before ++ ['\n'], '\n' :: left, by rw [List.append_assoc before, List.singleton_append]; rfl⟩

/-- The declaration that code gets if it has none. -/
theorem infix_ensure {code : List Char} (silent : isDeclared code = false) (framework : Framework) (typescript : Bool) :
    (lineOf (typescript && framework == .vue)).toList <:+: ensure code framework typescript := by
  unfold ensure
  rw [silent, if_neg Bool.false_ne_true]
  split
  · rename_i vue
    rw [vue, beq_self_eq_true, Bool.and_true]
    exact infix_ensureInComponent code typescript
  · rename_i other
    rw [beq_eq_false_iff_ne.mpr other, Bool.and_false]
    exact infix_afterImports code declaration.toList

/-- The declaration is put in. -/
theorem isDeclared_ensure (code : List Char) (framework : Framework) (typescript : Bool) :
    isDeclared (ensure code framework typescript) = true := by
  cases declared : isDeclared code with
  | false => exact isDeclared_of_infix (infix_ensure declared framework typescript)
  | true => rwa [ensure, if_pos declared]

/-- The declaration is put in once. -/
theorem ensure_ensure (code : List Char) (framework other : Framework) (typescript typed : Bool) :
    ensure (ensure code framework typescript) other typed = ensure code framework typescript :=
  if_pos (isDeclared_ensure code framework typescript)

/-! ### The tag of a setup block -/

open Blocks (foldCase)
open Text (unbroken isWord stripStart?)

/-- The tag of a setup block, read up to the first closing bracket. -/
def IsSetupTag (tag : List Char) : Prop :=
  ∃ opening front word back, tag = opening ++ (front ++ (word ++ back)) ++ ['>'] ∧ opening.map foldCase = "<script".toList ∧
    '>' ∉ front ++ (word ++ back) ∧ (front ++ (word ++ back)).head?.any isWord = false ∧ word.map foldCase = "setup".toList ∧
    (front.getLast?.or (some 't')).any isWord = false ∧ (back.head?.map foldCase).any isWord = false


variable {code front tag rest inside : List Char}

/-- What is asked of the characters of a tag between its name and its end. -/
def setupNamed (before : Option Char) (suffix : List Char) : Bool :=
  !before.any isWord &&
    match stripStart? "setup".toList (suffix.map foldCase) with
    | some after => !after.head?.any isWord
    | none => false

theorem setupNamed_eq_true_iff {before : Option Char} {suffix : List Char} : setupNamed before suffix = true ↔
    ∃ word back, suffix = word ++ back ∧ word.map foldCase = "setup".toList ∧ before.any isWord = false ∧
      (back.head?.map foldCase).any isWord = false := by
  unfold setupNamed
  rw [Bool.and_eq_true, Bool.not_eq_true']
  constructor
  · rintro ⟨apart, named⟩
    cases stripped : stripStart? "setup".toList (suffix.map foldCase) with
    | none => rw [stripped] at named; cases named
    | some after =>
      rw [stripped] at named
      obtain ⟨word, back, rfl, folded, rfl⟩ := List.map_eq_append_iff.mp (Text.eq_append_of_stripStart? stripped)
      exact ⟨word, back, rfl, folded, apart, by rw [← List.head?_map]; simpa using named⟩
  · rintro ⟨word, back, rfl, folded, apart, ends⟩
    refine ⟨apart, ?_⟩
    rw [List.map_append, folded, Text.stripStart?_append]
    dsimp only
    rw [List.head?_map, ends]
    rfl

theorem setupHere_eq (cs : List Char) : setupHere cs =
    match Blocks.stripStartAnyCase? "<script" cs with
    | none => none
    | some rest =>
      match rest.drop (rest.takeWhile (· != '>')).length with
      | _ :: after =>
        if !rest.head?.any isWord && Text.anySuffix setupNamed (some 't') (rest.takeWhile (· != '>')) then some after else none
      | [] => none := rfl

theorem stripStartAnyCase?_script (cs : List Char) : Blocks.stripStartAnyCase? "<script" cs = some rest ↔
    ∃ opening, cs = opening ++ rest ∧ opening.map foldCase = "<script".toList := by
  refine ⟨Blocks.exists_of_stripStartAnyCase?, ?_⟩
  rintro ⟨opening, rfl, folded⟩
  have seven : opening.length = "<script".length := by
    rw [← List.length_map foldCase, folded]
    rfl
  rw [Blocks.stripStartAnyCase?, List.take_left' seven, List.drop_left' seven, folded, Text.stripStart?_append]

theorem setupHere_eq_some_iff : setupHere code = some rest ↔ ∃ tag, IsSetupTag tag ∧ code = tag ++ rest := by
  rw [setupHere_eq]
  constructor
  · intro found
    cases stripped : Blocks.stripStartAnyCase? "<script" code with
    | none => rw [stripped] at found; cases found
    | some left =>
      rw [stripped] at found
      obtain ⟨opening, rfl, folded⟩ := (stripStartAnyCase?_script code).mp stripped
      obtain ⟨inside, tail, rfl, within, ends⟩ := Text.exists_run (· != '>') left
      dsimp only at found
      rw [Text.takeWhile_run within ends, List.drop_left] at found
      cases tail with
      | nil => cases found
      | cons c tail =>
        obtain rfl : c = '>' := by simpa using ends c rfl
        dsimp only at found
        split at found
        · rename_i good
          obtain rfl := Option.some.inj found
          rw [Bool.and_eq_true, Bool.not_eq_true', Text.anySuffix_eq_true_iff] at good
          obtain ⟨apart, front, suffix, rfl, named⟩ := good
          obtain ⟨word, back, rfl, setup, before, after⟩ := setupNamed_eq_true_iff.mp named
          refine ⟨opening ++ (front ++ (word ++ back)) ++ ['>'], ⟨opening, front, word, back, rfl, folded,
            fun member => by simpa using within _ member, ?_, setup, before, after⟩, by simp⟩
          rw [List.head?_append] at apart
          cases first : (front ++ (word ++ back)).head? with
          | none => rfl
          | some c => rwa [first] at apart
        · cases found
  · rintro ⟨tag, ⟨opening, front, word, back, rfl, folded, within, apart, setup, before, after⟩, rfl⟩
    have stripped : Blocks.stripStartAnyCase? "<script" _ = some (front ++ (word ++ back) ++ '>' :: rest) :=
      (stripStartAnyCase?_script (opening ++ (front ++ (word ++ back)) ++ ['>'] ++ rest)).mpr ⟨opening, by simp, folded⟩
    rw [stripped]
    dsimp only
    have inside : (front ++ (word ++ back) ++ '>' :: rest).takeWhile (· != '>') = front ++ (word ++ back) :=
      Text.takeWhile_run (fun c member => by simpa using fun same : c = '>' => within (same ▸ member))
        fun c member => by obtain rfl := Option.some.inj member; rfl
    rw [inside, List.drop_left]
    dsimp only
    rw [if_pos]
    rw [Bool.and_eq_true, Bool.not_eq_true', Text.anySuffix_eq_true_iff]
    refine ⟨?_, front, word ++ back, rfl, setupNamed_eq_true_iff.mpr ⟨word, back, rfl, setup, before, after⟩⟩
    rw [List.head?_append]
    cases first : (front ++ (word ++ back)).head? with
    | none => rfl
    | some c => rwa [first] at apart

/-- **The first setup tag of a text**, with what stands in front of it and behind it. -/
structure IsFirstSetup (front tag rest : List Char) : Prop where
  isTag : IsSetupTag tag
  first : ∀ {before other after}, front ++ (tag ++ rest) = before ++ (other ++ after) → IsSetupTag other →
    front.length ≤ before.length

theorem exists_of_setupBlock? {before : List Char} (found : setupBlock? code = some (before, rest)) :
    ∃ front tag, before = front ++ tag ∧ code = front ++ (tag ++ rest) ∧ IsFirstSetup front tag rest := by
  induction code generalizing before with
  | nil => cases found
  | cons c code ih =>
    rw [setupBlock?] at found
    cases here : setupHere (c :: code) with
    | some left =>
      rw [here] at found
      obtain ⟨tag, isTag, same⟩ := setupHere_eq_some_iff.mp here
      cases found
      refine ⟨[], tag, ?_, same, isTag, fun _ _ => Nat.zero_le _⟩
      rw [same, List.length_append, Nat.add_sub_cancel, List.take_left, List.nil_append]
    | none =>
      rw [here] at found
      obtain ⟨⟨later, left⟩, found, same⟩ := Option.map_eq_some_iff.mp found
      cases same
      obtain ⟨front, tag, rfl, rfl, isTag, first⟩ := ih found
      refine ⟨c :: front, tag, rfl, rfl, isTag, fun {before other after} split isOther => ?_⟩
      cases before with
      | nil =>
        rw [List.nil_append] at split
        rw [← List.cons_append, setupHere_eq_some_iff.mpr ⟨other, isOther, split⟩] at here
        cases here
      | cons d before => exact Nat.succ_le_succ (first (List.cons.inj split).2 isOther)

theorem setupBlock?_append (isFirst : IsFirstSetup front tag rest) :
    setupBlock? (front ++ (tag ++ rest)) = some (front ++ tag, rest) := by
  induction front with
  | nil =>
    have here : setupHere (tag ++ rest) = some rest := setupHere_eq_some_iff.mpr ⟨tag, isFirst.isTag, rfl⟩
    obtain ⟨c, tail, same⟩ : ∃ c tail, tag ++ rest = c :: tail := by
      cases whole : tag ++ rest with
      | nil =>
        rw [whole] at here
        cases here
      | cons c tail => exact ⟨c, tail, rfl⟩
    rw [List.nil_append, same, setupBlock?, ← same, here]
    dsimp only
    rw [List.length_append, Nat.add_sub_cancel, List.take_left, List.nil_append]
  | cons c front ih =>
    have later : IsFirstSetup front tag rest := ⟨isFirst.isTag, fun {before other after} split isOther =>
      Nat.le_of_succ_le_succ (isFirst.first (show _ = c :: before ++ (other ++ after) by rw [List.cons_append, split]; rfl) isOther)⟩
    rw [List.cons_append, setupBlock?, ih later]
    cases here : setupHere (c :: (front ++ (tag ++ rest))) with
    | none => rfl
    | some left =>
      obtain ⟨other, isOther, same⟩ := setupHere_eq_some_iff.mp here
      exact absurd (isFirst.first (show _ = [] ++ (other ++ left) from same) isOther) (by simp)

theorem IsSetupTag.ends (isTag : IsSetupTag tag) : ∃ body, tag = body ++ ['>'] ∧ '>' ∉ body := by
  obtain ⟨opening, front, word, back, rfl, folded, within, -⟩ := isTag
  refine ⟨opening ++ (front ++ (word ++ back)), rfl, fun member => ?_⟩
  rcases List.mem_append.mp member with member | member
  · have known : foldCase '>' ∈ opening.map foldCase := List.mem_map_of_mem member
    rw [folded] at known
    exact absurd known (by decide)
  · exact within member

/-- What stands behind a first setup tag does not matter. -/
theorem IsFirstSetup.congr (isFirst : IsFirstSetup front tag rest) (other : List Char) : IsFirstSetup front tag other := by
  refine ⟨isFirst.isTag, fun {before earlier after} split isEarlier => ?_⟩
  refine Nat.le_of_not_lt fun short => ?_
  obtain ⟨body, rfl, -⟩ := isFirst.isTag.ends
  obtain ⟨within, rfl, solid⟩ := isEarlier.ends
  obtain ⟨between, rfl, rest_⟩ : ∃ between, front = before ++ between ∧ between ++ (body ++ ['>'] ++ other) = within ++ ['>'] ++ after := by
    rcases List.append_eq_append_iff.mp split with ⟨more, rfl, -⟩ | ⟨more, rfl, right⟩
    · rw [List.length_append] at short
      omega
    · exact ⟨more, rfl, right.symm⟩
  have shorter : between ++ (body ++ ['>']) ++ other = within ++ ['>'] ++ after := by simpa using rest_
  rcases List.append_eq_append_iff.mp shorter with ⟨more, same, -⟩ | ⟨more, same, -⟩
  · cases more.eq_nil_or_concat with
    | inl nothing =>
      subst nothing
      exact absurd short (Nat.not_lt.mpr <| isFirst.first (show _ = before ++ (within ++ ['>'] ++ rest) by rw [same]; simp) isEarlier)
    | inr last =>
      obtain ⟨more, c, rfl⟩ := last
      have init := (List.append_inj' (show within ++ ['>'] = (between ++ (body ++ ['>']) ++ more) ++ [c] by simpa using same) rfl).1
      exact solid (by rw [init]; simp)
  · exact absurd short (Nat.not_lt.mpr <| isFirst.first (show _ = before ++ (within ++ ['>'] ++ (more ++ rest)) by
      rw [← List.append_assoc (within ++ ['>']), ← same]; simp) isEarlier)


/-! ### What is put in, and where -/

variable {text block : List Char}

/-- A block after the imports stands between two parts of the text, with line breaks around it. -/
theorem exists_afterImports (text block : List Char) : ∃ front back above below, text = front ++ back ∧
    afterImports text block = front ++ above ++ (block ++ (below ++ back)) ∧ ∀ c ∈ above ++ below, c = '\n' := by
  unfold afterImports
  split
  · rename_i last _
    exact ⟨text.take last.stop, text.drop last.stop, ['\n', '\n'], [], (List.take_append_drop ..).symm, by simp, by simp⟩
  · dsimp only
    exact ⟨_, text.drop (text.takeWhile (· == '\n')).length, [], ['\n', '\n'], (List.take_append_drop ..).symm, by simp, by simp⟩

theorem exists_unbroken_afterImports (text block : List Char) : ∃ front back,
    afterImports text block = front ++ (block ++ back) ∧ unbroken (front ++ back) = unbroken text := by
  obtain ⟨front, back, above, below, rfl, same, breaks⟩ := exists_afterImports text block
  refine ⟨front ++ above, below ++ back, same, ?_⟩
  simp only [Text.unbroken_append, Text.unbroken_of_breaks fun c member => breaks c (List.mem_append_left _ member),
    Text.unbroken_of_breaks fun c member => breaks c (List.mem_append_right _ member), List.append_nil, List.nil_append]

/-- The end of a block. -/
def closing : List Char := "</script>".toList

theorem closing_infix_of_breaks {breaks : List Char} (all : ∀ c ∈ breaks, c = '\n') (within : closing <:+: breaks ++ text) :
    closing <:+: text := by
  induction breaks with
  | nil => exact within
  | cons c breaks ih =>
    obtain rfl := all c List.mem_cons_self
    have later : closing <:+: [] ++ '\n' :: (breaks ++ text) := within
    rcases Text.infix_of_not_mem later (by decide) with nothing | within
    · exact absurd (List.infix_nil.mp nothing) (by decide)
    · exact ih (fun c member => all c (List.mem_cons_of_mem _ member)) within

theorem exists_lineOf (typescript : Bool) : ∃ front, (lineOf typescript).toList = front ++ [';'] ∧ ¬ closing <:+: front := by
  refine ⟨(lineOf typescript).toList.dropLast, by cases typescript <;> decide +kernel, fun within => ?_⟩
  have opens : '<' ∈ (lineOf typescript).toList.dropLast := within.subset (by decide)
  revert opens
  cases typescript <;> decide +kernel

/-- The declaration closes no block. -/
theorem closing_infix_of_afterImports {typescript : Bool}
    (within : closing <:+: afterImports text (lineOf typescript).toList) : closing <:+: text := by
  obtain ⟨line, same, solid⟩ := exists_lineOf typescript
  unfold afterImports at within
  rw [same] at within
  split at within
  · rename_i last _
    have split : closing <:+: text.take last.stop ++ '\n' :: '\n' :: line ++ ';' :: text.drop last.stop := by simpa using within
    rcases Text.infix_of_not_mem split (by decide) with within | within
    · rcases Text.infix_of_not_mem within (by decide) with within | within
      · exact within.trans (List.take_prefix ..).isInfix
      · have below : closing <:+: ['\n'] ++ line := within
        exact absurd (closing_infix_of_breaks (by simp) below) solid
    · exact within.trans (List.drop_suffix ..).isInfix
  · dsimp only at within
    have split : closing <:+: text.take (text.takeWhile (· == '\n')).length ++ line ++
        ';' :: (['\n', '\n'] ++ text.drop (text.takeWhile (· == '\n')).length) := by simpa using within
    rcases Text.infix_of_not_mem split (by decide) with within | within
    · refine absurd (closing_infix_of_breaks (fun c member => ?_) within) solid
      rw [← List.prefix_iff_eq_take.mp (List.takeWhile_prefix _)] at member
      simpa using Text.all_takeWhile (· == '\n') text c member
    · exact (closing_infix_of_breaks (by simp) within).trans (List.drop_suffix ..).isInfix


/-- The content of a block up to its end. -/
def bodyOf (rest : List Char) : List Char :=
  match Text.cut? closing rest with
  | some (body, _) => body
  | none => rest

theorem bodyOf_append {body : List Char} (inside : ¬ closing <:+: body) (after : List Char) :
    bodyOf (body ++ (closing ++ after)) = body := by
  have cut : Text.cut? closing (body ++ (closing ++ after)) = some (body, after) := Text.cut?_append (by decide) after inside
  rw [bodyOf, cut]

theorem exists_bodyOf (rest : List Char) : ∃ left, rest = bodyOf rest ++ left := by
  unfold bodyOf
  split
  · rename_i body after cut
    exact ⟨_, Text.eq_append_of_cut? cut⟩
  · exact ⟨[], (List.append_nil rest).symm⟩

/-- A text without the line breaks around it. -/
def stripped (text : List Char) : List Char := Text.dropLeading '\n' (Text.dropTrailing '\n' text)

theorem exists_stripped (text : List Char) : ∃ above below, text = above ++ (stripped text ++ below) ∧ ∀ c ∈ above ++ below, c = '\n' := by
  obtain ⟨below, last, allBelow⟩ := Text.exists_dropTrailing text
  obtain ⟨above, first, allAbove⟩ := Text.exists_dropLeading (Text.dropTrailing '\n' text)
  refine ⟨above, below, ?_, fun c member => (List.mem_append.mp member).elim (allAbove c) (allBelow c)⟩
  rw [stripped, ← List.append_assoc, ← first]
  exact last

theorem unbroken_stripped (text : List Char) : unbroken (stripped text) = unbroken text := by
  obtain ⟨above, below, same, breaks⟩ := exists_stripped text
  refine .trans ?_ (congrArg unbroken same).symm
  simp only [Text.unbroken_append, Text.unbroken_of_breaks fun c member => breaks c (List.mem_append_left _ member),
    Text.unbroken_of_breaks fun c member => breaks c (List.mem_append_right _ member), List.append_nil, List.nil_append]

theorem infix_of_stripped (text : List Char) : stripped text <:+: text := by
  obtain ⟨above, below, same, -⟩ := exists_stripped text
  exact ⟨above, below, by rw [List.append_assoc]; exact same.symm⟩

theorem ensureInComponent_of_first (isFirst : IsFirstSetup front tag rest) (typescript : Bool) :
    ensureInComponent (front ++ (tag ++ rest)) typescript =
      front ++ tag ++ '\n' :: afterImports (stripped (bodyOf rest)) (lineOf typescript).toList ++
        '\n' :: rest.drop (bodyOf rest).length := by
  unfold ensureInComponent
  rw [setupBlock?_append isFirst]
  rfl

/-- The setup block that is written for a component without one. -/
def setupBlockOf (typescript : Bool) : List Char :=
  ("<script setup" ++ (if typescript then " lang=\"ts\"" else "") ++ ">\n").toList ++ (lineOf typescript).toList ++
    "\n</script>".toList

theorem ensureInComponent_of_none (none_ : setupBlock? code = none) (typescript : Bool) :
    ensureInComponent code typescript = Text.dropTrailing '\n' code ++ ['\n', '\n'] ++ (setupBlockOf typescript ++ ['\n']) := by
  unfold ensureInComponent
  rw [none_]
  cases typescript <;> simp [setupBlockOf, lineOf]

/-- **The declaration is put into a setup block, between its tags.** -/
theorem exists_ensureInComponent {body : List Char} (isFirst : IsFirstSetup front tag (body ++ (closing ++ rest)))
    (inside : ¬ closing <:+: body) (typescript : Bool) : ∃ above below,
    ensureInComponent (front ++ (tag ++ (body ++ (closing ++ rest)))) typescript =
      front ++ (tag ++ (above ++ ((lineOf typescript).toList ++ below) ++ (closing ++ rest))) ∧
    ¬ closing <:+: above ++ ((lineOf typescript).toList ++ below) ∧ unbroken (above ++ below) = unbroken body := by
  obtain ⟨above, below, same, unbroken_⟩ := exists_unbroken_afterImports (stripped body) (lineOf typescript).toList
  refine ⟨'\n' :: above, below ++ ['\n'], ?_, fun within => ?_, ?_⟩
  · rw [ensureInComponent_of_first isFirst, bodyOf_append inside, same, List.drop_left]
    simp
  · have apart : '\n' :: above ++ ((lineOf typescript).toList ++ (below ++ ['\n'])) =
        ['\n'] ++ (afterImports (stripped body) (lineOf typescript).toList ++ '\n' :: []) := by
      rw [same]
      simp
    rw [apart] at within
    rcases Text.infix_of_not_mem (closing_infix_of_breaks (by simp) within) (by decide) with within | nothing
    · exact inside ((closing_infix_of_afterImports within).trans (infix_of_stripped body))
    · exact absurd (List.infix_nil.mp nothing) (by decide)
  · rw [← unbroken_stripped body, ← unbroken_]
    exact (Text.unbroken_append ('\n' :: above) (below ++ ['\n'])).trans (by simp [unbroken])

/-- What is put into code that has no declaration. -/
def insertionOf (code : List Char) (framework : Framework) (typescript : Bool) : List Char :=
  if framework = .vue then
    if (setupBlock? code).isNone then setupBlockOf typescript else (lineOf typescript).toList
  else (lineOf false).toList

theorem exists_ensure (silent : isDeclared code = false) (framework : Framework) (typescript : Bool) : ∃ front back,
    ensure code framework typescript = front ++ (insertionOf code framework typescript ++ back) ∧
      unbroken (front ++ back) = unbroken code := by
  unfold ensure insertionOf
  rw [silent, if_neg Bool.false_ne_true]
  split
  · cases found : setupBlock? code with
    | none =>
      rw [ensureInComponent_of_none found]
      obtain ⟨breaks, same, all⟩ := Text.exists_dropTrailing code
      refine ⟨_, _, rfl, .trans ?_ (congrArg unbroken same).symm⟩
      have break_ : unbroken ['\n'] = [] ∧ unbroken ['\n', '\n'] = [] := ⟨rfl, rfl⟩
      simp only [Text.unbroken_append, Text.unbroken_of_breaks all, break_.1, break_.2, List.append_nil]
    | some parts =>
      obtain ⟨before, rest⟩ := parts
      obtain ⟨front, tag, rfl, rfl, isFirst⟩ := exists_of_setupBlock? found
      obtain ⟨left, whole⟩ := exists_bodyOf rest
      obtain ⟨above, below, same, unbroken_⟩ := exists_unbroken_afterImports (stripped (bodyOf rest)) (lineOf typescript).toList
      have dropped : rest.drop (bodyOf rest).length = left :=
        (congrArg (List.drop (bodyOf rest).length) whole).trans List.drop_left
      refine ⟨front ++ tag ++ '\n' :: above, below ++ '\n' :: left, ?_, ?_⟩
      · rw [ensureInComponent_of_first isFirst, same, dropped]
        simp
      · refine .trans ?_ (congrArg (fun rest => unbroken (front ++ (tag ++ rest))) whole).symm
        have apart : front ++ tag ++ '\n' :: above ++ (below ++ '\n' :: left) =
            front ++ tag ++ (['\n'] ++ (above ++ below) ++ (['\n'] ++ left)) := by simp
        rw [apart, Text.unbroken_append, Text.unbroken_append _ (['\n'] ++ left), Text.unbroken_append _ (above ++ below),
          unbroken_, unbroken_stripped]
        have break_ : unbroken ['\n'] = [] := rfl
        simp only [Text.unbroken_append, break_, List.nil_append, List.append_assoc]
  · obtain ⟨front, back, same, unbroken_⟩ := exists_unbroken_afterImports code declaration.toList
    exact ⟨front, back, same, unbroken_⟩

/-- **What is kept of code when the wish for reduced motion is declared in it.** -/
structure Conserves (code : List Char) (framework : Framework) (typescript : Bool) (result : List Char) : Prop where
  declared : isDeclared result = true
  settled : ensure result framework typescript = result
  kept : isDeclared code = true → result = code
  /-- Without what is put in, the code is as it was, up to line breaks. -/
  inserted : isDeclared code = false → ∃ front back,
    result = front ++ (insertionOf code framework typescript ++ back) ∧ unbroken (front ++ back) = unbroken code
  /-- A setup block that is closed has the declaration between its tags, if its tag is the first text of the code that is one. -/
  enclosed : isDeclared code = false → framework = .vue → ∀ {front tag body rest : List Char},
    code = front ++ (tag ++ (body ++ (closing ++ rest))) → IsFirstSetup front tag (body ++ (closing ++ rest)) →
    ¬ closing <:+: body → ∃ above below,
      result = front ++ (tag ++ (above ++ ((lineOf typescript).toList ++ below) ++ (closing ++ rest))) ∧
      ¬ closing <:+: above ++ ((lineOf typescript).toList ++ below) ∧ unbroken (above ++ below) = unbroken body ∧
      IsFirstSetup front tag (above ++ ((lineOf typescript).toList ++ below) ++ (closing ++ rest))

/-- **The declaration is put in once, and nothing but it.** -/
theorem conserves_ensure (code : List Char) (framework : Framework) (typescript : Bool) :
    Conserves code framework typescript (ensure code framework typescript) where
  declared := isDeclared_ensure code framework typescript
  settled := ensure_ensure code framework framework typescript typescript
  kept declared := if_pos declared
  inserted silent := exists_ensure silent framework typescript
  enclosed silent vue := by
    rintro front tag body rest rfl isFirst inside
    obtain ⟨above, below, same, open_, unbroken_⟩ := exists_ensureInComponent isFirst inside typescript
    refine ⟨above, below, ?_, open_, unbroken_, isFirst.congr _⟩
    rw [← same, ensure, silent, if_neg Bool.false_ne_true, if_pos vue]

/-- A block whose tag is the first text is given the declaration after its imports. -/
theorem conserves_ensure_toggle : ∃ above below,
    ensure "<script setup>\nconst open = ref(false);\n</script>\n".toList .vue false =
      "<script setup>".toList ++ (above ++ ((lineOf false).toList ++ below) ++ (closing ++ "\n".toList)) ∧
    unbroken (above ++ below) = "const open = ref(false);".toList := by
  have isTag : IsSetupTag "<script setup>".toList :=
    ⟨"<script".toList, " ".toList, "setup".toList, [], by decide⟩
  have isFirst : IsFirstSetup [] "<script setup>".toList ("\nconst open = ref(false);\n".toList ++ (closing ++ "\n".toList)) :=
    ⟨isTag, fun _ _ => Nat.zero_le _⟩
  have open_ : ¬ closing <:+: "\nconst open = ref(false);\n".toList :=
    fun within => absurd (within.subset (show '<' ∈ closing by decide)) (by decide)
  obtain ⟨above, below, same, -, unbroken_, -⟩ := (conserves_ensure "<script setup>\nconst open = ref(false);\n</script>\n".toList
    .vue false).enclosed (by decide +kernel) rfl (by decide) isFirst open_
  exact ⟨above, below, same, unbroken_⟩

end ReducedMotion

/-- What stops for reduced motion asks a declared wish. -/
theorem TextPass.isDeclared_accessibility {code : List Char} {framework : Framework} {typescript : Bool}
    (replaced : (TextPass.accessibility code framework typescript).2 ≠ []) :
    ReducedMotion.isDeclared (TextPass.accessibility code framework typescript).1 = true := by
  unfold TextPass.accessibility at replaced ⊢
  dsimp only at replaced ⊢
  split at replaced
  · exact absurd rfl replaced
  · rename_i some_
    rw [if_neg some_]
    exact ReducedMotion.isDeclared_ensure _ _ _

/-! ### The code of a forest -/

namespace Layout

/-- A line stands in its document. -/
theorem infix_document (line : String) {lines : List String} (member : line ∈ lines) :
    line.toList <:+: (document lines).toList := by
  obtain ⟨before, after, rfl⟩ := List.append_of_mem member
  have some_ : before ++ line :: after ≠ [] := by simp
  have whole := toList_document some_
  rw [behind_append, behind_cons] at whole
  cases front : behind before with
  | nil =>
    rw [front] at whole
    exact ⟨[], behind after ++ ['\n'], by simpa using (List.cons.inj whole).2.symm⟩
  | cons c rest =>
    rw [front] at whole
    exact ⟨rest ++ ['\n'], behind after ++ ['\n'], by simpa using (List.cons.inj whole).2.symm⟩

end Layout

open ReducedMotion (lineOf isDeclared isDeclared_of_infix isDeclared_ensure)

variable {forest : Forest} {context : Context}

theorem MarkupRender.isDeclared_render (reduced : forest.reducesMotion = true) (placeholders : List String) :
    isDeclared (MarkupRender.render forest context placeholders).toList = true := by
  refine isDeclared_of_infix (Layout.infix_document (lineOf false) ?_)
  rw [if_pos reduced]
  simp [lineOf]

theorem TemplateRender.isDeclared_render (reduced : forest.reducesMotion = true) (placeholders : List String) :
    isDeclared (TemplateRender.render forest context placeholders).toList = true := by
  refine isDeclared_of_infix (Layout.infix_document (lineOf context.typescript) ?_)
  rw [reduced]
  simp [TemplateRender.setupLines, lineOf]

theorem CallRender.isDeclared_render? (reduced : forest.reducesMotion = true) {placeholders : List String} {code : String}
    (written : CallRender.render? forest context placeholders = .ok code) : isDeclared code.toList = true := by
  obtain ⟨body, -, same⟩ := Outcome.bind_eq_ok.mp written
  obtain rfl := Except.ok.inj same
  refine isDeclared_of_infix (Layout.infix_document (lineOf false) ?_)
  rw [if_pos reduced]
  simp [lineOf]

/-- The code of a component with a marked element declares the wish for reduced motion. -/
theorem Artifact.isDeclared_codeOf {component : Component} {account : Account} {code : List Char}
    (written : Artifact.codeOf component account context = .ok code) (reduced : component.elements.reducesMotion = true) :
    isDeclared code = true := by
  unfold Artifact.codeOf at written
  split at written
  · obtain ⟨-, rfl⟩ := Value.whenWritable_eq_ok.mp written
    unfold InPlace.render
    dsimp only
    rw [if_pos reduced]
    exact isDeclared_ensure _ _ _
  · split at written
    · obtain ⟨text, rendered, rfl⟩ := Outcome.map_eq_ok.mp written
      obtain ⟨-, rfl⟩ := Value.whenWritable_eq_ok.mp rendered
      exact MarkupRender.isDeclared_render reduced _
    · obtain ⟨text, rendered, rfl⟩ := Outcome.map_eq_ok.mp written
      obtain ⟨-, rfl⟩ := Value.whenWritable_eq_ok.mp rendered
      exact TemplateRender.isDeclared_render reduced _
    · obtain ⟨text, rendered, rfl⟩ := Outcome.map_eq_ok.mp written
      exact CallRender.isDeclared_render? reduced rendered
    · cases written

end AnimationCode
