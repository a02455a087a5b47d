/-
**Scripts of the typed form in the plain form.**

A script that imports types and has an interface is no script of the plain form of the language. It is none either if
it is read as what stands between the tags of a fragment: there its braces hold expressions.

* `refuses_typeImport`: no import of types is read in the plain form;
* `refuses_fragment`: no fragment is read whose content is cut short.
-/

import AnimationCode.Proofs.Script.Element
import AnimationCode.Proofs.Script.Import
import AnimationCode.Proofs.Script.Slot

namespace AnimationCode

namespace Script

open Reader Expression Statement

variable {depth : Nat} {d : Dialect} {s text after : List Char}

/-! ### Imports of types -/

/-- An import that is an expression has a point or arguments. -/
theorem refuses_single_import {rule : Grammar} {ends : Bool} (blank : Blank s) {gap : List Char} (blankGap : Blank gap)
    (solid : Solid after) (ends_ : EndsName (gap ++ after)) (noPoint : Text.startsWith ".".toList after = false)
    (noArguments : Text.startsWith "(".toList after = false) :
    Refuses (single rule ends) d (s ++ ("import".toList ++ (gap ++ after))) := by
  have isWord : IsWord "import".toList := isWord_of_check rfl
  have word_ : wordOf ("import".toList ++ (gap ++ after)) = "import" := wordOf_append isWord ends_
  have operand_ : Refuses (wordOperand rule ends) d (s ++ ("import".toList ++ (gap ++ after))) := by
    have next := sees_nextWord (d := d) blank (isWord.solid (gap ++ after))
    have keyword : Takes (word "import") d ([] ++ "import".toList) (gap ++ after) fun _ => () :=
      takes_word "import" blank_nil isWord ends_
    have base := (keyword.map fun _ => ([] : List Node)).construct .otherExpression blank (isWord.solid (gap ++ after))
    rw [word_] at next
    refine next.refuses_bind ?_
    rw [← List.append_assoc]
    refine Takes.refuses_bind base fun n => (refuses_sign blankGap solid noPoint).bind.firstOf (Refuses.last ?_)
    exact Refuses.bind (Refuses.construct (refuses_sign (s := []) blank_nil solid noArguments).bind _ blankGap solid)
  refine refuses_single_of_primary blank (isPlain_of_word isWord ends_ (by decide)) ?_ ?_
    (refuses_primary_of_word blank isWord operand_)
  · rw [word_]
    decide
  · rintro c ⟨⟩
    decide

/-- In the plain form of the language the word of types is a name, which no braces follow. -/
theorem refuses_sourced (names : List (List Char)) (module after : List Char) :
    Refuses sourced d (typeWord true ++ clauseText names module ++ after) := by
  have isWord : IsWord "type".toList := isWord_of_check rfl
  have isName : IsName "type".toList := ⟨isWord, by decide⟩
  have text : typeWord true ++ clauseText names module ++ after =
      [' '] ++ "type".toList ++ (clauseText names module ++ after) := rfl
  have ends_ : EndsName (clauseText names module ++ after) := endsName_of_head? rfl (by decide)
  have brace : Solid (bracedNames names ++ ([' '] ++ "from".toList ++ ([' '] ++ Text.quote module)) ++ after) :=
    solid_cons _ (by decide) (by decide)
  have solid : Solid ("type".toList ++ (clauseText names module ++ after)) := isWord.solid _
  have noSpace : Refuses namespaceImport d ("type".toList ++ (clauseText names module ++ after)) :=
    Refuses.construct (s := []) (Refuses.bind (refuses_signBefore (s := []) isWord rfl (by decide) blank_nil _)) _ blank_nil solid
  have noNames : Refuses namedImports d ("type".toList ++ (clauseText names module ++ after)) :=
    Refuses.construct (s := []) (Refuses.bind (refuses_signBefore (s := []) isWord rfl (by decide) blank_nil _)) _ blank_nil solid
  have noOthers : Refuses (sign ",") d (clauseText names module ++ after) :=
    refuses_sign (s := [' ']) blank_space brace rfl
  have default_ : Takes (do
      let default ← Reader.name .identifier
      let others ← maybe do
        sign ","
        firstOf [namespaceImport, namedImports]
      return default :: others) d ([] ++ "type".toList) (clauseText names module ++ after) fun n =>
        [leaf .identifier n "type".toList.length] := by
    refine ((takes_name .identifier blank_nil isName ends_).bind (m := [])
      (b := fun n _ => [leaf .identifier n "type".toList.length]) fun n => ?_).congr rfl fun _ => rfl
    exact (noOthers.bind.maybe.bind (sees_pure [leaf .identifier n "type".toList.length])).follows
  have clause : Takes importClause d ([' '] ++ "type".toList) (clauseText names module ++ after) _ :=
    (noSpace.bind.takes_firstOf (noNames.bind.takes_firstOf (default_.firstOf []))).construct .importClause blank_space solid
  have noFrom : Refuses fromClause d (clauseText names module ++ after) := by
    refine Refuses.bind (refuses_word (s := [' ']) blank_space brace ?_)
    rw [wordOf_of_ends (endsName_of_head? rfl (by decide))]
    decide
  rw [text]
  exact clause.refuses_bind fun _ => noFrom.bind

/-- In the plain form of the language no types are imported. -/
theorem refuses_typeImport (names : List (List Char)) (module : List Char) (form : d.typed = false)
    (blank : Blank s) (after : List Char) :
    Refuses (rule (depth + 3) .statement) d (s ++ importText true names module ++ after) := by
  have opens := opensWith_import true names module
  have isWord : IsWord "import".toList := isWord_of_check rfl
  have isType : IsWord "type".toList := isWord_of_check rfl
  have keyword : Takes (word "import") d ([] ++ "import".toList)
      (typeWord true ++ clauseText names module ++ [';'] ++ after) fun _ => () :=
    takes_word "import" blank_nil isWord (endsName_of_head? rfl (by decide))
  have noForm {α : Type} {next : Reader α} (text : List Char) : Refuses (do guarded (← typed); next) d text :=
    sees_typed.refuses_bind (refuses_guarded form).bind
  have noString : Refuses (lexeme .string stringLength?) d
      (typeWord true ++ clauseText names module ++ [';'] ++ after) :=
    refuses_lexeme (s := [' ']) blank_space (isType.solid _) rfl
  have items : Refuses importItems d (typeWord true ++ clauseText names module ++ [';'] ++ after) := by
    have noSource := @refuses_sourced d names module ([';'] ++ after)
    rw [← List.append_assoc] at noSource
    exact (noForm _).firstOf (noSource.firstOf ((noForm _).firstOf noString.bind.last))
  have noImport : Refuses (importStatement (rule (depth + 2))) d (s ++ importText true names module ++ after) := by
    rw [List.append_assoc]
    refine Refuses.construct ?_ _ blank (opens.solid after)
    exact keyword.refuses_bind fun _ => items.bind
  have noExpression : Refuses (expressionStatement (rule (depth + 2))) d
      (s ++ importText true names module ++ after) := by
    rw [List.append_assoc]
    refine refuses_expressionStatement blank (opens.solid after) (Refuses.bind ?_)
    exact refuses_single_import (s := []) blank_nil blank_space (isType.solid _) (endsName_of_head? rfl (by decide)) rfl rfl
  intro c dialect same
  rw [statement_of_word opens blank (by rw [same])]
  exact (noImport.firstOf ((noForm _).firstOf noExpression.last)) c dialect same

/-! ### What stands between the tags of a fragment -/

open Script.Markup

/-- Text between tags. -/
structure IsRun (run : List Char) : Prop where
  plain : ∀ c ∈ run, endsText c = false
  counts : countsAsText false run = true

theorem IsRun.nonempty {run : List Char} (isRun : IsRun run) : run ≠ [] := by
  rintro rfl
  exact absurd isRun.counts (by decide)

/-- Text is a piece of content. -/
theorem yields_run {rule : Grammar} {run : List Char} (isRun : IsRun run) {c : Char} (ends_ : endsText c = true)
    (after : List Char) : Yields (content rule) d run (c :: after) Anything := by
  have length : Markup.textLength? (run ++ c :: after) = some run.length := by
    unfold Markup.textLength?
    rw [takeWhile_text isRun.plain ends_]
    dsimp only
    rw [isRun.counts, if_pos rfl]
  have node : Takes textNode d run (c :: after) fun n => .mk .markupText .plain ⟨n, n + run.length⟩ [] := by
    intro cursor dialect same
    rw [textNode, bind_of_some (sees_rest cursor dialect same), length]
    rfl
  exact ((node.map fun node => [node]).firstOf _).yields isRun.nonempty fun _ => trivial

/-- Expressions that are names, with commas between them. -/
theorem yields_names {names : List (List Char)} (identifiers : ∀ name ∈ names, IsIdentifier name) (some_ : names ≠ [])
    (after : List Char) :
    Yields (Expression.sequence (rule (depth + 2)) false) d (namesText names) ([' '] ++ '\x7d' :: after) Anything := by
  obtain ⟨name, rest, rfl⟩ := List.exists_cons_of_ne_nil some_
  have noComma : Refuses (sign ",") d ([' '] ++ '\x7d' :: after) :=
    refuses_sign (s := [' ']) blank_space (solid_cons after (by decide) (by decide)) rfl
  have one {first : List Char} (isIdentifier : IsIdentifier first) {more : List Char} (stops : Stops more) :
      Yields (rule (depth + 2) (.expression false)) d ([' '] ++ first) more Anything := by
    obtain ⟨tree, -, takes⟩ := readable_name (d := d) isIdentifier (depth + 1) false [' '] more blank_space stops
    exact takes.yields (List.cons_ne_nil _ _) fun _ => trivial
  have stopsRest (others : List (List Char)) :
      Stops ((others.flatMap fun other => [','] ++ ([' '] ++ other)) ++ ([' '] ++ '\x7d' :: after)) := by
    cases others with
    | nil => exact ⟨[' '], '\x7d', after, blank_space, by decide, rfl⟩
    | cons other more => exact ⟨[], ',', _, blank_nil, by decide, rfl⟩
  have others : Iterates (sign "," *> rule (depth + 2) (.expression false)) d
      (rest.flatMap fun other => [','] ++ ([' '] ++ other)) ([' '] ++ '\x7d' :: after) Anything := by
    have known : ∀ other ∈ rest, IsIdentifier other := fun other member => identifiers other (List.mem_cons_of_mem _ member)
    clear identifiers some_
    induction rest with
    | nil => exact noComma.seqRight.iterates fun _ => trivial
    | cons other more ih =>
      have later := ih fun another member => known another (List.mem_cons_of_mem _ member)
      have comma : Yields (sign ",") d [','] ([' '] ++ other ++ ((more.flatMap fun other => [','] ++ ([' '] ++ other)) ++
          ([' '] ++ '\x7d' :: after))) Anything :=
        yields_sign (s := []) "," blank_nil (solid_cons _ (by decide) (by decide)) (by simp)
      have item : Yields (sign "," *> rule (depth + 2) (.expression false)) d ([','] ++ ([' '] ++ other))
          ((more.flatMap fun other => [','] ++ ([' '] ++ other)) ++ ([' '] ++ '\x7d' :: after)) Anything :=
        comma.then (one (known other List.mem_cons_self) (stopsRest more)) fun _ _ _ => trivial
      intro c steps dialect same within
      obtain ⟨found, takes, -⟩ := item.iterates (List.cons_ne_nil _ _) later c steps dialect same within
      exact ⟨found, takes, trivial⟩
  refine (one (identifiers name List.mem_cons_self) (stopsRest rest)).bind fun n first _ => ?_
  refine (others.many.bind (m := []) fun m found _ => ?_).congr (List.append_nil _)
  cases found with
  | nil => exact (sees_pure first).yields fun _ _ _ => trivial
  | cons second more =>
    have extended : Yields (extend .sequence first (first :: second :: more)) d [] ([' '] ++ '\x7d' :: after) Anything :=
      Yields.pastLast fun stop => yields_pure fun _ => trivial
    exact extended.mono fun _ _ _ _ _ => trivial

/-- Names between braces are a piece of content. -/
theorem yields_namesContent {names : List (List Char)} (identifiers : ∀ name ∈ names, IsIdentifier name)
    (some_ : names ≠ []) (after : List Char) :
    Yields (content (rule (depth + 3))) d (bracedNames names) after Anything := by
  have brace (more : List Char) : Solid ('\x7b' :: more) := solid_cons more (by decide) (by decide)
  have text : bracedNames names ++ after = '\x7b' :: (namesText names ++ ([' '] ++ ['\x7d']) ++ after) := rfl
  have isConstruct : IsConstruct (bracedNames names ++ after) := by
    rw [text]
    exact ⟨⟨'\x7b', _, rfl, rfl⟩, brace _, rfl, rfl⟩
  have open_ : Yields (sign "\x7b") d ([] ++ ['\x7b']) (namesText names ++ ([' '] ++ ['\x7d']) ++ after) Anything :=
    yields_sign "\x7b" blank_nil (brace _) (by simp)
  have close_ : Yields (sign "\x7d") d ([' '] ++ ['\x7d']) after Anything :=
    yields_sign "\x7d" blank_space (solid_cons _ (by decide) (by decide)) (by simp)
  have inside : Yields (rule (depth + 3) (.sequence false)) d (namesText names) ([' '] ++ ['\x7d'] ++ after) Anything := by
    rw [List.append_assoc]
    exact yields_names identifiers some_ after
  have noSpread : Refuses (construct .otherExpression (do
      sign "..."
      return [← rule (depth + 3) (.expression false)])) d (namesText names ++ ([' '] ++ ['\x7d'] ++ after)) := by
    obtain ⟨name, rest, rfl⟩ := List.exists_cons_of_ne_nil some_
    have isWord := (identifiers name List.mem_cons_self).toIsWord
    have spread_ : Refuses (sign "...") d ([] ++ name ++
        ((rest.flatMap fun other => [','] ++ ([' '] ++ other)) ++ ([' '] ++ ['\x7d'] ++ after))) :=
      refuses_signBefore isWord rfl (by decide) blank_nil _
    rw [namesText, List.append_assoc, List.append_assoc]
    exact Refuses.construct spread_.bind _ blank_space (isWord.solid _)
  have container_ : Yields (container (rule (depth + 3))) d ([] ++ bracedNames names) after Anything := by
    refine (Yields.construct (P := Anything) ?_ .container blank_nil (text ▸ brace _) (List.cons_ne_nil _ _)).mono
      fun _ _ _ => trivial
    refine open_.bind fun _ _ _ => ?_
    refine (noSpread.yields_firstOf (inside.firstOf [])).maybe.bind fun _ found _ => ?_
    exact close_.map _ fun _ _ _ _ _ => trivial
  have refuses {reader : Reader (List Node)} (among : reader ∈ [(do return [← textNode]), contentRemark,
      (do return [← lexeme .characterReference characterReferenceLength?])]) :
      Refuses reader d (bracedNames names ++ after) := isConstruct.refuses isSpacing_nil among
  exact (refuses (by simp)).yields_firstOf ((refuses (by simp)).yields_firstOf ((refuses (by simp)).yields_firstOf
    ((container_.map (fun node => [node]) fun _ _ _ => trivial).firstOf _)))

/-- Text with names between braces in it. -/
def runsText (pieces : List (List Char × List (List Char))) (last : List Char) : List Char :=
  (pieces.flatMap fun piece => piece.1 ++ bracedNames piece.2) ++ last

/-- Text with names between braces in it is content, up to what is none. -/
theorem iterates_runs {pieces : List (List Char × List (List Char))}
    (runs : ∀ piece ∈ pieces, IsRun piece.1 ∧ piece.2 ≠ [] ∧ ∀ name ∈ piece.2, IsIdentifier name)
    {last : List Char} (isRun : IsRun last) {c : Char} (ends_ : endsText c = true)
    (refuses : Refuses (content (rule (depth + 3))) d (c :: after)) :
    Iterates (content (rule (depth + 3))) d (runsText pieces last) (c :: after) Anything := by
  have joins {first second more : List Char} (yields : Yields (content (rule (depth + 3))) d first (second ++ more) Anything)
      (moves : first ≠ []) (others : Iterates (content (rule (depth + 3))) d second more Anything) :
      Iterates (content (rule (depth + 3))) d (first ++ second) more Anything := by
    intro c steps dialect same within
    obtain ⟨found, takes, -⟩ := yields.iterates moves others c steps dialect same within
    exact ⟨found, takes, trivial⟩
  induction pieces with
  | nil =>
    have none_ : Iterates (content (rule (depth + 3))) d [] (c :: after) Anything := refuses.iterates fun _ => trivial
    have whole := joins (yields_run isRun ends_ after) isRun.nonempty none_
    rwa [List.append_nil] at whole
  | cons piece rest ih =>
    obtain ⟨isRun_, some_, identifiers⟩ := runs piece List.mem_cons_self
    have later := ih fun other member => runs other (List.mem_cons_of_mem _ member)
    have names_ := joins (yields_namesContent identifiers some_ _) (List.cons_ne_nil _ _) later
    have text : runsText (piece :: rest) last = piece.1 ++ (bracedNames piece.2 ++ runsText rest last) := by
      simp [runsText]
    rw [text]
    exact joins (yields_run isRun_ rfl _) isRun_.nonempty names_

/-- No content begins with what is neither text nor an expression nor a tag. -/
theorem refuses_content_of_construct (isConstruct : IsConstruct text) (noContainer : Refuses (container (rule depth)) d text)
    (noAngle : Text.startsWith "<".toList text = false) : Refuses (content (rule depth)) d text := by
  have noElement : Refuses (rule depth .element) d text := by
    cases depth with
    | zero => exact refuses_failure
    | succ depth =>
      refine Refuses.start (s := []) blank_nil isConstruct.solid fun first => Refuses.bind (Refuses.bind ?_)
      exact refuses_sign (s := []) blank_nil isConstruct.solid noAngle
  have noClose : Sees (absent (sign "</")) d text () := by
    intro c dialect rest
    have refused : Refuses (sign "</") d text := by
      refine refuses_sign (s := []) blank_nil isConstruct.solid ?_
      obtain ⟨c, rest, rfl, -⟩ := isConstruct.opens
      have other : c ≠ '<' := by
        rintro rfl
        cases noAngle
      exact startsWith_cons_of_ne _ _ other.symm
    rw [absent, refused c dialect rest]
  have refuses {reader : Reader (List Node)} (among : reader ∈ [(do return [← textNode]), contentRemark,
      (do return [← lexeme .characterReference characterReferenceLength?])]) :
      Refuses reader d text := isConstruct.refuses isSpacing_nil among
  exact (refuses (by simp)).firstOf ((refuses (by simp)).firstOf ((refuses (by simp)).firstOf
    (noContainer.bind.firstOf (noClose.refuses_bind noElement.bind).last)))

/-- No fragment is read whose content ends before anything but a closing tag. -/
theorem refuses_fragment {inside : List Char} (yields : Yields (many (content (rule depth))) d inside after Anything)
    (solid : Solid after) (noAngle : Text.startsWith "</".toList after = false) :
    Refuses (rule (depth + 1) .element) d ('<' :: '>' :: (inside ++ after)) := by
  have open_ : Takes (sign "<") d ['<'] ('>' :: (inside ++ after)) fun _ => () :=
    takes_sign (s := []) "<" blank_nil (solid_cons _ (by decide) (by decide))
  have angle : Solid ('>' :: (inside ++ after)) := solid_cons _ (by decide) (by decide)
  have close_ : Takes (sign ">") d ['>'] (inside ++ after) fun _ => () := takes_sign (s := []) ">" blank_nil angle
  have head_ : Takes (tagHead (rule depth)) d ['<'] ('>' :: (inside ++ after)) fun _ => [] :=
    (open_.bind (m := []) (b := fun _ _ => []) fun _ =>
      ((refuses_tagName _).opt.bind (sees_pure [])).follows).congr rfl fun _ => rfl
  have noClosed : Refuses (sign "/>") d ('>' :: (inside ++ after)) := refuses_sign (s := []) blank_nil angle rfl
  have noClosing : Refuses closingTag d after :=
    Refuses.construct (s := []) (Refuses.bind (refuses_sign (s := []) blank_nil solid noAngle)) _ blank_nil solid
  have whole : '<' :: '>' :: (inside ++ after) = ['<'] ++ '>' :: (inside ++ after) := rfl
  refine Refuses.start (s := []) blank_nil (solid_cons _ (by decide) (by decide)) fun first => ?_
  rw [whole]
  refine head_.refuses_bind fun n => noClosed.opt.refuses_bind ?_
  rw [Option.isSome_none, if_neg Bool.false_ne_true]
  have content_ : Yields (manyNodes (content (rule depth))) d inside after Anything :=
    yields.map List.flatten fun _ _ _ => trivial
  have rest_ (stop : Nat) : Refuses (do
      let found ← manyNodes (content (rule depth))
      let closing ← closingTag
      return Node.mk .element .plain ⟨first, ← last⟩ (.mk .openingTag .openTag ⟨first, stop⟩ [] :: found ++ [closing])) d
      (inside ++ after) := content_.refuses_bind fun _ => noClosing.bind
  exact close_.refuses_bind fun _ c => rest_ c.last c

/-- No script begins with markup that is not read. -/
theorem refuses_statement_of_angle {rest : List Char} (form : d.typed = false) (markup : d.markup = true)
    (noElement : Refuses (rule depth .element) d ('<' :: rest)) :
    Refuses (rule (depth + 3) .statement) d ('<' :: rest) := by
  have solid : Solid ('<' :: rest) := solid_cons rest (by decide) (by decide)
  have word_ : wordOf ('<' :: rest) = "" := wordOf_of_first rest (Or.inl (by decide))
  have ahead := sees_upcoming (d := d) (s := []) blank_nil solid
  have primary_ : Refuses (primary (rule depth) true) d ('<' :: rest) := by
    refine ahead.refuses_bind (sees_markup.refuses_bind ?_)
    rw [if_pos markup]
    exact (sees_typed.refuses_bind (refuses_guarded form).bind).firstOf noElement.last
  have single_ : Refuses (single (rule depth) true) d ([] ++ '<' :: rest) := by
    refine refuses_single_of_primary blank_nil
      (isPlain_of_first rest (Or.inl (by decide)) (by decide) (by decide)) ?_ ?_ primary_
    · rw [word_]
      decide
    · rintro c ⟨⟩
      decide
  have next := sees_nextWord (d := d) (s := []) blank_nil solid
  rw [word_] at next
  have noStatement : Refuses (expressionStatement (rule (depth + 2))) d ([] ++ '<' :: rest) :=
    refuses_expressionStatement blank_nil solid single_.bind
  exact ahead.refuses_bind (next.refuses_bind noStatement)

/-! ### What ends the content -/

/-- What neither text nor content nor a closing tag begins with. -/
structure IsCut (depth : Nat) (d : Dialect) (text : List Char) : Prop where
  opens : ∃ c rest, text = c :: rest ∧ endsText c = true ∧ c ≠ '<'
  solid : Solid text
  refuses : Refuses (content (rule depth)) d text

/-- An operator cuts content short. -/
theorem isCut_ampersands (rest : List Char) : IsCut depth d ('&' :: '&' :: rest) := by
  have solid : Solid ('&' :: '&' :: rest) := solid_cons _ (by decide) (by decide)
  refine ⟨⟨'&', _, rfl, rfl, by decide⟩, solid, ?_⟩
  refine refuses_content_of_construct ⟨⟨'&', _, rfl, rfl⟩, solid, rfl, rfl⟩ ?_ rfl
  exact Refuses.construct (s := []) (Refuses.bind (refuses_sign (s := []) blank_nil solid rfl)) _ blank_nil solid

/-- A name is an expression before a mark that no branches follow. -/
theorem takes_undecided {name pad rest : List Char} (isIdentifier : IsIdentifier name) (blank : Blank pad) :
    Takes (rule (depth + 2) (.sequence false)) d (pad ++ name) ('?' :: ':' :: rest) fun n =>
      leaf .identifier (n + pad.length) name.length := by
  have solid : Solid ('?' :: ':' :: rest) := solid_cons _ (by decide) (by decide)
  have ends_ : EndsName ('?' :: ':' :: rest) := endsName_of_head? rfl (by decide)
  have colon : Solid (':' :: rest) := solid_cons _ (by decide) (by decide)
  have lacks {marks : List (String × String)} (none_ : (marks.all fun mark => !begins mark ('?' :: ':' :: rest)) = true) :
      Lacks marks ('?' :: ':' :: rest) := lacks_of_all (s := []) blank_nil solid ends_ none_
  obtain ⟨isPlain, word_⟩ := isIdentifier.plain ends_
  have operand_ : Takes (operand (rule depth) false) d (pad ++ name) ('?' :: ':' :: rest) fun n =>
      leaf .identifier (n + pad.length) name.length :=
    takes_operand blank isPlain (takes_suffixed_of_primary (takes_identifier isIdentifier blank ends_ (lacks rfl)) (lacks rfl))
  have question : Takes questionMark d ['?'] (':' :: rest) fun _ => () :=
    ((takes_signBut (s := []) "?" "?" blank_nil solid rfl).bind (m := []) (b := fun _ _ => ()) fun _ =>
      (sees_rest.bind (sees_pure ())).follows).congr rfl fun _ => rfl
  have noValue : Refuses (rule depth (.expression false)) d (':' :: rest) := by
    cases depth with
    | zero => exact refuses_failure
    | succ depth => exact refuses_single (stops_of_closer (by decide) rest)
  have noBranches : Refuses (branches (rule depth) false) d (['?'] ++ ':' :: rest) :=
    question.refuses_bind fun _ => noValue.bind
  have conditional_ : Takes (conditional (rule depth) false) d (pad ++ name) ('?' :: ':' :: rest) _ :=
    (takes_chain operand_ (lacks rfl)).seen (sees_branches noBranches)
  have noComma : Refuses (sign ",") d ('?' :: ':' :: rest) := refuses_sign (s := []) blank_nil solid rfl
  have single_ : Takes (rule (depth + 1) (.expression false)) d (pad ++ name) ('?' :: ':' :: rest) _ :=
    takes_single blank isPlain.solid word_ conditional_ (lacks rfl)
  exact takes_sequence single_ noComma

/-- The braces of an interface hold no expression, and cut content short. -/
theorem isCut_objectType {pad close name type : List Char} (isIdentifier : IsIdentifier name)
    (blank : Blank pad) (after : List Char) :
    IsCut (depth + 2) d (objectTypeText pad close name type ++ after) := by
  have solid (more : List Char) : Solid ('\x7b' :: more) := solid_cons more (by decide) (by decide)
  have mark_ (more : List Char) : Solid ('?' :: more) := solid_cons more (by decide) (by decide)
  have text : objectTypeText pad close name type ++ after = '\x7b' :: (pad ++ name ++
      ('?' :: ':' :: (' ' :: type ++ [';'] ++ (close ++ ['\x7d']) ++ after))) := by
    simp [objectTypeText, memberText]
  have open_ : Takes (sign "\x7b") d ['\x7b'] (pad ++ name ++
      ('?' :: ':' :: (' ' :: type ++ [';'] ++ (close ++ ['\x7d']) ++ after))) fun _ => () :=
    takes_sign (s := []) "\x7b" blank_nil (solid _)
  have noSpread : Refuses (construct .otherExpression (do
      sign "..."
      return [← rule (depth + 2) (.expression false)])) d (pad ++ name ++
        ('?' :: ':' :: (' ' :: type ++ [';'] ++ (close ++ ['\x7d']) ++ after))) := by
    rw [List.append_assoc]
    refine Refuses.construct (Refuses.bind ?_) _ blank (isIdentifier.toIsWord.solid _)
    exact refuses_signBefore (s := []) isIdentifier.toIsWord rfl (by decide) blank_nil _
  have inside := (noSpread.takes_firstOf ((@takes_undecided depth d name pad _ isIdentifier blank).firstOf [])).maybe
  rw [text]
  refine ⟨⟨'\x7b', _, rfl, rfl, by decide⟩, solid _, ?_⟩
  refine refuses_content_of_construct ⟨⟨'\x7b', _, rfl, rfl⟩, solid _, rfl, rfl⟩ ?_ rfl
  refine Refuses.construct (s := []) ?_ _ blank_nil (solid _)
  refine open_.refuses_bind fun _ => inside.refuses_bind fun _ => Refuses.bind ?_
  exact refuses_sign (s := []) blank_nil (mark_ _) rfl

/-- No script begins with text between tags that is cut short. -/
theorem refuses_statement_of_cut (form : d.typed = false) (markup : d.markup = true)
    {pieces : List (List Char × List (List Char))}
    (runs : ∀ piece ∈ pieces, IsRun piece.1 ∧ piece.2 ≠ [] ∧ ∀ name ∈ piece.2, IsIdentifier name)
    {last : List Char} (isRun : IsRun last) (isCut : IsCut (depth + 3) d after) :
    Refuses (rule (depth + 7) .statement) d ('<' :: '>' :: (runsText pieces last ++ after)) := by
  obtain ⟨⟨c, rest, rfl, ends_, other⟩, solid, refuses⟩ := isCut
  refine refuses_statement_of_angle form markup (refuses_fragment (iterates_runs runs isRun ends_ refuses).many solid ?_)
  exact startsWith_cons_of_ne _ _ other.symm

end Script

end AnimationCode
