/-
**The variable of the wish for reduced motion, and what depends on it, are read.**

Its value asks whether there is a window and, if so, whether the window matches the wish. An expression may depend on such
a variable.

* `takes_binaryOperator`: an operator between two operands;
* `readable_wish`: the value of the variable;
* `readable_ternary`: a choice between two expressions by a variable.
-/

import AnimationCode.Proofs.Script.Statement

namespace AnimationCode

namespace Script

open Reader Expression

variable {depth : Nat} {d : Dialect} {space text after : List Char}

/-! ### Operators -/

/-- An operator between blanks, given the operators that are looked for before it. -/
theorem takes_binaryOperator (mark excluded : String) (before : List (String × String))
    {behind : List (String × String)} (among : binarySigns = before ++ (mark, excluded) :: behind) {c : Char} {rest : List Char}
    (first : mark.toList = c :: rest) (sign_ : isSpace c = false ∧ c ≠ '/' ∧ isNameRest c = false ∧ c ≠ '\\')
    (others : (before.all fun other => !begins other (mark.toList ++ ' ' :: after)) = true)
    (free : excluded.toList.contains ' ' = false) :
    Takes binaryOperator d ([' '] ++ mark.toList) (' ' :: after) fun _ => () := by
  have solid : Solid (mark.toList ++ ' ' :: after) := by
    rw [first]
    exact solid_cons _ sign_.1 sign_.2.1
  have ends_ : EndsName (mark.toList ++ ' ' :: after) := by
    rw [first]
    rintro e ⟨⟩
    exact sign_.2.2
  have next : Sees nextWord d ([' '] ++ mark.toList ++ ' ' :: after) "" := by
    rw [List.append_assoc, ← wordOf_of_ends ends_]
    exact sees_nextWord blank_space solid
  have lacks : Lacks before ([' '] ++ (mark.toList ++ ' ' :: after)) :=
    lacks_of_all blank_space solid ends_ others
  refine next.takes_bind ?_
  rw [among, List.map_append]
  refine Takes.firstOf_append (Takes.firstOf ?_ _) ?_
  · exact takes_signBut mark excluded blank_space solid (by simpa using free)
  · intro reader member
    obtain ⟨⟨other, but⟩, known, rfl⟩ := List.mem_map.mp member
    rw [List.append_assoc]
    exact lacks.refuses_signBut known

/-- One more operand after an operator. -/
theorem follows_operator {rule : Grammar} {ends : Bool} {chain : Node} {operator operand_ : List Char} {tree : Nat → Node}
    (goesOn : statementEnds d.typed true (operator ++ operand_ ++ after) = false)
    (takesOperator : Takes binaryOperator d operator (operand_ ++ after) fun _ => ())
    (takesOperand : Takes (rule (.operand ends)) d operand_ after tree) :
    Follows (chainSuffix rule ends chain) d (operator ++ operand_) after fun n =>
      .mk .otherExpression .plain ⟨chain.span.start, n + (operator ++ operand_).length⟩
        [chain, tree (n + operator.length)] := by
  have operand__ : Takes (do
      let next ← rule (.operand ends)
      extend .otherExpression chain [chain, next]) d operand_ after fun n =>
        .mk .otherExpression .plain ⟨chain.span.start, n + operand_.length⟩ [chain, tree n] :=
    (takesOperand.bind (m := []) (b := fun n m => Node.mk .otherExpression .plain
      ⟨chain.span.start, m⟩ [chain, tree n]) fun n => follows_extend _ _ _).congr (List.append_nil _) fun _ => rfl
  have both : Takes (do
      binaryOperator
      let next ← rule (.operand ends)
      extend .otherExpression chain [chain, next]) d (operator ++ operand_) after fun n =>
        .mk .otherExpression .plain ⟨chain.span.start, n + operator.length + operand_.length⟩
          [chain, tree (n + operator.length)] :=
    takesOperator.bind (b := fun _ m => Node.mk .otherExpression .plain
      ⟨chain.span.start, m + operand_.length⟩ [chain, tree m]) fun _ => operand__.follows
  unfold chainSuffix
  refine follows_unlessEnded (fun _ => goesOn) (Takes.follows (Takes.firstOf ?_ _))
  refine both.congr rfl fun n => ?_
  rw [List.length_append, Nat.add_assoc]

/-- The word that asks for the type of a value, and a name. -/
theorem takes_typeof {name : List Char} (isIdentifier : IsIdentifier name) (blank : Blank space)
    (ends_ : EndsName after) (noArrow : Lacks [("=>", "")] after) (lacks : Lacks suffixMarks after) :
    Takes (operand (rule (depth + 1)) true) d (space ++ ("typeof".toList ++ ([' '] ++ name))) after
      fun n => .mk .unary .plain
        ⟨n + space.length, n + space.length + ("typeof".toList ++ ([' '] ++ name)).length⟩
        [(leaf .token (n + space.length) 6).as .operator,
          (leaf .identifier (n + space.length + 7) name.length).as .argument] := by
  have isWord : IsWord "typeof".toList := isWord_of_check rfl
  have follow : EndsName ([' '] ++ name ++ after) := by
    rintro c ⟨⟩
    decide
  have keyword : Takes (mark .token .operator (word "typeof")) d ([] ++ "typeof".toList)
      ([' '] ++ name ++ after) fun n => (leaf .token n 6).as .operator :=
    (takes_word (s := []) "typeof" blank_nil isWord follow).mark .token .operator blank_nil
      (isWord.solid _)
  have inner : Takes (rule (depth + 1) (.operand true)) d ([' '] ++ name) after fun n =>
      leaf .identifier (n + 1) name.length :=
    takes_operand blank_space (isIdentifier.plain ends_).1
      (takes_suffixed_of_primary (takes_identifier isIdentifier blank_space ends_ noArrow) lacks)
  have parts : Takes (do
      let op ← mark .token .operator (word "typeof")
      return [op, (← rule (depth + 1) (.operand true)).as .argument]) d
      ("typeof".toList ++ ([' '] ++ name)) after fun n =>
        [(leaf .token n 6).as .operator, (leaf .identifier (n + 7) name.length).as .argument] :=
    keyword.bind (b := fun n m => [(leaf .token n 6).as .operator,
        (leaf .identifier (m + 1) name.length).as .argument]) fun n =>
      (inner.map fun node => [(leaf .token n 6).as .operator, node.as .argument]).follows
  have solid : Solid ("typeof".toList ++ ([' '] ++ name) ++ after) := by
    rw [List.append_assoc]
    exact isWord.solid _
  have whole := parts.construct .unary blank solid
  have ahead := sees_upcoming (d := d) blank solid
  have next := sees_nextWord (d := d) blank solid
  rw [← List.append_assoc] at ahead next
  rw [List.append_assoc "typeof".toList, wordOf_append isWord follow, String.ofList_toList] at next
  obtain ⟨c, rest, text, sign_⟩ : ∃ c rest, "typeof".toList ++ ([' '] ++ name) ++ after = c :: rest ∧
      c ∉ ['!', '~', '+', '-'] := ⟨'t', _, rfl, by decide⟩
  simp only [List.mem_cons, List.not_mem_nil, or_false, not_or] at sign_
  refine ahead.takes_bind ?_
  rw [text]
  split
  case h_7 => exact next.takes_bind whole
  all_goals
    rename_i first
    simp [(List.cons.inj first).1] at sign_

/-! ### The value -/

/-- The name of the window. -/
def windowName : List Char := "window".toList

/-- What the window is asked. -/
def wishSuffixes : List Suffix :=
  [.property "matchMedia".toList, .arguments [stringItem "(prefers-reduced-motion: reduce)".toList],
    .property "matches".toList]

/-- Whether there is a window. -/
def presenceText : List Char := [' '] ++ "!==".toList ++ ([' '] ++ Text.quote "undefined".toList)

/-- Whether the window matches the wish. -/
def matchText : List Char := [' '] ++ "&&".toList ++ ([' '] ++ (windowName ++ suffixText wishSuffixes))

/-- The node of the value, given what the suffixes of the window build. -/
def wishNode (build : Node → Nat → Node) (n : Nat) : Node :=
  .mk .otherExpression .plain ⟨n, n + 94⟩ [
    .mk .otherExpression .plain ⟨n, n + 29⟩ [
      .mk .unary .plain ⟨n, n + 13⟩
        [(leaf .token n 6).as .operator, (leaf .identifier (n + 7) 6).as .argument],
      leaf .string (n + 18) 11],
    build (leaf .identifier (n + 33) 6) (n + 39)]

/-- The value of the variable, as an item. -/
def wishItem : Item where
  text := "typeof".toList ++ ([' '] ++ windowName) ++ (presenceText ++ matchText)
  Fits := fun tree => ∃ build, Built wishSuffixes build ∧ tree = wishNode build

theorem isIdentifier_windowName : IsIdentifier windowName :=
  ⟨⟨isWord_of_check rfl, by decide⟩, by decide⟩

theorem statementEnds_operator {c : Char} (sign_ : c ∈ ['!', '&']) (typed afterOperand : Bool)
    (rest : List Char) : statementEnds typed afterOperand (' ' :: c :: rest) = false := by
  simp only [List.mem_cons, List.not_mem_nil, or_false] at sign_
  rcases sign_ with rfl | rfl <;> cases typed <;> rfl

theorem isReadable_wishSuffixes : ∀ suffix ∈ wishSuffixes, suffix.IsReadable (rule (depth + 1)) d := by
  refine List.forall_mem_cons.mpr ⟨?_, List.forall_mem_cons.mpr ⟨?_, List.forall_mem_singleton.mpr ?_⟩⟩
  · exact isWord_of_check rfl
  · refine isReadable_arguments (List.forall_mem_singleton.mpr ⟨startsPlain_quote _, ?_⟩)
    exact readable_string (by decide) depth false
  · exact isWord_of_check rfl

theorem readable_wish : Readable (rule (depth + 3) (.expression true)) d wishItem := by
  intro space after blank stops
  have lacks {marks : List (String × String)} {c : Char} (rest : List Char)
      (sign_ : c ∈ ['!', '&'])
      (none_ : (marks.all fun mark => !begins mark (c :: rest)) = true) : Lacks marks (' ' :: c :: rest) := by
    have signs : ∀ e ∈ ['!', '&'], isSpace e = false ∧ e ≠ '/' ∧ isNameRest e = false ∧ e ≠ '\\' := by
      decide
    obtain ⟨plain, slash, noName⟩ := signs c sign_
    refine lacks_of_all blank_space (solid_cons _ plain slash) ?_ none_
    rintro e ⟨⟩
    exact noName
  obtain ⟨build, built, takesMatch⟩ := takes_suffixed_chain true isIdentifier_windowName
    (@isReadable_wishSuffixes depth d) blank_space stops.suffix stops.endsName
  refine ⟨_, ⟨build, built, rfl⟩, ?_⟩
  have ends_ : EndsName (presenceText ++ (matchText ++ after)) := by
    rintro e ⟨⟩
    decide
  have test : Takes (operand (rule (depth + 2)) true) d (space ++ ("typeof".toList ++ ([' '] ++ windowName)))
      (presenceText ++ (matchText ++ after)) _ :=
    takes_typeof isIdentifier_windowName blank ends_ (lacks _ (by decide) rfl) (lacks _ (by decide) rfl)
  have undefined_ : Takes (rule (depth + 2) (.operand true)) d ([' '] ++ Text.quote "undefined".toList)
      (matchText ++ after) fun n => leaf .string (n + 1) 11 :=
    takes_operand blank_space (isPlain_of_first _ (Or.inl (by decide)) (by decide) (by decide))
      (takes_suffixed_of_primary (takes_string _ blank_space) (lacks _ (by decide) rfl))
  have match_ : Takes (rule (depth + 2) (.operand true)) d
      ([' '] ++ (windowName ++ suffixText wishSuffixes)) after fun n =>
        build (leaf .identifier (n + 1) 6) (n + 7) := by
    have plain := (isIdentifier_windowName.plain (endsName_suffixText wishSuffixes stops.endsName)).1
    rw [← List.append_assoc] at plain
    exact takes_operand blank_space plain takesMatch
  have presence (chain : Node) : Follows (chainSuffix (rule (depth + 2)) true chain) d presenceText
      (matchText ++ after) fun n => .mk .otherExpression .plain ⟨chain.span.start, n + 16⟩
        [chain, leaf .string (n + 5) 11] :=
    follows_operator (statementEnds_operator (by decide) _ _ _)
      (takes_binaryOperator "!==" "" [("===", "")] rfl rfl (by decide) rfl rfl) undefined_
  have matches_ (chain : Node) : Follows (chainSuffix (rule (depth + 2)) true chain) d matchText
      after fun n => .mk .otherExpression .plain ⟨chain.span.start, n + 65⟩
        [chain, build (leaf .identifier (n + 4) 6) (n + 10)] :=
    follows_operator (statementEnds_operator (by decide) _ _ _)
      (takes_binaryOperator "&&" "=" (binarySigns.take 10) rfl rfl (by decide) rfl rfl) match_
  have grows (chain : Node) (start_ : Nat) (span : chain.span.start = start_) :
      Grows (chainSuffix (rule (depth + 2)) true) d (presenceText ++ matchText) after chain fun n =>
        .mk .otherExpression .plain ⟨start_, n + 81⟩
          [.mk .otherExpression .plain ⟨start_, n + 16⟩ [chain, leaf .string (n + 5) 11],
            build (leaf .identifier (n + 20) 6) (n + 26)] := by
    subst span
    refine (presence chain).grows (List.cons_ne_nil _ _) (b := fun n m => .mk .otherExpression .plain
      ⟨chain.span.start, m + 65⟩ [.mk .otherExpression .plain ⟨chain.span.start, n + 16⟩
        [chain, leaf .string (n + 5) 11], build (leaf .identifier (m + 4) 6) (m + 10)]) fun n => ?_
    refine ((matches_ _).grows (m := []) (List.cons_ne_nil _ _) fun m =>
      (refuses_chainSuffix stops.operator _).grows)
  have chain_ : Takes (chain (rule (depth + 2)) true) d (space ++ wishItem.text) after fun n =>
      wishNode build (n + space.length) := by
    have text : space ++ wishItem.text =
        space ++ ("typeof".toList ++ ([' '] ++ windowName)) ++ (presenceText ++ matchText) :=
      (List.append_assoc _ _ _).symm
    rw [text]
    rw [← List.append_assoc presenceText] at test
    refine (test.bind (b := fun n m => Node.mk .otherExpression .plain ⟨n + space.length, m + 81⟩
      [.mk .otherExpression .plain ⟨n + space.length, m + 16⟩
        [.mk .unary .plain ⟨n + space.length, n + space.length + 13⟩
          [(leaf .token (n + space.length) 6).as .operator,
            (leaf .identifier (n + space.length + 7) 6).as .argument], leaf .string (m + 5) 11],
        build (leaf .identifier (m + 20) 6) (m + 26)]) fun n => ?_).congr rfl fun n => ?_
    · exact (grows _ _ rfl).grow
    · have length : n + (space ++ ("typeof".toList ++ ([' '] ++ windowName))).length =
          n + space.length + 13 := by
        rw [List.length_append, ← Nat.add_assoc]
        rfl
      rw [length]
      rfl
  have isWord : IsWord "typeof".toList := isWord_of_check rfl
  have follow : EndsName ([' '] ++ windowName ++ (presenceText ++ matchText) ++ after) := by
    rintro e ⟨⟩
    decide
  refine takes_single blank (isWord.solid (([' '] ++ windowName) ++ (presenceText ++ matchText) ++ after)) ?_
    (takes_conditional chain_ stops.question) stops.assignment
  have word : wordOf (wishItem.text ++ after) = "typeof" := wordOf_append isWord follow
  rw [word]
  decide

/-- The name of the variable. -/
def guardName : List Char := "prefersReducedMotion".toList

theorem isIdentifier_guardName : IsIdentifier guardName :=
  ⟨⟨isWord_of_check rfl, by decide⟩, by decide⟩

theorem isSubject_guardName : IsSubject guardName := ⟨isIdentifier_guardName, by decide⟩

/-- No element is in the declaration of the variable. -/
theorem wish_avoids {tree : Nat → Node} (fits : (constItem guardName wishItem).Fits tree) (n : Nat) :
    (tree n).Avoids Node.elementKinds := by
  obtain ⟨inner, ⟨build, built, rfl⟩, rfl⟩ := fits
  obtain ⟨_, _, rfl, ⟨_, _, ⟨nodes, ⟨question, others, rfl, none_, one⟩, rfl⟩, ⟨_, _, rfl, rfl, rfl⟩, rfl⟩, rfl⟩ := built
  obtain rfl : others = fun _ => [] := funext none_
  suffices kinds : ∀ kind ∈ (constNode guardName wishItem.text (wishNode _) n).walk.map Node.kind,
      kind ∉ Node.elementKinds from
    fun node member => kinds node.kind (List.mem_map_of_mem member)
  simp only [constNode, wishNode, memberNode, callNode, one, leaf, Node.as, Node.walk, Node.walkAll, Node.kind,
    List.append_nil, List.cons_append, List.nil_append, List.map_cons, List.map_nil]
  decide

/-! ### Choices -/

/-- A condition and its two branches. -/
theorem takes_ternary {rule : Grammar} {d : Dialect} {test first second after : List Char}
    {condition consequence alternative : Nat → Node}
    (takesTest : Takes (chain rule false) d test ([' ', '?'] ++ (first ++ ([' ', ':'] ++ second)) ++ after)
      condition)
    (noArrow : ∀ n, (condition n).kind ≠ .arrowFunction)
    (space : ∃ rest, first ++ ([' ', ':'] ++ second) ++ after = ' ' :: rest)
    (takesFirst : Takes (rule (.expression false)) d first ([' ', ':'] ++ second ++ after) consequence)
    (solid : Solid (':' :: (second ++ after)))
    (takesSecond : Takes (rule (.expression false)) d second after alternative) :
    Takes (conditional rule false) d (test ++ ([' ', '?'] ++ (first ++ ([' ', ':'] ++ second)))) after
      fun n => .mk .ternary .plain ⟨(condition n).span.start,
          n + (test ++ ([' ', '?'] ++ (first ++ ([' ', ':'] ++ second)))).length⟩
        [(condition n).as .condition, (consequence (n + test.length + 2)).as .consequence,
          (alternative (n + test.length + 2 + first.length + 2)).as .alternative] := by
  have question : Takes questionMark d ([' '] ++ "?".toList)
      (first ++ ([' ', ':'] ++ second) ++ after) fun _ => () := by
    obtain ⟨rest, same⟩ := space
    rw [same]
    have sign_ : Takes (signBut "?" "?") d ([' '] ++ "?".toList) (' ' :: rest) fun _ => () :=
      takes_signBut "?" "?" blank_space (solid_cons _ (by decide) (by decide)) rfl
    exact (sign_.bind (m := []) (b := fun _ _ => ()) fun _ =>
      (sees_rest.bind (sees_pure ())).follows).congr (List.append_nil _) fun _ => rfl
  have colon : Takes (sign ":") d ([' '] ++ ":".toList) (second ++ after) fun _ => () :=
    takes_sign ":" blank_space solid
  have branches : Takes (do
      questionMark
      let consequence ← rule (.expression false)
      sign ":"
      let alternative ← rule (.expression false)
      return [consequence.as .consequence, alternative.as .alternative]) d
      ([' ', '?'] ++ (first ++ ([' ', ':'] ++ second))) after
      fun m => [(consequence (m + 2)).as .consequence,
        (alternative (m + 2 + first.length + 2)).as .alternative] := by
    have last (yes : Node) : Takes (do
        sign ":"
        let alternative ← rule (.expression false)
        return [yes.as .consequence, alternative.as .alternative]) d ([' ', ':'] ++ second) after
        fun m => [yes.as .consequence, (alternative (m + 2)).as .alternative] :=
      colon.bind (b := fun _ m => [yes.as .consequence, (alternative m).as .alternative]) fun _ =>
        (takesSecond.map fun no => [yes.as .consequence, no.as .alternative]).follows
    have middle : Takes (do
        let consequence ← rule (.expression false)
        sign ":"
        let alternative ← rule (.expression false)
        return [consequence.as .consequence, alternative.as .alternative]) d
        (first ++ ([' ', ':'] ++ second)) after
        fun m => [(consequence m).as .consequence, (alternative (m + first.length + 2)).as .alternative] :=
      takesFirst.bind (b := fun n m => [(consequence n).as .consequence,
        (alternative (m + 2)).as .alternative]) fun _ => (last _).follows
    exact question.bind (b := fun _ m => [(consequence m).as .consequence,
      (alternative (m + first.length + 2)).as .alternative]) fun _ => middle.follows
  refine takesTest.bind (b := fun n m => .mk .ternary .plain ⟨(condition n).span.start,
      m + ([' ', '?'] ++ (first ++ ([' ', ':'] ++ second))).length⟩
    [(condition n).as .condition, (consequence (m + 2)).as .consequence,
      (alternative (m + 2 + first.length + 2)).as .alternative]) (fun n => ?_) |>.congr rfl fun n => ?_
  · rw [if_neg (by simpa using noArrow n)]
    refine (sees_endsHere true).follows_bind ?_
    rw [Bool.false_and, if_neg Bool.false_ne_true]
    refine (branches.opt.bind (m := []) (b := fun m k => .mk .ternary .plain
      ⟨(condition n).span.start, k⟩ [(condition n).as .condition, (consequence (m + 2)).as .consequence,
        (alternative (m + 2 + first.length + 2)).as .alternative]) fun m => ?_).follows.congr
      (List.append_nil _) fun _ => rfl
    exact follows_extend .ternary (condition n) _
  · simp only [List.length_append, Nat.add_assoc]

/-- A name as the condition of a choice, before its mark. -/
theorem takes_test {g : Grammar} {name : List Char} (isIdentifier : IsIdentifier name) (blank : Blank space)
    (rest : List Char) : Takes (chain g false) d (space ++ name) (' ' :: '?' :: ' ' :: rest) fun n =>
      leaf .identifier (n + space.length) name.length := by
  have lacks {marks : List (String × String)}
      (none_ : (marks.all fun mark => !begins mark ('?' :: ' ' :: rest)) = true) :
      Lacks marks (' ' :: '?' :: ' ' :: rest) := by
    refine lacks_of_all blank_space (solid_cons _ (by decide) (by decide)) ?_ none_
    rintro c ⟨⟩
    decide
  have ends_ : EndsName (' ' :: '?' :: ' ' :: rest) := by
    rintro c ⟨⟩
    decide
  have takesName : Takes (primary g false) d (space ++ name) _ _ := takes_identifier isIdentifier blank ends_ (lacks rfl)
  exact takes_chain (takes_operand blank (isIdentifier.plain ends_).1 (takes_suffixed_of_primary takesName (lacks rfl)))
    (lacks rfl)

/-- The text of a choice between two expressions by a name. -/
def ternaryText (name : List Char) (first second : Item) : List Char :=
  name ++ ([' ', '?'] ++ ([' '] ++ first.text ++ ([' ', ':'] ++ ([' '] ++ second.text))))

/-- A choice between two expressions by a name, as an item among others. -/
def ternaryItem (name : List Char) (first second : Item) : Item where
  text := ternaryText name first second
  Fits := fun tree => ∃ yes no, first.Fits yes ∧ second.Fits no ∧
    tree = fun n => .mk .ternary .plain ⟨n, n + (ternaryText name first second).length⟩
      [(leaf .identifier n name.length).as .condition, (yes (n + name.length + 3)).as .consequence,
        (no (n + name.length + first.text.length + 6)).as .alternative]

theorem readable_ternary {name : List Char} (isIdentifier : IsIdentifier name) {first second : Item}
    (readableFirst : Readable (rule depth (.expression false)) d first)
    (readableSecond : Readable (rule depth (.expression false)) d second) :
    Readable (rule (depth + 1) (.expression false)) d (ternaryItem name first second) := by
  intro space after blank stops
  obtain ⟨yes, fitsFirst, takesFirst⟩ := readableFirst [' '] ([' ', ':'] ++ ([' '] ++ second.text) ++ after) blank_space
    ⟨[' '], ':', _, blank_space, by decide, rfl⟩
  obtain ⟨no, fitsSecond, takesSecond⟩ := readableSecond [' '] after blank_space stops
  refine ⟨_, ⟨yes, no, fitsFirst, fitsSecond, rfl⟩, ?_⟩
  have takesTest := @takes_test d space (rule depth) name isIdentifier blank
    (first.text ++ ([' ', ':'] ++ ([' '] ++ second.text)) ++ after)
  have whole := takes_ternary takesTest (fun _ same => by cases same) ⟨_, rfl⟩ takesFirst
    (solid_cons _ (by decide) (by decide)) takesSecond
  have ends_ : EndsName ([' ', '?'] ++ ([' '] ++ first.text ++ ([' ', ':'] ++ ([' '] ++ second.text))) ++ after) := by
    rintro c ⟨⟩
    decide
  have plain := isIdentifier.plain ends_
  rw [← List.append_assoc] at plain
  refine takes_single blank plain.1.solid plain.2 (whole.congr (List.append_assoc _ _ _) fun n => ?_) stops.assignment
  have stop : n + (space ++ name ++ ([' ', '?'] ++ ([' '] ++ first.text ++ ([' ', ':'] ++ ([' '] ++ second.text))))).length =
      n + space.length + (ternaryText name first second).length := by
    rw [ternaryText, List.append_assoc, List.length_append, Nat.add_assoc]
  have consequence : n + (space ++ name).length + 2 + 1 = n + space.length + name.length + 3 := by
    rw [List.length_append]
    omega
  have alternative : n + (space ++ name).length + 2 + ([' '] ++ first.text).length + 2 + 1 =
      n + space.length + name.length + first.text.length + 6 := by
    rw [List.length_append, List.length_append, List.length_singleton]
    omega
  rw [← stop, ← consequence, ← alternative]
  rfl

end Script

end AnimationCode
