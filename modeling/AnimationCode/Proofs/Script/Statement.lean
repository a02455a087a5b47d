/-
**Statements of calls, variables and conditions.**

* `isStatement_chain`: a name with suffixes, and a semicolon;
* `isStatement_const`: a variable with its value;
* `isStatement_if`: statements under a condition.
-/

import AnimationCode.Proofs.Script.Block

namespace AnimationCode

namespace Script

open Reader Expression Binding Statement

variable {depth : Nat} {d : Dialect} {space text after : List Char} {word : String}

/-! ### The words of statements -/

theorem rule_statement (depth : Nat) : rule (depth + 1) .statement = statement (rule depth) := rfl

theorem sees_opened (opens : OpensWith word text) (blank : Blank space) :
    Sees nextWord d (space ++ text ++ after) word := by
  have next := sees_nextWord (d := d) blank (opens.solid after)
  rwa [opens.wordOf_eq after, ← List.append_assoc] at next

/-- What is looked for where a statement begins with a word. -/
def statementOf (rule : Grammar) (word : String) : Reader Node :=
  match word with
  | "" => expressionStatement rule
  | "import" => firstOf [importStatement rule, typedDeclaration rule, expressionStatement rule]
  | "export" => exportStatement rule
  | _ => firstOf [worded rule, declared rule, labelled rule, expressionStatement rule]

theorem statement_of_word (opens : OpensWith word text) (blank : Blank space) {c : Cursor}
    (same : c.rest = space ++ text ++ after) :
    rule (depth + 1) .statement c = statementOf (rule depth) word c := by
  have ahead := sees_upcoming (d := c.dialect) blank (opens.solid after)
  rw [← List.append_assoc] at ahead
  obtain ⟨e, rest, text_, part⟩ := opens.exists_first
  have signs : isNameRest '\x7b' = false ∧ isNameRest ';' = false ∧ isNameRest '@' = false := by decide
  have next : nextWord c = some (word, c) := sees_opened opens blank c rfl same
  rw [rule_statement, statement, bind_of_some (ahead c rfl same), text_, List.cons_append]
  refine (congrFun (?_ : _ = nextWord >>= statementOf (rule depth)) c).trans (bind_of_some next)
  split
  · rename_i first
    rw [(List.cons.inj first).1, signs.1] at part
    cases part
  · rename_i first
    rw [(List.cons.inj first).1, signs.2.1] at part
    cases part
  · rename_i first
    rw [(List.cons.inj first).1, signs.2.2] at part
    cases part
  · rfl

/-- A statement that begins with a word is looked for among all but imports and exports. -/
theorem takes_statement_of_word {tree : Nat → Node} (opens : OpensWith word text) (blank : Blank space)
    (inner : word ∉ ["", "import", "export"])
    (takes : Takes (firstOf [worded (rule depth), declared (rule depth), labelled (rule depth),
      expressionStatement (rule depth)]) d (space ++ text) after tree) :
    Takes (rule (depth + 1) .statement) d (space ++ text) after tree := by
  intro c dialect same
  simp only [List.mem_cons, List.not_mem_nil, or_false, not_or] at inner
  rw [statement_of_word opens blank same, statementOf]
  · exact takes c dialect same
  · exact inner.1
  · exact inner.2.1
  · exact inner.2.2

/-- The words that begin a statement of their own although they may name a variable. -/
def statementWords : List String :=
  ["let", "type", "interface", "enum", "namespace", "module", "abstract", "declare"]

/-- A name that begins no statement but an expression. -/
structure IsSubject (name : List Char) : Prop extends IsIdentifier name where
  begins : String.ofList name ∉ statementWords

theorem refuses_worded {name : List Char} (isSubject : IsSubject name)
    (opens : OpensWith (String.ofList name) text) (blank : Blank space) :
    Refuses (worded (rule depth)) d (space ++ text ++ after) := by
  have free := isSubject.free
  refine (sees_opened opens blank).refuses_bind ?_
  split
  case h_13 => exact refuses_failure
  all_goals
    rename_i same
    exact absurd (by rw [same]; decide) free

theorem refuses_typedDeclaration {name : List Char} (isSubject : IsSubject name)
    (opens : OpensWith (String.ofList name) text) (blank : Blank space) :
    Refuses (typedDeclaration (rule depth)) d (space ++ text ++ after) := by
  have free := isSubject.free
  have calm := isSubject.calm
  have begins := isSubject.begins
  refine sees_typed.refuses_bind (refuses_guarded_bind ((sees_opened opens blank).refuses_bind ?_))
  split
  case h_12 => exact refuses_failure
  all_goals
    rename_i same
    first
      | exact absurd (by rw [same]; decide) free
      | exact absurd (by rw [same]; decide) calm
      | exact absurd (by rw [same]; decide) begins

theorem refuses_declared {name : List Char} (isSubject : IsSubject name)
    (opens : OpensWith (String.ofList name) text) (blank : Blank space) :
    Refuses (declared (rule depth)) d (space ++ text ++ after) := by
  have free := isSubject.free
  have calm := isSubject.calm
  have begins := isSubject.begins
  have nonempty := isSubject.nonempty
  refine (sees_opened opens blank).refuses_bind ?_
  split
  case h_8 => exact refuses_typedDeclaration isSubject opens blank
  all_goals
    rename_i same
    first
      | exact absurd (by rw [same]; decide) free
      | exact absurd (by rw [same]; decide) calm
      | exact absurd (by rw [same]; decide) begins
      | exact absurd (String.ofList_eq_empty_iff.mp same) nonempty

/-! ### Calls -/

theorem takes_sequence {ends : Bool} {tree : Nat → Node}
    (takes : Takes (rule depth (.expression ends)) d text after tree)
    (noComma : Refuses (sign ",") d after) : Takes (sequence (rule depth) ends) d text after tree := by
  refine (takes.bind (m := []) (b := fun n _ => tree n) fun n => ?_).congr (List.append_nil _)
    fun _ => rfl
  exact (noComma.seqRight.many.bind (sees_pure (tree n))).follows

theorem refuses_comma_semicolon (after : List Char) : Refuses (sign ",") d (';' :: after) :=
  refuses_sign (s := []) blank_nil (solid_cons after (by decide) (by decide)) rfl

/-- The text of a statement that is a name with suffixes. -/
def chainText (name : List Char) (suffixes : List Suffix) : List Char :=
  name ++ (suffixText suffixes ++ [';'])

theorem chainText_cons (name : List Char) (first : Suffix) (others : List Suffix) :
    chainText name (first :: others) = (name ++ first.text) ++ (suffixText others ++ [';']) := by
  simp [chainText, suffixText]

/-- The node of a statement that is a name with suffixes, given what the suffixes build. -/
def chainNode (name : List Char) (suffixes : List Suffix) (build : Node → Nat → Node) (n : Nat) : Node :=
  .mk .expressionStatement .plain ⟨n, n + (chainText name suffixes).length⟩
    [build (leaf .identifier n name.length) (n + name.length)]

/-- A statement that is a name with suffixes. -/
def chainItem (name : List Char) (suffixes : List Suffix) : Item where
  text := chainText name suffixes
  Fits := fun tree => ∃ build, Built suffixes build ∧ tree = chainNode name suffixes build

theorem opensWith_chain {name : List Char} (isWord : IsWord name) (first : Suffix) (others : List Suffix) :
    OpensWith (String.ofList name) (chainText name (first :: others)) := by
  have ends_ : EndsName (suffixText (first :: others) ++ [';']) := by
    refine endsName_suffixText (first :: others) ?_
    rintro c ⟨⟩
    decide
  refine ⟨suffixText (first :: others) ++ [';'], ?_, ?_, List.append_ne_nil_of_right_ne_nil _ (by decide),
    ends_⟩
  · rw [String.toList_ofList, chainText]
  · rwa [String.toList_ofList]

/-- A name with suffixes has no label. -/
theorem refuses_labelled {name : List Char} (isName : IsName name) (first : Suffix) (others : List Suffix)
    (blank : Blank space) :
    Refuses (labelled (rule depth)) d (space ++ chainText name (first :: others) ++ after) := by
  rw [List.append_assoc]
  refine Refuses.construct ?_ .otherStatement blank
    ((opensWith_chain isName.toIsWord first others).solid after)
  obtain ⟨c, more, text, sign⟩ := first.exists_first
  have signs : ∀ e ∈ ['.', '('], isSpace e = false ∧ e ≠ '/' ∧ ':' ≠ e := by decide
  have follow : EndsName (suffixText (first :: others) ++ ([';'] ++ after)) :=
    endsName_suffixText (first :: others) (endsName_closer (by decide) after)
  rw [chainText, List.append_assoc, List.append_assoc]
  refine (takes_name (s := []) .identifier blank_nil isName follow).discard.refuses_bind
    fun _ => Refuses.bind ?_
  rw [suffixText, List.flatMap_cons, text]
  exact refuses_signBut (s := []) blank_nil (solid_cons _ (signs c sign).1 (signs c sign).2.1)
    (startsWith_cons_of_ne _ _ (signs c sign).2.2)

theorem takes_expressionStatement {name : List Char} (isSubject : IsSubject name)
    (opens : OpensWith (String.ofList name) (text ++ [';'])) (blank : Blank space) {tree : Nat → Node}
    (takes : Takes (rule depth (.sequence true)) d text (';' :: after) tree) :
    Takes (expressionStatement (rule depth)) d (space ++ (text ++ [';'])) after fun n =>
      .mk .expressionStatement .plain ⟨n + space.length, n + space.length + (text ++ [';']).length⟩
        [tree (n + space.length)] := by
  have semicolon_ : Takes (semicolon true) d [';'] after fun _ => () :=
    takes_semicolon (statementEnds_suffix (by decide) _ _ _)
  have undeclaring : declaringWords.contains (String.ofList name) = false := by
    have begins := isSubject.begins
    simp only [statementWords, List.mem_cons, List.not_mem_nil, or_false, not_or] at begins
    simpa [declaringWords] using ⟨begins.2.2.1, begins.2.2.2.2.2.2.1, begins.2.2.2.1⟩
  have next : Sees nextWord d ([] ++ (text ++ [';']) ++ after) (String.ofList name) :=
    sees_opened opens blank_nil
  have parts : Takes (do
      let value ← rule depth (.sequence true)
      semicolon true
      return [value]) d (text ++ [';']) after fun n => [tree n] :=
    takes.bind (b := fun n _ => [tree n]) fun n => (semicolon_.map fun _ => [tree n]).follows
  have guardedParts : Takes (do
      guarded !((← typed) && declaringWords.contains (← nextWord))
      let value ← rule depth (.sequence true)
      semicolon true
      return [value]) d (text ++ [';']) after fun n => [tree n] := by
    refine sees_typed.takes_bind (next.takes_bind (Sees.takes_bind (sees_guarded ?_) parts))
    rw [undeclaring, Bool.and_false]
    rfl
  exact guardedParts.construct .expressionStatement blank (opens.solid after)

theorem isStatement_chain {name : List Char} (isSubject : IsSubject name) {first : Suffix}
    {others : List Suffix} (readable : ∀ suffix ∈ first :: others, suffix.IsReadable (rule depth) d) :
    IsStatement (depth + 3) d (chainItem name (first :: others)) := by
  have isIdentifier := isSubject.toIsIdentifier
  have opens := opensWith_chain isIdentifier.toIsWord first others
  have unreserved : ∀ word ∈ reservedWords, String.ofList name ≠ word := by
    rintro word member rfl
    exact isIdentifier.free member
  refine ⟨⟨_, opens, unreserved "else" (by decide)⟩, fun space after blank _ => ?_⟩
  obtain ⟨build, built, takes⟩ := takes_chained true isIdentifier readable blank_nil
    (stops_of_closer (c := ';') (by decide) after)
  have inner : Takes (rule (depth + 2) (.sequence true)) d (name ++ suffixText (first :: others))
      (';' :: after) fun n => build (leaf .identifier n name.length) (n + name.length) :=
    takes_sequence takes (refuses_comma_semicolon after)
  have expression_ : Takes (expressionStatement (rule (depth + 2))) d
      (space ++ chainText name (first :: others)) after fun n =>
        chainNode name (first :: others) build (n + space.length) := by
    rw [chainText, ← List.append_assoc] at opens
    refine (takes_expressionStatement isSubject opens blank inner).congr ?_ fun n => ?_
    · rw [chainText, List.append_assoc]
    · rw [chainNode, chainText, List.append_assoc]
  refine ⟨_, ⟨build, built, rfl⟩, takes_statement_of_word opens blank ?_ ?_⟩
  · intro member
    simp only [List.mem_cons, List.not_mem_nil, or_false] at member
    rcases member with same | same | same
    · exact isIdentifier.nonempty (String.ofList_eq_empty_iff.mp same)
    · exact unreserved "import" (by decide) same
    · exact unreserved "export" (by decide) same
  · exact (refuses_worded isSubject opens blank).takes_firstOf
      ((refuses_declared isSubject opens blank).takes_firstOf
        ((refuses_labelled isIdentifier.toIsName first others blank).takes_firstOf
          (expression_.firstOf [])))

/-! ### Variables -/

/-- A name as a pattern, unless a property of it is meant. -/
theorem takes_pattern {name : List Char} (isName : IsName name) (blank : Blank space)
    (ends_ : EndsName after) (noPoint : Refuses (signBut "." ".") d after)
    (noBracket : Refuses (sign "[") d after) :
    Takes (rule (depth + 1) .pattern) d (space ++ name) after fun n =>
      leaf .identifier (n + space.length) name.length := by
  obtain ⟨object_, list_⟩ := refuses_bracketPatterns (g := rule depth) (d := d) isName.toIsWord blank after
  have place_ : Refuses (place (rule depth)) d (space ++ name ++ after) :=
    refuses_place ((takes_anyName .identifier blank isName.toIsWord ends_).refuses_bind fun _ => noPoint.orElse noBracket)
  exact object_.takes_firstOf (list_.takes_firstOf (place_.takes_firstOf
    ((takes_name .identifier blank isName ends_).firstOf [])))

/-- The text of a variable with its value. -/
def constText (name value : List Char) : List Char :=
  "const".toList ++ ([' '] ++ name ++ ([' ', '='] ++ ([' '] ++ value)) ++ [';'])

/-- The node of a variable with its value. -/
def constNode (name value : List Char) (tree : Nat → Node) (n : Nat) : Node :=
  .mk .lexicalDeclaration .plain ⟨n, n + (constText name value).length⟩
    [.mk .declarator .plain ⟨n + 6, n + 6 + (name ++ ([' ', '='] ++ ([' '] ++ value))).length⟩
      [(leaf .identifier (n + 6) name.length).as .name, (tree (n + 6 + name.length + 3)).as .value]]

/-- A variable with a value. -/
def constItem (name : List Char) (value : Item) : Item where
  text := constText name value.text
  Fits := fun tree => ∃ inner, value.Fits inner ∧ tree = constNode name value.text inner

theorem takes_initializer {ends : Bool} {tree : Nat → Node} (solid : Solid ('=' :: ' ' :: (text ++ after)))
    (takes : Takes (rule depth (.expression ends)) d ([' '] ++ text) after fun n => tree (n + 1)) :
    Takes (initializer (rule depth) ends) d ([' ', '='] ++ ([' '] ++ text)) after fun n =>
      tree (n + 3) := by
  have equals : Takes (signBut "=" "=>") d ([' '] ++ ['=']) ([' '] ++ text ++ after) fun _ => () :=
    takes_signBut "=" "=>" blank_space solid rfl
  exact equals.bind (b := fun _ m => tree (m + 1)) fun _ => takes.follows

theorem takes_declarator {name : List Char} (isName : IsName name) {tree : Nat → Node} (blank : Blank space)
    (takes : Takes (rule (depth + 1) (.expression true)) d ([' '] ++ text) after fun n => tree (n + 1)) :
    Takes (declarator (rule (depth + 1)) true) d (space ++ (name ++ ([' ', '='] ++ ([' '] ++ text)))) after
      fun n => .mk .declarator .plain ⟨n + space.length,
          n + space.length + (name ++ ([' ', '='] ++ ([' '] ++ text))).length⟩
        [(leaf .identifier (n + space.length) name.length).as .name,
          (tree (n + space.length + name.length + 3)).as .value] := by
  have solid : Solid ('=' :: ' ' :: (text ++ after)) := solid_cons _ (by decide) (by decide)
  have other (mark : String) (differs : Text.startsWith mark.toList ('=' :: ' ' :: (text ++ after)) = false) :
      Refuses (sign mark) d ([' ', '='] ++ ([' '] ++ text) ++ after) :=
    refuses_sign (s := [' ']) blank_space solid differs
  have ends_ : EndsName ([' ', '='] ++ ([' '] ++ text) ++ after) := by
    rintro c ⟨⟩
    decide
  have target : Takes (rule (depth + 1) .pattern) d ([] ++ name) ([' ', '='] ++ ([' '] ++ text) ++ after)
      fun n => leaf .identifier n name.length :=
    takes_pattern isName blank_nil ends_ (other "." rfl).bind (other "[" rfl)
  have valued (name : Node) : Takes (do
      let value ← maybe (initializer (rule (depth + 1)) true)
      return name.as .name :: value.map (·.as .value)) d ([' ', '='] ++ ([' '] ++ text)) after
      fun n => [name.as .name, (tree (n + 3)).as .value] :=
    (takes_initializer solid takes).maybe.map fun value => name.as .name :: value.map (·.as .value)
  have noType : Refuses (Typing.ascription (rule (depth + 1))) d
      ([' ', '='] ++ ([' '] ++ text) ++ after) := (other ":" rfl).bind
  have rest_ (length n : Nat) : Follows (do
      guarded ((leaf .identifier n length).kind == .identifier ||
        (leaf .identifier n length).kind == .otherPattern)
      if ← typed then
        discard (opt (sign "!"))
        discard (opt (Typing.ascription (rule (depth + 1))))
      let value ← maybe (initializer (rule (depth + 1)) true)
      return (leaf .identifier n length).as .name :: value.map (·.as .value)) d
      ([' ', '='] ++ ([' '] ++ text)) after
      fun m => [(leaf .identifier n length).as .name, (tree (m + 3)).as .value] := by
    refine Sees.follows_bind (sees_guarded rfl) (sees_typed.follows_bind ?_)
    dsimp only
    split
    · refine (other "!" rfl).opt.discard.follows_bind (noType.opt.discard.follows_bind ?_)
      exact (valued _).follows
    · exact (valued _).follows
  have parts : Takes (do
      let target ← rule (depth + 1) .pattern
      guarded (target.kind == .identifier || target.kind == .otherPattern)
      if ← typed then
        discard (opt (sign "!"))
        discard (opt (Typing.ascription (rule (depth + 1))))
      let value ← maybe (initializer (rule (depth + 1)) true)
      return target.as .name :: value.map (·.as .value)) d
      (name ++ ([' ', '='] ++ ([' '] ++ text))) after
      fun n => [(leaf .identifier n name.length).as .name, (tree (n + name.length + 3)).as .value] :=
    target.bind (b := fun n m => [(leaf .identifier n name.length).as .name, (tree (m + 3)).as .value])
      (rest_ name.length)
  refine parts.construct .declarator blank ?_
  rw [List.append_assoc]
  exact isName.solid _

theorem opensWith_const (name value : List Char) : OpensWith "const" (constText name value) := by
  refine ⟨[' '] ++ name ++ ([' ', '='] ++ ([' '] ++ value)) ++ [';'], rfl, isWord_of_check rfl,
    List.append_ne_nil_of_right_ne_nil _ (by decide), ?_⟩
  rintro c ⟨⟩
  decide

/-- A variable is no enumeration. -/
theorem refuses_constEnumeration {name : List Char} (isSubject : IsSubject name) (value : List Char)
    (blank : Blank space) :
    Refuses (typedDeclaration (rule depth)) d (space ++ constText name value ++ after) := by
  have opens := opensWith_const name value
  have text : constText name value ++ after =
      "const".toList ++ ([' '] ++ (name ++ ([' ', '='] ++ ([' '] ++ value) ++ [';'] ++ after))) := by
    simp only [constText, List.append_assoc]
  have ends_ : EndsName ([' ', '='] ++ ([' '] ++ value) ++ [';'] ++ after) := by
    rintro c ⟨⟩
    decide
  have isWord := isSubject.toIsWord
  have noEnum : Refuses (Reader.word "enum") d
      (name ++ ([' ', '='] ++ ([' '] ++ value) ++ [';'] ++ after)) := by
    refine refuses_otherWord (s := []) blank_nil isWord ends_ fun same => ?_
    exact isSubject.begins (by rw [same]; decide)
  refine sees_typed.refuses_bind (refuses_guarded_bind ((sees_opened opens blank).refuses_bind ?_))
  rw [List.append_assoc]
  refine Refuses.construct ?_ .otherStatement blank (opens.solid after)
  rw [text]
  refine (takes_word (s := []) "const" blank_nil (isWord_of_check rfl) ?_).refuses_bind fun _ => ?_
  · rintro c ⟨⟩
    decide
  · exact Refuses.bind (Refuses.construct noEnum.bind _ blank_space (isWord.solid _))

theorem isStatement_const {name : List Char} (isSubject : IsSubject name) {value : Item}
    (readable : Readable (rule (depth + 1) (.expression true)) d value) :
    IsStatement (depth + 2) d (constItem name value) := by
  have opens := opensWith_const name value.text
  refine ⟨⟨_, opens, by decide⟩, fun space after blank _ => ?_⟩
  obtain ⟨inner, fits, takes⟩ := readable [' '] (';' :: after) blank_space
    (stops_of_closer (by decide) after)
  refine ⟨_, ⟨inner, fits, rfl⟩, takes_statement_of_word opens blank (by decide) ?_⟩
  have keyword : Takes (firstOf [Reader.word "var", Reader.word "let", Reader.word "const"]) d
      ([] ++ "const".toList) ([' '] ++ name ++ ([' ', '='] ++ ([' '] ++ value.text)) ++ [';'] ++ after)
      fun _ => () := by
    have isWord : IsWord "const".toList := isWord_of_check rfl
    have ends_ : EndsName ([' '] ++ name ++ ([' ', '='] ++ ([' '] ++ value.text)) ++ [';'] ++ after) := by
      rintro c ⟨⟩
      decide
    refine (refuses_otherWord blank_nil isWord ends_ (by decide)).takes_firstOf ?_
    refine (refuses_otherWord blank_nil isWord ends_ (by decide)).takes_firstOf ?_
    exact (takes_word "const" blank_nil isWord ends_).firstOf []
  have semicolon_ (valued : Bool) : Takes (semicolon valued) d [';'] after fun _ => () :=
    takes_semicolon (statementEnds_suffix (by decide) _ _ _)
  let node (n : Nat) : Node := .mk .declarator .plain
    ⟨n, n + (name ++ ([' ', '='] ++ ([' '] ++ value.text))).length⟩
    [(leaf .identifier n name.length).as .name, (inner (n + name.length + 3)).as .value]
  have item : Takes (do return [← declarator (rule (depth + 1)) true]) d
      ([' '] ++ name ++ ([' ', '='] ++ ([' '] ++ value.text))) (';' :: after) fun n => [node (n + 1)] := by
    rw [List.append_assoc]
    exact (takes_declarator isSubject.toIsName blank_space takes).map fun node => [node]
  have list_ : Takes (do
      let items ← commaList1 do return [← declarator (rule (depth + 1)) true]
      semicolon (items.getLast?.any fun item => (item.child? .value).isSome)
      return items) d ([' '] ++ name ++ ([' ', '='] ++ ([' '] ++ value.text)) ++ [';']) after
      fun n => [node (n + 1)] := by
    refine (item.commaList1 (refuses_comma_semicolon after)).bind (b := fun n _ => [node (n + 1)])
      fun n => ?_
    exact ((semicolon_ _).map fun _ => [node (n + 1)]).follows
  have parts : Takes (do
      firstOf [Reader.word "var", Reader.word "let", Reader.word "const"]
      let items ← commaList1 do return [← declarator (rule (depth + 1)) true]
      semicolon (items.getLast?.any fun item => (item.child? .value).isSome)
      return items) d (constText name value.text) after fun n => [node (n + 6)] :=
    keyword.bind (b := fun _ m => [node (m + 1)]) fun _ => list_.follows
  have variable_ : Takes (variableList (rule (depth + 1))) d (space ++ constText name value.text) after
      fun n => constNode name value.text inner (n + space.length) := by
    refine (sees_opened opens blank).takes_bind ?_
    exact parts.construct .lexicalDeclaration blank (opens.solid after)
  have words : Refuses (worded (rule (depth + 1))) d (space ++ constText name value.text ++ after) :=
    (sees_opened opens blank).refuses_bind refuses_failure
  refine words.takes_firstOf (Takes.firstOf ?_ _)
  refine (sees_opened opens blank).takes_bind ?_
  exact (refuses_constEnumeration isSubject value.text blank).takes_firstOf (variable_.firstOf [])

/-! ### Conditions -/

/-- The text of statements under the condition that a variable holds something. -/
def ifText (name pad close : List Char) (items : List Item) : List Char :=
  "if".toList ++ ([' '] ++ ('(' :: (name ++ [')'])) ++ ([' '] ++ blockText pad close items))

/-- The node of statements under such a condition. -/
def ifNode (name : List Char) (length : Nat) (nodes : Nat → List Node) (n : Nat) : Node :=
  .mk .otherStatement .plain ⟨n, n + (6 + name.length + length)⟩
    [.mk .parenthesized .plain ⟨n + 3, n + (5 + name.length)⟩ [leaf .identifier (n + 4) name.length],
      blockNode (n + (6 + name.length)) length nodes]

/-- Statements under the condition that a variable holds something. -/
def ifItem (name pad close : List Char) (items : List Item) : Item where
  text := ifText name pad close items
  Fits := fun tree => ∃ nodes, LaysLines pad items nodes ∧
    tree = ifNode name (blockText pad close items).length nodes

theorem takes_condition {name : List Char} (isIdentifier : IsIdentifier name) (blank : Blank space)
    (after : List Char) :
    Takes (condition (rule (depth + 2))) d (space ++ '(' :: (name ++ [')'])) after fun n =>
      .mk .parenthesized .plain ⟨n + space.length, n + space.length + (name.length + 2)⟩
        [leaf .identifier (n + space.length + 1) name.length] := by
  have stops : Stops ([')'] ++ after) := stops_of_closer (c := ')') (by decide) after
  have solid : ∀ rest, Solid ('(' :: rest) := fun rest => solid_cons rest (by decide) (by decide)
  have solidClose : Solid ([')'] ++ after) := solid_cons after (by decide) (by decide)
  obtain ⟨_, rfl, takesName⟩ := readable_name (d := d) isIdentifier depth false [] _ blank_nil stops
  have inside : Takes (rule (depth + 2) (.sequence false)) d name ([')'] ++ after) fun n =>
      leaf .identifier n name.length :=
    takes_sequence takesName (refuses_sign (s := []) blank_nil solidClose rfl)
  have open_ : Takes (sign "(") d ([] ++ ['(']) (name ++ [')'] ++ after) fun _ => () :=
    takes_sign "(" blank_nil (solid _)
  have close_ : Takes (sign ")") d ([] ++ [')']) after fun _ => () := takes_sign ")" blank_nil solidClose
  have noType : Refuses (Typing.ascription (rule (depth + 2))) d ([')'] ++ after) :=
    Refuses.bind (refuses_sign (s := []) blank_nil solidClose rfl)
  have rest_ (node : Node) : Takes (do
      if ← typed then discard (opt (Typing.ascription (rule (depth + 2))))
      sign ")"
      return [node]) d [')'] after fun _ => [node] := by
    refine sees_typed.takes_bind ?_
    dsimp only
    split
    · exact noType.opt.discard.takes_bind (close_.map fun _ => [node])
    · exact close_.map fun _ => [node]
  have parts : Takes (do
      sign "("
      let inside ← rule (depth + 2) (.sequence false)
      if ← typed then discard (opt (Typing.ascription (rule (depth + 2))))
      sign ")"
      return [inside]) d (['('] ++ (name ++ [')'])) after fun n => [leaf .identifier (n + 1) name.length] :=
    open_.bind (b := fun _ m => [leaf .identifier m name.length]) fun _ =>
      (inside.bind (b := fun n _ => [leaf .identifier n name.length]) fun n => (rest_ _).follows).follows
  refine (parts.construct .parenthesized blank (solid _)).congr rfl fun n => ?_
  simp only [List.length_append, List.length_cons, List.length_nil]
  rw [show 0 + 1 + (name.length + (0 + 1)) = name.length + 2 by omega]

theorem takes_blockStatement {pad close : List Char} (blankPad : Blank pad) (blankClose : Blank close)
    {items : List Item} (statements : ∀ item ∈ items, IsStatement depth d item) (blank : Blank space)
    (after : List Char) :
    ∃ nodes, LaysLines pad items nodes ∧
      Takes (rule (depth + 1) .statement) d (space ++ blockText pad close items) after fun n =>
        blockNode (n + space.length) (blockText pad close items).length nodes := by
  obtain ⟨nodes, laid, takes⟩ := takes_block blankPad blankClose statements blank after
  have ahead := sees_upcoming (d := d) blank
    (solid_cons (c := '\x7b') (lineText pad items ++ (close ++ ['\x7d']) ++ after) (by decide) (by decide))
  rw [← List.cons_append, ← List.append_assoc] at ahead
  exact ⟨nodes, laid, ahead.takes_bind (takes.firstOf _)⟩

theorem isStatement_if {name : List Char} (isIdentifier : IsIdentifier name) {pad close : List Char}
    (blankPad : Blank pad) (blankClose : Blank close) {items : List Item}
    (statements : ∀ item ∈ items, IsStatement (depth + 1) d item) :
    IsStatement (depth + 3) d (ifItem name pad close items) := by
  have opens : OpensWith "if" (ifText name pad close items) := by
    refine ⟨[' '] ++ ('(' :: (name ++ [')'])) ++ ([' '] ++ blockText pad close items), rfl,
      isWord_of_check rfl, by simp, ?_⟩
    rintro c ⟨⟩
    decide
  refine ⟨⟨_, opens, by decide⟩, fun space after blank ended => ?_⟩
  obtain ⟨nodes, laid, takesBlock⟩ := takes_blockStatement blankPad blankClose statements blank_space after
  let block := blockText pad close items
  have test : Takes (condition (rule (depth + 2))) d ([' '] ++ '(' :: (name ++ [')']))
      ([' '] ++ block ++ after) fun n => .mk .parenthesized .plain ⟨n + 1, n + 1 + (name.length + 2)⟩
        [leaf .identifier (n + 1 + 1) name.length] := takes_condition isIdentifier blank_space _
  have keyword : Takes (Reader.word "if") d ([] ++ "if".toList)
      ([' '] ++ '(' :: (name ++ [')']) ++ ([' '] ++ block) ++ after) fun _ => () := by
    refine takes_word "if" blank_nil (isWord_of_check rfl) ?_
    rintro c ⟨⟩
    decide
  have noElse : Refuses (Reader.word "else" *> rule (depth + 2) .statement) d after := by
    obtain ⟨gap, rest, blankGap, solid, other, -, rfl⟩ := ended
    exact (refuses_word blankGap solid other).seqRight
  have branch (first : Node) : Takes (do
      let branch ← rule (depth + 2) .statement
      let other ← maybe (Reader.word "else" *> rule (depth + 2) .statement)
      return first :: branch :: other) d ([' '] ++ block) after
      fun n => [first, blockNode (n + 1) block.length nodes] := by
    refine (takesBlock.bind (m := []) (b := fun n _ => [first, blockNode (n + 1) block.length nodes])
      fun n => ?_).congr (List.append_nil _) fun _ => rfl
    refine Sees.follows (noElse.maybe.bind ?_)
    exact sees_pure [first, blockNode (n + 1) block.length nodes]
  have tail : Takes (do
      let test ← condition (rule (depth + 2))
      let branch ← rule (depth + 2) .statement
      let other ← maybe (Reader.word "else" *> rule (depth + 2) .statement)
      return test :: branch :: other) d ([' '] ++ '(' :: (name ++ [')']) ++ ([' '] ++ block)) after
      fun n => [.mk .parenthesized .plain ⟨n + 1, n + 1 + (name.length + 2)⟩
        [leaf .identifier (n + 2) name.length],
        blockNode (n + ([' '] ++ '(' :: (name ++ [')'])).length + 1) block.length nodes] :=
    test.bind (b := fun n m => [.mk .parenthesized .plain ⟨n + 1, n + 1 + (name.length + 2)⟩
      [leaf .identifier (n + 2) name.length], blockNode (m + 1) block.length nodes]) fun _ =>
        (branch _).follows
  have parts : Takes (do
      Reader.word "if"
      let test ← condition (rule (depth + 2))
      let branch ← rule (depth + 2) .statement
      let other ← maybe (Reader.word "else" *> rule (depth + 2) .statement)
      return test :: branch :: other) d (ifText name pad close items) after
      fun n => [.mk .parenthesized .plain ⟨n + 3, n + 3 + (name.length + 2)⟩
          [leaf .identifier (n + 4) name.length],
        blockNode (n + 2 + ([' '] ++ '(' :: (name ++ [')'])).length + 1) block.length nodes] :=
    keyword.bind (b := fun _ m => [.mk .parenthesized .plain ⟨m + 1, m + 1 + (name.length + 2)⟩
        [leaf .identifier (m + 2) name.length],
      blockNode (m + ([' '] ++ '(' :: (name ++ [')'])).length + 1) block.length nodes])
      fun _ => tail.follows
  have length : (ifText name pad close items).length = 6 + name.length + block.length := by
    simp only [ifText, List.length_append, List.length_cons, List.length_nil, block]
    rw [show "if".toList.length = 2 from rfl]
    omega
  have worded_ : Takes (worded (rule (depth + 2))) d (space ++ ifText name pad close items) after
      fun n => ifNode name block.length nodes (n + space.length) := by
    refine (sees_opened opens blank).takes_bind ?_
    refine (parts.construct .otherStatement blank (opens.solid after)).congr rfl fun n => ?_
    have condition_ : n + space.length + 3 + (name.length + 2) = n + space.length + (5 + name.length) := by
      omega
    have branch_ : n + space.length + 2 + ([' '] ++ '(' :: (name ++ [')'])).length + 1 =
        n + space.length + (6 + name.length) := by
      simp only [List.length_append, List.length_cons, List.length_nil]
      omega
    rw [length, ifNode, condition_, branch_]
  exact ⟨_, ⟨nodes, laid, rfl⟩, takes_statement_of_word opens blank (by decide) (worded_.firstOf _)⟩

end Script

end AnimationCode
