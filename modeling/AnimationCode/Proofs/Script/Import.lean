/-
**Imports.**

An import takes names from a module; in the typed form of the language it may take types only.

* `yields_importSpecifier`, `yields_namedImports`: the names between braces;
* `isRead_import`: the whole statement;
* `Declare.imports_eq`: what a script that is parts imports.
-/

import AnimationCode.Component.Declarations
import AnimationCode.Proofs.Outcome
import AnimationCode.Proofs.Script.Program
import AnimationCode.Proofs.Text.Split

namespace AnimationCode

namespace Script

open Reader Binding Statement

variable {depth : Nat} {d : Dialect} {space text after : List Char}

/-! ### Names -/

/-- A name that may be imported without being renamed. -/
structure IsImportable (name : List Char) : Prop extends IsName name where
  calm : String.ofList name ∉ ["type", "typeof"]
  solid : ∀ c ∈ name, Text.isBlank c = false

theorem IsImportable.squeeze_eq {name : List Char} (isImportable : IsImportable name) : Text.squeeze name = name := by
  rw [Text.squeeze, Text.IsWord.words ⟨isImportable.nonempty, isImportable.solid⟩, List.intercalate_singleton]

theorem stringLength?_word {name : List Char} (isWord : IsWord name) (after : List Char) :
    stringLength? (name ++ after) = none := by
  obtain ⟨all, -, nonempty⟩ := isWord
  cases name with
  | nil => exact absurd rfl nonempty
  | cons c rest =>
    have part := all c List.mem_cons_self
    refine if_neg ?_
    rintro (rfl | rfl) <;> revert part <;> decide

/-- The nodes of the names of an import, with these names as their texts. -/
def AreSpecifiers (names : List (List Char)) (text : List Char) (n : Nat) (nodes : List Node) : Prop :=
  (∀ node ∈ nodes, node.kind = .importSpecifier ∧ node.IsInert) ∧
    ∀ source, Holds source n text → nodes.map (·.text source) = names

theorem AreSpecifiers.append {names more : List (List Char)} {other : List Char} {n : Nat} {nodes others : List Node}
    (specifiers : AreSpecifiers names text n nodes) (behind : AreSpecifiers more other (n + text.length) others) :
    AreSpecifiers (names ++ more) (text ++ other) n (nodes ++ others) := by
  refine ⟨List.forall_mem_append.mpr ⟨specifiers.1, behind.1⟩, fun source holds => ?_⟩
  rw [List.map_append, specifiers.2 source holds.left, behind.2 source holds.right]

/-- Nodes of names behind something else. -/
theorem AreSpecifiers.behind {names : List (List Char)} {n : Nat} {nodes : List Node} (before : List Char)
    (specifiers : AreSpecifiers names text (n + before.length) nodes) : AreSpecifiers names (before ++ text) n nodes :=
  ⟨specifiers.1, fun source holds => specifiers.2 source holds.right⟩

theorem yields_importSpecifier {name : List Char} (isImportable : IsImportable name) (blank : Blank space)
    (ends_ : EndsName after) (noAlias : Refuses (word "as") d after) :
    Yields importSpecifier d (space ++ name) after fun n node => AreSpecifiers [name] (space ++ name) n [node] := by
  have isName := isImportable.toIsName
  have isWord := isName.toIsWord
  have solid := isWord.solid after
  have name_ : Takes (Reader.name .identifier) d ([] ++ name) after fun n => leaf .identifier n name.length :=
    takes_name .identifier blank_nil isName ends_
  have outer : Takes (outerName .identifier) d ([] ++ name) after fun n => leaf .identifier n name.length :=
    Refuses.takes_firstOf (refuses_lexeme (s := []) blank_nil solid (stringLength?_word isWord after))
      (name_.firstOf _)
  have renamed : Refuses (do
      let outer ← outerName .identifier
      word "as"
      let inner ← Reader.name .identifier
      return [outer.as .name, inner.as .alias_]) d (name ++ after) :=
    outer.refuses_bind fun _ => noAlias.bind
  have plain : Takes (firstOf [
      do
        let outer ← outerName .identifier
        word "as"
        let inner ← Reader.name .identifier
        return [outer.as .name, inner.as .alias_],
      do return [(← Reader.name .identifier).as .name]]) d name after fun n =>
        [(leaf .identifier n name.length).as .name] :=
    renamed.takes_firstOf ((name_.map fun node => [node.as .name]).firstOf [])
  have noWord (word_ : String) (among : word_ ∈ ["type", "typeof"]) :
      Refuses (word word_) d (name ++ after) :=
    refuses_otherWord (s := []) blank_nil isWord ends_ fun same => isImportable.calm (same ▸ among)
  have inside : Takes (do
      let plain : Reader (List Node) :=
        firstOf [
          do
            let outer ← outerName .identifier
            word "as"
            let inner ← Reader.name .identifier
            return [outer.as .name, inner.as .alias_],
          do return [(← Reader.name .identifier).as .name]]
      if ← typed then
        firstOf [
          do
            firstOf [word "type", word "typeof"]
            let names ← plain
            guarded ((← nextSign ",") || (← nextSign "\x7d"))
            return names,
          plain]
      else plain) d name after fun n => [(leaf .identifier n name.length).as .name] := by
    refine sees_typed.takes_bind ?_
    split
    · refine Refuses.takes_firstOf (Refuses.bind ?_) (plain.firstOf [])
      exact (noWord "type" (by decide)).firstOf (noWord "typeof" (by decide)).last
    · exact plain
  refine (inside.construct .importSpecifier blank solid).yields
    (List.append_ne_nil_of_right_ne_nil _ isWord.nonempty) fun n => ⟨List.forall_mem_singleton.mpr ⟨rfl, ?_⟩,
      fun source holds => congrArg (fun text => [text]) (holds.right.text_eq _ rfl)⟩
  refine Node.isInert_mk (by decide) fun child member => ?_
  rw [List.mem_singleton.mp member]
  exact (Node.isInert_leaf _ _ (by decide)).as .name

/-- The text of names with commas between them, each behind a blank. -/
def namesText : List (List Char) → List Char
  | [] => []
  | name :: rest => [' '] ++ name ++ rest.flatMap fun other => [','] ++ ([' '] ++ other)

theorem startsOther_comma (rest : List (List Char)) (after : List Char) :
    ∃ c more, (rest.flatMap fun other => [','] ++ ([' '] ++ other)) ++ ([' '] ++ '\x7d' :: after) = c :: more ∧
      (c = ',' ∨ c = ' ' ∧ more = '\x7d' :: after) := by
  cases rest with
  | nil => exact ⟨' ', _, rfl, Or.inr ⟨rfl, rfl⟩⟩
  | cons name others => exact ⟨',', _, rfl, Or.inl rfl⟩

/-- What stands behind a name among others. -/
theorem afterName (rest : List (List Char)) (after : List Char) :
    EndsName ((rest.flatMap fun other => [','] ++ ([' '] ++ other)) ++ ([' '] ++ '\x7d' :: after)) ∧
      Refuses (word "as") d
        ((rest.flatMap fun other => [','] ++ ([' '] ++ other)) ++ ([' '] ++ '\x7d' :: after)) := by
  obtain ⟨c, more, same, rfl | ⟨rfl, rfl⟩⟩ := startsOther_comma rest after
  · rw [same]
    have ends_ : EndsName (',' :: more) := endsName_of_head? rfl (by decide)
    refine ⟨ends_, refuses_word (s := []) blank_nil (solid_cons _ (by decide) (by decide)) ?_⟩
    rw [wordOf_of_ends ends_]
    decide
  · rw [same]
    have ends_ : EndsName ('\x7d' :: after) := endsName_of_head? rfl (by decide)
    refine ⟨endsName_of_head? rfl (by decide), ?_⟩
    refine refuses_word (s := [' ']) blank_space (solid_cons _ (by decide) (by decide)) ?_
    rw [wordOf_of_ends ends_]
    decide

/-- The names after the first. -/
theorem iterates_names {rest : List (List Char)} (importable : ∀ name ∈ rest, IsImportable name)
    (after : List Char) :
    Iterates (do sign ","; return [← importSpecifier]) d (rest.flatMap fun other => [','] ++ ([' '] ++ other))
      ([' '] ++ '\x7d' :: after) fun n found =>
        AreSpecifiers rest (rest.flatMap fun other => [','] ++ ([' '] ++ other)) n found.flatten := by
  have solid (more : List Char) : Solid (',' :: more) := solid_cons more (by decide) (by decide)
  induction rest with
  | nil =>
    refine Refuses.iterates (Refuses.bind ?_) fun _ => ⟨List.forall_mem_nil _, fun _ _ => rfl⟩
    exact refuses_sign blank_space (solid_cons _ (by decide) (by decide)) rfl
  | cons name others ih =>
    have behind := afterName (d := d) others after
    have specifier := yields_importSpecifier (importable name List.mem_cons_self) blank_space behind.1
      behind.2
    have comma : Yields (sign ",") d ([] ++ [',']) ([' '] ++ name ++
        ((others.flatMap fun other => [','] ++ ([' '] ++ other)) ++ ([' '] ++ '\x7d' :: after))) Anything :=
      yields_sign "," blank_nil (solid _) (by simp)
    have first : Yields (do sign ","; return [← importSpecifier]) d ([] ++ [','] ++ ([' '] ++ name))
        ((others.flatMap fun other => [','] ++ ([' '] ++ other)) ++ ([' '] ++ '\x7d' :: after))
        (AreSpecifiers [name] ([','] ++ ([' '] ++ name))) :=
      comma.then (specifier.map (fun node => [node]) (Q := AreSpecifiers [name] ([' '] ++ name)) fun _ _ fits => fits)
        fun _ _ fits => fits.behind [',']
    intro c steps dialect same enough
    obtain ⟨found, takes, node, more, rfl, here, later⟩ := first.iterates (by simp)
      (ih fun name member => importable name (List.mem_cons_of_mem _ member)) c steps dialect same enough
    exact ⟨_, takes, here.append later⟩

/-- The text of names between braces. -/
def bracedNames (names : List (List Char)) : List Char := ['\x7b'] ++ (namesText names ++ ([' '] ++ ['\x7d']))

theorem yields_namedImports {names : List (List Char)} (some_ : names ≠ [])
    (importable : ∀ name ∈ names, IsImportable name) (blank : Blank space) (after : List Char) :
    Yields namedImports d (space ++ bracedNames names) after fun n => Covers .namedImports (bracedNames names)
      (fun n => AreSpecifiers names (namesText names) (n + 1)) (n + space.length) := by
  obtain ⟨name, rest, rfl⟩ := List.exists_cons_of_ne_nil some_
  have solid (more : List Char) : Solid ('\x7b' :: more) := solid_cons more (by decide) (by decide)
  have solidClose : Solid ('\x7d' :: after) := solid_cons after (by decide) (by decide)
  have behind := afterName (d := d) rest after
  have specifier := yields_importSpecifier (importable name List.mem_cons_self) blank_space behind.1 behind.2
  have others := iterates_names (d := d) (fun other member => importable other (List.mem_cons_of_mem _ member))
    after
  have items : Yields (commaList1 do return [← importSpecifier]) d (namesText (name :: rest))
      ([' '] ++ ['\x7d'] ++ after) (AreSpecifiers (name :: rest) (namesText (name :: rest))) := by
    refine (specifier.map (fun node => [node]) (Q := AreSpecifiers [name] ([' '] ++ name)) fun _ _ fits => fits).bind
      fun _ first fits => ?_
    have joined : Yields (manyNodes do sign ","; return [← importSpecifier]) d
        (rest.flatMap fun other => [','] ++ ([' '] ++ other)) ([' '] ++ ['\x7d'] ++ after)
        (AreSpecifiers rest (rest.flatMap fun other => [','] ++ ([' '] ++ other))) :=
      others.many.map List.flatten fun _ _ fits => fits
    exact joined.map (fun more => first ++ more) fun _ more later same => fits.append (same ▸ later)
  have noComma : Refuses (sign ",") d ([' '] ++ ('\x7d' :: after)) :=
    refuses_sign blank_space solidClose rfl
  have listed : Yields (commaListOpen do return [← importSpecifier]) d (namesText (name :: rest))
      ([' '] ++ ['\x7d'] ++ after) (AreSpecifiers (name :: rest) (namesText (name :: rest))) := by
    refine (items.opt.bind (m := []) (fun _ found fits => ?_)).congr (List.append_nil _)
    obtain ⟨nodes, rfl, specifiers⟩ := fits
    exact (noComma.opt.discard.bind (sees_pure nodes)).yields fun _ _ => specifiers
  have open_ : Yields (sign "\x7b") d ([] ++ ['\x7b']) (namesText (name :: rest) ++ ([' '] ++ ['\x7d']) ++ after)
      Anything := yields_sign "\x7b" blank_nil (solid _) (by simp)
  have close_ : Yields (sign "\x7d") d ([' '] ++ ['\x7d']) after Anything :=
    yields_sign "\x7d" blank_space solidClose (by simp)
  have inside : Yields (do
      let items ← commaListOpen do return [← importSpecifier]
      sign "\x7d"
      return items) d (namesText (name :: rest) ++ ([' '] ++ ['\x7d'])) after
        (AreSpecifiers (name :: rest) (namesText (name :: rest))) :=
    listed.bind fun _ nodes fits => close_.map (fun _ => nodes) fun _ _ _ _ => fits
  exact (open_.then inside (Q := fun n => AreSpecifiers (name :: rest) (namesText (name :: rest)) (n + 1))
    fun _ _ fits => fits).construct .namedImports blank (solid _) (by simp)

/-! ### Statements -/

/-- The word of an import of types, or nothing. -/
def typeWord (types : Bool) : List Char := if types then [' '] ++ "type".toList else []

/-- What an import binds, and where it takes from. -/
def clauseText (names : List (List Char)) (source : List Char) : List Char :=
  [' '] ++ bracedNames names ++ ([' '] ++ "from".toList ++ ([' '] ++ Text.quote source))

/-- The text of an import. -/
def importText (types : Bool) (names : List (List Char)) (source : List Char) : List Char :=
  "import".toList ++ (typeWord types ++ clauseText names source ++ [';'])

/-- What an import of names declares. -/
def namedImport (types : Bool) (names : List (List Char)) (module : List Char) : ImportDeclaration :=
  ⟨String.ofList module, names.map String.ofList, none, none, types⟩

/-- An import that declares names. -/
def IsImport (types : Bool) (names : List (List Char)) (module : List Char) (n : Nat) (node : Node) : Prop :=
  node.kind = .importStatement ∧ node.IsInert ∧ ∀ source, Holds source n (importText types names module) →
    Declarations.importOf source node = .ok (some (namedImport types names module))

theorem unquoted_quote (content : List Char) : unquoted (Text.quote content) = .ok (String.ofList content) := by
  rw [unquoted, Text.unquote?_quote]

/-- Reads what an import binds and where it takes from. -/
def sourced : Reader (List Node) := do
  let clause ← importClause
  return [clause, ← fromClause]

/-- Reads an import behind its word. -/
def importItems : Reader (List Node) :=
  firstOf [
    do
      guarded (← typed)
      let typeWord ← firstOf [mark .typeMark .plain (word "type"), mark .token .plain (word "typeof")]
      return typeWord :: (← sourced),
    sourced,
    do
      guarded (← typed)
      discard (opt (firstOf [word "type", word "typeof"]))
      discard (Reader.name .identifier)
      sign "="
      word "require"
      sign "("
      discard (lexeme .string stringLength?)
      sign ")"
      return [],
    do return [(← lexeme .string stringLength?).as .source]]

/-- The nodes of what an import binds and of where it takes from. -/
def IsSourced (names : List (List Char)) (module : List Char) (n : Nat) (nodes : List Node) : Prop :=
  ∃ outer inner specifiers place, nodes = [.mk .importClause .plain outer [.mk .namedImports .plain inner specifiers],
      (leaf .string place (Text.quote module).length).as .source] ∧
    AreSpecifiers names (namesText names) (n + 2) specifiers ∧
    ∀ source, Holds source n (clauseText names module) → Holds source place (Text.quote module)

theorem yields_sourced {names : List (List Char)} (some_ : names ≠ [])
    (importable : ∀ name ∈ names, IsImportable name) (source after : List Char) :
    Yields sourced d (clauseText names source) after (IsSourced names source) := by
  have solid (more : List Char) : Solid (bracedNames names ++ more) :=
    solid_cons _ (by decide) (by decide)
  have isFrom : IsWord "from".toList := isWord_of_check rfl
  have quoted : Solid (Text.quote source ++ after) := solid_cons _ (by decide) (by decide)
  have noNamespace (more : List Char) : Refuses namespaceImport d (bracedNames names ++ more) :=
    Refuses.construct (s := []) (Refuses.bind (refuses_sign (s := []) blank_nil (solid more) rfl)) _ blank_nil
      (solid more)
  have named (more : List Char) : Yields (firstOf [
      do return [← namespaceImport],
      do return [← namedImports],
      do
        let default ← Reader.name .identifier
        let others ← maybe do
          sign ","
          firstOf [namespaceImport, namedImports]
        return default :: others]) d ([] ++ bracedNames names) more fun n nodes =>
          ∃ node, nodes = [node] ∧ Covers .namedImports (bracedNames names) (fun n => AreSpecifiers names (namesText names) (n + 1))
            n node :=
    (noNamespace more).bind.yields_firstOf (((yields_namedImports some_ importable blank_nil more).map
      (fun node => [node]) fun _ node covers => ⟨node, rfl, covers⟩).firstOf _)
  have clause := (named ([' '] ++ "from".toList ++ ([' '] ++ Text.quote source) ++ after)).construct
    .importClause blank_space (solid _) (by simp [bracedNames])
  have from_ : Takes (word "from") d ([' '] ++ "from".toList) ([' '] ++ Text.quote source ++ after) fun _ => () :=
    takes_word "from" blank_space isFrom (endsName_of_head? rfl (by decide))
  have string_ : Takes (lexeme .string stringLength?) d ([' '] ++ Text.quote source) after fun n =>
      leaf .string (n + 1) (Text.quote source).length :=
    takes_lexeme .string blank_space quoted (stringLength?_quote source after)
  have origin : Takes fromClause d ([' '] ++ "from".toList ++ ([' '] ++ Text.quote source)) after fun n =>
      (leaf .string (n + 6) (Text.quote source).length).as .source :=
    from_.bind (b := fun _ m => (leaf .string (m + 1) (Text.quote source).length).as .source) fun _ =>
      (string_.map fun node => node.as .source).follows
  refine clause.bind fun n node covers => ?_
  obtain ⟨_, rfl, _, rfl, specifiers, rfl, fits⟩ := covers
  refine (origin.map fun module => [Node.mk .importClause .plain _ [.mk .namedImports .plain _ specifiers], module]).yields
    (by simp) fun m same => ⟨_, _, specifiers, m + 6, rfl, fits, fun whole holds => ?_⟩
  rw [same]
  have behind : Holds whole (n + ([' '] ++ bracedNames names).length) ([' '] ++ "from".toList ++ ([' '] ++ Text.quote source)) :=
    holds.right
  exact behind.right.right

/-- The word of an import of types as a node, or nothing. -/
def wordNodes (types : Bool) (place : Nat) : List Node := if types then [(leaf .typeMark place 4).as .plain] else []

theorem isImport_mk {types : Bool} {names : List (List Char)} {module : List Char} {n place : Nat} {nodes : List Node} {span : Span}
    (importable : ∀ name ∈ names, IsImportable name)
    (sourced : IsSourced names module (n + 6 + (typeWord types).length) nodes) :
    IsImport types names module n (.mk .importStatement .plain span (wordNodes types place ++ nodes)) := by
  obtain ⟨outer, inner, specifiers, there, rfl, ⟨each, texts⟩, quoted⟩ := sourced
  have inert : (Node.mk .namedImports .plain inner specifiers).IsInert :=
    Node.isInert_mk (by decide) fun node member => (each node member).2
  have clause : (Node.mk .importClause .plain outer [.mk .namedImports .plain inner specifiers]).IsInert :=
    Node.isInert_mk (by decide) (List.forall_mem_singleton.mpr inert)
  have source_ : ((leaf .string there (Text.quote module).length).as .source).IsInert :=
    (Node.isInert_leaf _ _ (by decide)).as .source
  refine ⟨rfl, Node.isInert_mk (by decide) (List.forall_mem_append.mpr ⟨?_, ?_⟩), fun source whole => ?_⟩
  · unfold wordNodes
    split
    · exact List.forall_mem_singleton.mpr ((Node.isInert_leaf _ _ (by decide)).as .plain)
    · exact List.forall_mem_nil _
  · exact List.forall_mem_cons.mpr ⟨clause, List.forall_mem_singleton.mpr source_⟩
  · have behind : Holds source (n + 6 + (typeWord types).length) (clauseText names module) := whole.right.left.right
    have among : Holds source (n + 6 + (typeWord types).length + 2) (namesText names) := behind.left.right.right.left
    have text : ((leaf .string there (Text.quote module).length).as .source).text source = Text.quote module :=
      (quoted source behind).text_eq _ rfl
    have child : (Node.mk .importStatement .plain span (wordNodes types place ++
        [.mk .importClause .plain outer [.mk .namedImports .plain inner specifiers],
          (leaf .string there (Text.quote module).length).as .source])).child? .source =
        some ((leaf .string there (Text.quote module).length).as .source) := by cases types <;> rfl
    have marks : (wordNodes types place ++ [.mk .importClause .plain outer [.mk .namedImports .plain inner specifiers],
        (leaf .string there (Text.quote module).length).as .source]).any (·.kind == .typeMark) = types := by
      cases types <;> rfl
    have clauses : ((wordNodes types place ++ [.mk .importClause .plain outer [.mk .namedImports .plain inner specifiers],
        (leaf .string there (Text.quote module).length).as .source]).filter (·.kind.isNamed)).filter (·.kind == .importClause) =
          [.mk .importClause .plain outer [.mk .namedImports .plain inner specifiers]] := by
      cases types <;> rfl
    have named : (specifiers.filter (·.kind.isNamed)).filter (·.kind == .importSpecifier) = specifiers := by
      rw [List.filter_filter, List.filter_eq_self]
      intro node member
      rw [(each node member).1]
      rfl
    have plain : specifiers.map (fun node => String.ofList (Text.squeeze (node.text source))) = names.map String.ofList := by
      rw [← texts source among, List.map_map]
      refine List.map_congr_left fun node member => congrArg String.ofList (IsImportable.squeeze_eq ?_)
      exact importable _ (texts source among ▸ List.mem_map_of_mem member)
    rw [Declarations.importOf, child]
    dsimp only
    rw [text, unquoted_quote, Node.children, marks, Node.named, Node.children, clauses]
    refine congrArg (fun found => Except.ok (some found)) ?_
    change (⟨_, [] ++ ((specifiers.filter (·.kind.isNamed)).filter (·.kind == .importSpecifier)).map _, _, _, _⟩ :
      ImportDeclaration) = _
    rw [named, List.nil_append, plain]
    rfl

theorem takes_importEnd {rule : Grammar} (items : List Node) (after : List Char) :
    Takes (do
      let attributes ← importAttributes rule
      semicolon false
      return items ++ attributes) d [';'] after fun _ => items := by
  have solid : Solid (';' :: after) := solid_cons after (by decide) (by decide)
  have noWith : Refuses (word "with") d (';' :: after) := by
    refine refuses_word (s := []) blank_nil solid ?_
    rw [wordOf_of_ends (endsName_of_head? rfl (by decide))]
    decide
  have attributes_ : Sees (importAttributes rule) d ([';'] ++ after) [] := noWith.bind.opt.bind (sees_pure [])
  have semicolon_ : Takes (semicolon false) d [';'] after fun _ => () :=
    takes_semicolon (statementEnds_suffix (by decide) _ _ _)
  exact attributes_.takes_bind ((semicolon_.map fun _ => items ++ []).congr rfl fun _ => List.append_nil _)

theorem refuses_typeMark {kind : Kind} (word_ : String) (names : List (List Char)) (module after : List Char)
    (some_ : word_ ≠ "") : Refuses (mark kind .plain (word word_)) d (clauseText names module ++ after) := by
  have solid : Solid (bracedNames names ++ ([' '] ++ "from".toList ++ ([' '] ++ Text.quote module)) ++ after) :=
    solid_cons _ (by decide) (by decide)
  refine Refuses.bind (Refuses.construct (s := [' ']) (Refuses.seqRight ?_) _ blank_space solid)
  refine refuses_word (s := []) blank_nil solid ?_
  rw [wordOf_of_ends (endsName_of_head? rfl (by decide))]
  exact some_.symm

/-- The nodes of an import behind its word. -/
def AreItems (types : Bool) (names : List (List Char)) (module : List Char) (n : Nat) (nodes : List Node) : Prop :=
  ∃ place behind, nodes = wordNodes types place ++ behind ∧ IsSourced names module (n + (typeWord types).length) behind

theorem yields_importItems {names : List (List Char)} (some_ : names ≠ [])
    (importable : ∀ name ∈ names, IsImportable name) {types : Bool} (form : types = true → d.typed = true)
    (module after : List Char) :
    Yields importItems d (typeWord types ++ clauseText names module) after (AreItems types names module) := by
  have sourced_ := yields_sourced (d := d) some_ importable module after
  cases types with
  | false =>
    have marks : Refuses (firstOf [mark .typeMark .plain (word "type"), mark .token .plain (word "typeof")]) d
        (clauseText names module ++ after) :=
      (refuses_typeMark "type" names module after (by decide)).firstOf
        (refuses_typeMark "typeof" names module after (by decide)).last
    refine Refuses.yields_firstOf ?_ (Yields.firstOf ?_ _)
    · exact sees_typed.refuses_bind (refuses_guarded_bind marks.bind)
    · exact sourced_.mono fun n nodes fits => ⟨0, nodes, rfl, fits⟩
  | true =>
    have isType : IsWord "type".toList := isWord_of_check rfl
    have ends_ : EndsName (clauseText names module ++ after) := endsName_of_head? rfl (by decide)
    have mark_ : Takes (mark .typeMark .plain (word "type")) d ([' '] ++ "type".toList)
        (clauseText names module ++ after) fun n => (leaf .typeMark (n + 1) 4).as .plain :=
      Takes.mark (s := [' ']) (takes_word (s := []) "type" blank_nil isType ends_) .typeMark .plain blank_space
        (isType.solid _)
    refine Yields.firstOf ?_ _
    refine sees_typed.yields_bind ?_
    rw [form rfl]
    refine (sees_guarded rfl).yields_bind ?_
    refine ((mark_.firstOf _).yields (P := fun n node => node = (leaf .typeMark (n + 1) 4).as .plain) (by simp)
      fun n => rfl).bind fun n node mark => ?_
    refine sourced_.map (fun nodes => node :: nodes) fun m nodes fits same => ⟨n + 1, nodes, ?_, same ▸ fits⟩
    rw [mark]
    rfl

/-- The node of an import. -/
def IsImported (types : Bool) (names : List (List Char)) (module : List Char) : Nat → Node → Prop :=
  Covers .importStatement (importText types names module) fun n => AreItems types names module (n + 6)

/-- The node of an import of names declares them. -/
theorem IsImported.isImport {types : Bool} {names : List (List Char)} {module : List Char} {n : Nat} {node : Node}
    (imported : IsImported types names module n node) (importable : ∀ name ∈ names, IsImportable name) :
    IsImport types names module n node := by
  obtain ⟨_, rfl, place, behind, rfl, fits⟩ := imported
  exact isImport_mk importable fits

/-- The import of names. -/
theorem yields_importStatement {rule : Grammar} {names : List (List Char)} (some_ : names ≠ [])
    (importable : ∀ name ∈ names, IsImportable name) {types : Bool} (form : types = true → d.typed = true)
    (module : List Char) (blank : Blank space) (after : List Char) :
    Yields (importStatement rule) d (space ++ importText types names module) after fun n =>
      IsImported types names module (n + space.length) := by
  have isImport : IsWord "import".toList := isWord_of_check rfl
  have spaced : ((typeWord types ++ clauseText names module ++ [';'] ++ after).head?) = some ' ' := by
    cases types <;> rfl
  have keyword : Yields (word "import") d ([] ++ "import".toList)
      (typeWord types ++ clauseText names module ++ [';'] ++ after) Anything :=
    yields_word "import" blank_nil isImport (endsName_of_head? spaced (by decide))
  have solid : Solid (importText types names module ++ after) := by
    rw [importText, List.append_assoc]
    exact isImport.solid _
  have items := yields_importItems (d := d) some_ importable form module ([';'] ++ after)
  have inside : Yields (do
      word "import"
      let items ← importItems
      let attributes ← importAttributes rule
      semicolon false
      return items ++ attributes) d (importText types names module) after fun n nodes =>
        AreItems types names module (n + 6) nodes :=
    keyword.then (items.bind (Q := AreItems types names module) fun m nodes fits =>
      (takes_importEnd nodes after).yields (by simp) fun _ _ => fits) fun _ _ fits => fits
  exact Yields.construct inside .importStatement blank solid (List.cons_ne_nil _ _)

theorem opensWith_import (types : Bool) (names : List (List Char)) (module : List Char) :
    OpensWith "import" (importText types names module) := by
  refine ⟨typeWord types ++ clauseText names module ++ [';'], rfl, isWord_of_check rfl, by simp, ?_⟩
  have spaced : ((typeWord types ++ clauseText names module ++ [';']).head?) = some ' ' := by
    cases types <;> rfl
  exact endsName_of_head? spaced (by decide)

theorem isRead_import {names : List (List Char)} (some_ : names ≠ [])
    (importable : ∀ name ∈ names, IsImportable name) {types : Bool} (form : types = true → d.typed = true)
    (module : List Char) (blank : Blank space) :
    Part.IsRead (depth + 1) d ⟨space, importText types names module, IsImported types names module⟩ where
  blank := blank
  opens := ⟨"import", opensWith_import types names module, by decide⟩
  yields := fun after _ => yields_statement (opensWith_import types names module) blank
    ((yields_importStatement some_ importable form module blank after).firstOf _)

/-! ### The imports of a script -/

/-- What the node of a part imports. -/
def Part.Declares (part : Part) (found : List ImportDeclaration) : Prop := ∀ n node, part.Fits n node →
  ∀ source, Holds source n part.text → Declarations.importsAmong source [node] = .ok found

theorem declares_import {types : Bool} {names : List (List Char)} {module : List Char} :
    Part.Declares ⟨space, importText types names module, IsImport types names module⟩ [namedImport types names module] := by
  rintro n node ⟨kind, -, found⟩ source holds
  rw [Declarations.importsAmong, kind, found source holds]
  rfl

theorem declares_nothing {part : Part} (other : ∀ n node, part.Fits n node → node.kind ≠ .importStatement) :
    part.Declares [] := fun n node fits source _ => by
  rw [Declarations.importsAmong, if_neg (by simpa using other n node fits)]
  rfl

theorem importsAmong_append {source : List Char} {first second : List Node} {found more : List ImportDeclaration}
    (here : Declarations.importsAmong source first = .ok found) (later : Declarations.importsAmong source second = .ok more) :
    Declarations.importsAmong source (first ++ second) = .ok (found ++ more) := by
  induction first generalizing found with
  | nil =>
    obtain rfl := Except.ok.inj here
    exact later
  | cons statement rest ih =>
    rw [List.cons_append, Declarations.importsAmong]
    rw [Declarations.importsAmong] at here
    split
    · rename_i kind
      rw [if_pos kind] at here
      obtain ⟨first, read, here⟩ := Outcome.bind_eq_ok.mp here
      obtain ⟨others, among, here⟩ := Outcome.bind_eq_ok.mp here
      obtain rfl := Except.ok.inj here
      rw [read, ih among, List.append_assoc]
      rfl
    · rename_i kind
      rw [if_neg kind] at here
      exact ih here

/-- What the nodes of parts import, one after another. -/
def Declare (parts : List Part) (found : List ImportDeclaration) : Prop := ∀ n nodes, Along parts n nodes →
  ∀ source, Holds source n (partsText parts) → Declarations.importsAmong source nodes = .ok found

theorem declare_nil : Declare [] [] := fun _ _ along _ _ => by
  rw [show _ = [] from along]
  rfl

theorem Part.Declares.cons {part : Part} {rest : List Part} {found more : List ImportDeclaration}
    (declares : part.Declares found) (later : Declare rest more) : Declare (part :: rest) (found ++ more) := by
  rintro n _ ⟨node, others, rfl, fits, along⟩ source holds
  exact importsAmong_append (declares _ node fits source holds.left.right) (later _ others along source holds.right)

theorem importsAmong_named (source : List Char) (nodes : List Node) :
    Declarations.importsAmong source (nodes.filter (·.kind.isNamed)) = Declarations.importsAmong source nodes := by
  induction nodes with
  | nil => rfl
  | cons node rest ih =>
    rw [List.filter_cons]
    cases named : node.kind.isNamed with
    | true => rw [if_pos rfl, Declarations.importsAmong, Declarations.importsAmong, ih]
    | false =>
      have other : ¬ (node.kind == .importStatement) = true := by
        intro same
        rw [beq_iff_eq.mp same] at named
        cases named
      rw [if_neg Bool.false_ne_true, ih, Declarations.importsAmong, if_neg other]

/-- The imports of a script that is parts. -/
theorem Declare.imports_eq {parts : List Part} {found : List ImportDeclaration} (declare : Declare parts found)
    {nodes : List Node} (along : Along parts 0 nodes) (close : List Char) (kind : Kind) (role : Role) (span : Span) :
    Declarations.imports (scriptText parts close) (.mk kind role span nodes) = .ok found :=
  (importsAmong_named _ nodes).trans (declare 0 nodes along _ (holds_zero _ close))

end Script

end AnimationCode
