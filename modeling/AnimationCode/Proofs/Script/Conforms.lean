/-
**What is known about a parser.**

Statements are derived from expressions, elements and other statements, and a script from its statements. Of a parser nothing
is known but what it does with texts that are derived, and with a few that no script of a dialect begins with.

* `IsPart`: the statements that are derived;
* `IsPart.isRead`: the parser at hand takes each of them, at every depth that the text leaves room for;
* `BeginsTyped`, `BreaksOff`: what only the typed form has, and what cuts the content of an element short;
* `Parser.Conforms`: what is known about a parser;
* `conforms_parse?`: it holds of the parser at hand.
-/

import AnimationCode.Proofs.Script.Derivation
import AnimationCode.Proofs.Script.Exported
import AnimationCode.Proofs.Script.Misread
import AnimationCode.Proofs.Script.Returned

namespace AnimationCode

namespace Script

open Reader

variable {depth : Nat} {d : Dialect}

/-! ### Signatures -/

/-- What a parameter binds: a name, or one property of an object. -/
inductive Binds : List Char → (Nat → Node) → Prop where
  | name {name : List Char} (isParameter : IsParameter name) : Binds name fun n => leaf .identifier n name.length
  | shorthand {name : List Char} (isName : IsName name) : Binds (shorthandText name) (shorthandNode name)

theorem Binds.isTarget {target : List Char} {tree : Nat → Node} (binds : Binds target tree) (depth : Nat) :
    IsTarget depth d target tree := by
  cases binds with
  | name isParameter => exact isTarget_name isParameter
  | shorthand isName => exact isTarget_shorthand isName

/-- The parameters of a function with the types that they and the result have, if any. -/
inductive IsSignature (d : Dialect) : List Char → (Nat → List Node → Prop) → Prop where
  | empty : IsSignature d ['(', ')'] fun _ nodes => nodes = []
  | parameter {target : List Char} {tree : Nat → Node} {type? result? : Option (List Char)} (binds : Binds target tree)
      (types : ∀ type ∈ type?, IsTypeName type) (results : ∀ result ∈ result?, IsTypeName result)
      (form : type?.isSome = true ∨ result?.isSome = true → d.typed = true) :
      IsSignature d (signatureText target type? result?) fun n nodes => nodes = [tree (n + 1)]

theorem IsSignature.isHeader {title signature_ : List Char} {Parameters : Nat → List Node → Prop}
    (isSignature : IsSignature d signature_ Parameters) (isName : IsName title) (body after : List Char) :
    IsHeader d (rule (depth + 1)) title signature_ ('\x7b' :: body) after Parameters := by
  cases isSignature with
  | empty =>
    have noType : Refuses (sign ":") d ([' '] ++ '\x7b' :: body ++ after) :=
      refuses_sign (s := [' ']) blank_space (solid_cons _ (by decide) (by decide)) rfl
    refine ⟨isName, ⟨_, rfl⟩, ?_⟩
    exact (takes_callSignature ⟨_, rfl⟩ noType (takes_noParameters (depth + 1) _)).yields (List.cons_ne_nil _ _) fun _ => rfl
  | parameter binds types results form =>
    refine ⟨isName, ⟨_, rfl⟩, ?_⟩
    exact (takes_signature (binds.isTarget depth) types results form ⟨_, Or.inr rfl⟩).yields
      (List.cons_ne_nil _ _) fun _ => rfl

/-! ### Statements -/

/-- A text is a statement with blanks before it, and its node is one of those that fit. -/
inductive IsPart (d : Dialect) : Part → Prop where
  | statement {space : List Char} {item : Item} (blank : Blank space) (derives : Derives .statement item) :
      IsPart d (.ofItem space item)
  | imports {space : List Char} {types : Bool} {names : List (List Char)} {module : List Char} (blank : Blank space)
      (some_ : names ≠ []) (importable : ∀ name ∈ names, IsImportable name) (noNull : '\x00' ∉ module)
      (form : types = true → d.typed = true) :
      IsPart d ⟨space, importText types names module, IsImported types names module⟩
  | interface {space title pad close name type : List Char} (blank : Blank space) (isTitle : IsName title)
      (isMember : IsMember name) (isTypeName : IsTypeName type) (blankPad : Blank pad) (blankClose : Blank close)
      (form : d.typed = true) :
      IsPart d ⟨space, interfaceText title pad close name type, fun _ node =>
        node.kind = .interfaceDeclaration ∧ node.IsInert⟩
  | returns {space gap text close : List Char} {Fits : Nat → List Node → Prop} (blank : Blank space) (blankGap : Blank gap)
      (blankClose : Blank close) (derives : Markup.Derives .element text Fits) (form : d.markup = true) :
      IsPart d ⟨space, returnText gap text close, IsReturn gap text close Fits⟩
  | function {space title signature_ close : List Char} {Parameters : Nat → List Node → Prop} {parts : List Part}
      (default_ : Bool) (blank : Blank space) (isName : IsName title) (isSignature : IsSignature d signature_ Parameters)
      (each : ∀ part ∈ parts, IsPart d part) (blankClose : Blank close) :
      IsPart d ⟨space, exportText default_ title signature_ (bracedText parts close),
        IsExport default_ title signature_ (bracedText parts close) Parameters
          (Covers .block (bracedText parts close) fun n => Along parts (n + 1))⟩
  | weaken {part : Part} (isPart : IsPart d part) {Fits : Nat → Node → Prop}
      (weaker : ∀ n node, part.Fits n node → Fits n node) : IsPart d ⟨part.space, part.text, Fits⟩

theorem Part.IsRead.weaken {part : Part} (isRead : part.IsRead depth d) {Fits : Nat → Node → Prop}
    (weaker : ∀ n node, part.Fits n node → Fits n node) : Part.IsRead depth d ⟨part.space, part.text, Fits⟩ where
  blank := isRead.blank
  opens := isRead.opens
  yields := fun after ended => (isRead.yields after ended).mono fun _ _ => weaker _ _

theorem length_le_bracedText {parts : List Part} {part : Part} (member : part ∈ parts) (close : List Char) :
    part.text.length + 2 ≤ (bracedText parts close).length := by
  obtain ⟨before, behind, rfl⟩ := List.append_of_mem member
  simp only [bracedText, partsText, List.flatMap_append, List.flatMap_cons, Part.whole, List.length_append,
    List.length_cons, List.length_nil]
  omega

theorem length_exportText (default_ : Bool) (title signature_ body : List Char) :
    body.length + 2 ≤ (exportText default_ title signature_ body).length := by
  unfold exportText functionText
  generalize "export".toList = export_
  generalize "function".toList = function_
  simp only [List.length_append, List.length_cons, List.length_nil]
  omega

/-- The parser at hand takes every derived statement. -/
theorem IsPart.isRead {part : Part} (isPart : IsPart d part) (enough : 4 * part.text.length + 8 ≤ depth) :
    part.IsRead depth d := by
  induction isPart generalizing depth with
  | @statement space item blank derives =>
    exact (derives.isRead (by simp only [Part.ofItem] at enough; omega) : IsStatement depth d item).isRead blank
  | imports blank some_ importable noNull form =>
    obtain ⟨depth, rfl⟩ : ∃ fewer, depth = fewer + 1 := ⟨depth - 1, by omega⟩
    exact isRead_import some_ importable form _ blank
  | interface blank isTitle isMember isTypeName blankPad blankClose form =>
    obtain ⟨depth, rfl⟩ : ∃ fewer, depth = fewer + 2 := ⟨depth - 2, by omega⟩
    exact isRead_interface isTitle isMember isTypeName blankPad blankClose blank form
  | @returns space gap text close Fits blank blankGap blankClose derives form =>
    unfold returnText parenthesizedText at enough
    generalize "return".toList = return_ at enough
    simp only [List.length_append, List.length_cons, List.length_nil] at enough
    obtain ⟨depth, rfl⟩ : ∃ fewer, depth = fewer + 5 := ⟨depth - 5, by omega⟩
    exact isRead_return derives form blank blankGap blankClose (by omega)
  | @function space title signature_ close Parameters parts default_ blank isName isSignature each blankClose ih =>
    have longer := length_exportText default_ title signature_ (bracedText parts close)
    dsimp only at enough
    generalize (exportText default_ title signature_ (bracedText parts close)).length = whole at enough longer
    obtain ⟨depth, rfl⟩ : ∃ fewer, depth = fewer + 2 := ⟨depth - 2, by omega⟩
    refine isRead_export default_ (fun after _ => isSignature.isHeader isName _ after) (fun after _ => ?_) blank
    refine yields_block (fun part member => ih part member ?_) blank_space blankClose after
    have shorter := length_le_bracedText member close
    omega
  | weaken isPart weaker ih => exact (ih enough).weaken weaker

/-! ### Texts that are no scripts -/

/-- A text begins with a statement that only the typed form has: an import of types, or a function whose parameter has
one. -/
inductive BeginsTyped : List Char → Prop where
  | imports {names : List (List Char)} (module rest : List Char) (importable : ∀ name ∈ names, IsImportable name) :
      BeginsTyped (importText true names module ++ rest)
  | function {title target : List Char} {tree : Nat → Node} (type : List Char) (result? : Option (List Char))
      (body rest : List Char) (isName : IsName title) (binds : Binds target tree) :
      BeginsTyped (exportText false title (signatureText target (some type) result?) body ++ rest)

theorem BeginsTyped.opens {text : List Char} (begins : BeginsTyped text) :
    ∃ word statement rest, text = statement ++ rest ∧ OpensWith word statement ∧ word ≠ "else" := by
  cases begins with
  | imports module rest => exact ⟨"import", _, rest, rfl, opensWith_import _ _ _, by decide⟩
  | function type result? body rest => exact ⟨"export", _, rest, rfl, opensWith_export _ _ _ _, by decide⟩

theorem BeginsTyped.refuses {text space : List Char} (begins : BeginsTyped text) (form : d.typed = false)
    (blank : Blank space) : Refuses (rule (depth + 3) .statement) d (space ++ text) := by
  cases begins with
  | imports module rest =>
    rw [← List.append_assoc]
    exact refuses_typeImport _ module form blank rest
  | function type result? body rest isName binds =>
    rw [← List.append_assoc]
    exact refuses_typedFunction (binds.isTarget _) isName type result? body form blank rest

/-- A text begins with what stands nowhere between two tags: an operator, or an object type in braces. -/
inductive BreaksOff : List Char → Prop where
  | ampersands (rest : List Char) : BreaksOff ('&' :: '&' :: rest)
  | objectType {pad close name type : List Char} (isIdentifier : IsIdentifier name) (blank : Blank pad) (rest : List Char) :
      BreaksOff (objectTypeText pad close name type ++ rest)

theorem BreaksOff.isCut {text : List Char} (breaksOff : BreaksOff text) : IsCut (depth + 2) d text := by
  cases breaksOff with
  | ampersands rest => exact isCut_ampersands rest
  | objectType isIdentifier blank rest => exact isCut_objectType isIdentifier blank rest

/-! ### Parsers -/

/-- What is known about a parser. It makes trees of scripts whose statements are derived. In the plain form no script has a
statement of the typed form, nor begins with a fragment in which an operator or an object type stands behind some text. -/
structure Parser.Conforms (parse : Parser) : Prop where
  reads {d : Dialect} {parts : List Part} {close : List Char} (each : ∀ part ∈ parts, IsPart d part)
    (blankClose : Blank close) : ∃ span nodes,
      parse d (scriptText parts close) = some (.mk .program .plain span nodes) ∧ Along parts 0 nodes
  refusesTyped {d : Dialect} {parts : List Part} {space text : List Char} (form : d.typed = false)
    (each : ∀ part ∈ parts, IsPart d part) (blank : Blank space) (begins : BeginsTyped text) :
      parse d (partsText parts ++ (space ++ text)) = none
  refusesFragment {d : Dialect} {pieces : List (List Char × List (List Char))} {last text : List Char}
    (form : d.typed = false) (markup : d.markup = true)
    (runs : ∀ piece ∈ pieces, IsRun piece.1 ∧ piece.2 ≠ [] ∧ ∀ name ∈ piece.2, IsIdentifier name) (isRun : IsRun last)
    (breaksOff : BreaksOff text) : parse d ('<' :: '>' :: (runsText pieces last ++ text)) = none

theorem startsWith_interpreter {text : List Char} (head : ∀ c ∈ text.head?, c ≠ '#') :
    Text.startsWith "#!".toList text = false := by
  cases text with
  | nil => rfl
  | cons c rest => exact startsWith_cons_of_ne _ _ (head c rfl).symm

/-- Blanks before a text of which it is known how it begins. -/
theorem head_append_of_blank {space text : List Char} (blank : Blank space) (head : ∀ c ∈ text.head?, c ≠ '#') :
    ∀ c ∈ (space ++ text).head?, c ≠ '#' := by
  cases space with
  | nil => exact head
  | cons e more =>
    rintro c ⟨⟩
    have isSpace := blank e List.mem_cons_self
    rintro rfl
    cases isSpace

theorem OpensWith.head_append {word : String} {text : List Char} (opens : OpensWith word text) (rest : List Char) :
    ∀ c ∈ (text ++ rest).head?, c ≠ '#' := by
  obtain ⟨e, more, rfl, part⟩ := opens.exists_first
  rintro c ⟨⟩ rfl
  cases part

theorem head_partsText {parts : List Part} (read : ∀ part ∈ parts, part.IsRead depth d) {rest : List Char}
    (head : ∀ c ∈ rest.head?, c ≠ '#') : ∀ c ∈ (partsText parts ++ rest).head?, c ≠ '#' := by
  cases parts with
  | nil => exact head
  | cons part others =>
    obtain ⟨blank, ⟨word, opens, -⟩, -⟩ := read part List.mem_cons_self
    have text : partsText (part :: others) ++ rest = part.space ++ (part.text ++ (partsText others ++ rest)) := by
      simp [partsText, Part.whole]
    rw [text]
    exact head_append_of_blank blank (opens.head_append _)

theorem length_le_partsText {parts : List Part} {part : Part} (member : part ∈ parts) :
    part.text.length ≤ (partsText parts).length := by
  have within := length_le_bracedText member []
  simp only [bracedText, List.length_append, List.length_cons, List.length_nil] at within
  omega

/-- **What is known about a parser holds of the one at hand.** -/
theorem conforms_parse? : Parser.Conforms parse? where
  reads {d parts close} each blankClose := by
    have read : ∀ part ∈ parts, part.IsRead (8 * (scriptText parts close).length + 16) d := fun part member => by
      have within := length_le_partsText member
      refine (each part member).isRead ?_
      rw [scriptText, List.length_append]
      omega
    have noMark : ∀ c ∈ close.head?, c ≠ '#' := by
      rw [← List.append_nil close]
      exact head_append_of_blank blankClose nofun
    obtain ⟨nodes, parsed, along⟩ := exists_parse? blankClose (startsWith_interpreter (head_partsText read noMark)) read
    exact ⟨_, nodes, parsed, along⟩
  refusesTyped {d parts space text} form each blank begins := by
    generalize room : 8 * (partsText parts ++ (space ++ text)).length + 16 = depth
    have read : ∀ part ∈ parts, part.IsRead depth d := fun part member => by
      have within := length_le_partsText member
      refine (each part member).isRead ?_
      rw [List.length_append] at room
      omega
    obtain ⟨depth, rfl⟩ : ∃ fewer, depth = fewer + 3 := ⟨depth - 3, by omega⟩
    obtain ⟨word, statement, rest, same, opens, other⟩ := begins.opens
    have mark : ∀ c ∈ text.head?, c ≠ '#' := same ▸ opens.head_append rest
    have some_ : text ≠ [] := by
      obtain ⟨c, more, first, -⟩ := opens.exists_first
      rw [same, first]
      exact List.cons_ne_nil _ _
    refine parse?_of_refused blank some_ (same ▸ opens.solid rest) (same ▸ opens.markupRemarkLength?_eq rest) ?_
      (startsWith_interpreter (head_partsText read (head_append_of_blank blank mark))) ?_ ?_
    · rw [same, opens.wordOf_eq]
      exact other
    · rw [room]
      exact read
    · rw [room]
      exact begins.refuses form blank
  refusesFragment {d pieces last text} form markup runs isRun breaksOff := by
    have whole : '<' :: '>' :: (runsText pieces last ++ text) =
        partsText [] ++ ([] ++ '<' :: '>' :: (runsText pieces last ++ text)) := rfl
    rw [whole]
    generalize room : 8 * (partsText [] ++ ([] ++ '<' :: '>' :: (runsText pieces last ++ text))).length + 16 = depth
    obtain ⟨depth, rfl⟩ : ∃ fewer, depth = fewer + 7 := ⟨depth - 7, by omega⟩
    refine parse?_of_refused blank_nil (List.cons_ne_nil _ _) (solid_cons _ (by decide) (by decide)) rfl ?_ rfl
      (List.forall_mem_nil _) ?_
    · rw [Expression.wordOf_of_first _ (Or.inl (by decide))]
      decide
    · rw [room]
      exact refuses_statement_of_cut form markup runs isRun breaksOff.isCut

end Script

end AnimationCode
