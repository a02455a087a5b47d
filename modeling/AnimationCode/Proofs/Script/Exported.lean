/-
**Functions that a module hands out.**

A function has a name, a signature and a block. It may be what a module hands out by default.

* `yields_function`: a function with its name;
* `isRead_export`: the statement that hands it out;
* `refuses_typedFunction`: with types, it is no statement of the plain form.
-/

import AnimationCode.Proofs.Script.Program
import AnimationCode.Proofs.Script.Signature

namespace AnimationCode

namespace Script

open Reader Binding Statement

variable {depth : Nat} {d : Dialect} {space after : List Char}

/-! ### Functions -/

/-- The text of a function with its name, from its signature to its block. -/
def functionText (title signature_ body : List Char) : List Char :=
  "function".toList ++ ([' '] ++ title ++ (signature_ ++ ([' '] ++ body)))

/-- The parameters and the block of a function fit. -/
def IsFunction (title signature_ body : List Char) (Parameters : Nat → List Node → Prop)
    (Body : Nat → Node → Prop) (n : Nat) (node : Node) : Prop :=
  ∃ items block_, node = .mk .functionDeclaration .plain
      ⟨n, n + (functionText title signature_ body).length⟩
      ([(leaf .identifier (n + 9) title.length).as .name] ++ items ++ [block_.as .body]) ∧
    Parameters (n + 9 + title.length) items ∧ Body (n + 9 + title.length + signature_.length + 1) block_

/-- What stands between the word of a function and its block. -/
structure IsHeader (d : Dialect) (rule : Grammar) (title signature_ body after : List Char)
    (Parameters : Nat → List Node → Prop) : Prop where
  isName : IsName title
  opens : ∃ rest, signature_ = '(' :: rest
  yields : Yields (callSignature rule) d signature_ ([' '] ++ body ++ after) Parameters

theorem refuses_async (title signature_ body after : List Char) :
    Refuses (word "async") d (functionText title signature_ body ++ after) := by
  unfold functionText
  rw [List.append_assoc]
  exact refuses_otherWord (s := []) blank_nil (isWord_of_check rfl) (endsName_of_head? rfl (by decide)) (by decide)

theorem yields_functionWord (title signature_ body after : List Char) :
    Yields (word "function") d ([] ++ "function".toList)
      ([' '] ++ title ++ (signature_ ++ ([' '] ++ body)) ++ after) Anything :=
  yields_word "function" blank_nil (isWord_of_check rfl) (endsName_of_head? rfl (by decide))

theorem refuses_star {title : List Char} (isName : IsName title) (after : List Char) :
    Refuses (sign "*") d ([' '] ++ title ++ after) := by
  rw [List.append_assoc]
  refine refuses_sign blank_space (isName.toIsWord.solid _) ?_
  obtain ⟨c, rest, rfl⟩ := List.exists_cons_of_ne_nil isName.nonempty
  have part := isName.all c List.mem_cons_self
  refine startsWith_cons_of_ne _ _ ?_
  rintro rfl
  revert part
  decide

theorem yields_title {title : List Char} (isName : IsName title) {c : Char} {rest : List Char} (opens : after = c :: rest)
    (paren : c = '(') : Yields (do return [(← Reader.name .identifier).as .name]) d ([' '] ++ title) after fun n found =>
      found = [(leaf .identifier (n + 1) title.length).as .name] := by
  subst opens paren
  exact ((takes_name .identifier blank_space isName (endsName_of_head? rfl (by decide))).map fun node =>
    [node.as .name]).yields (by simp) fun _ => rfl

theorem solid_function (title signature_ body after : List Char) : Solid (functionText title signature_ body ++ after) := by
  have isWord : IsWord "function".toList := isWord_of_check rfl
  unfold functionText
  rw [List.append_assoc]
  exact isWord.solid _

theorem yields_function {rule : Grammar} {title signature_ body : List Char}
    {Parameters : Nat → List Node → Prop} {Body : Nat → Node → Prop}
    (header : IsHeader d rule title signature_ body after Parameters)
    (yieldsBody : Yields (block rule) d ([' '] ++ body) after fun n => Body (n + 1)) (blank : Blank space) :
    Yields (Class.function rule .functionDeclaration .generatorDeclaration true) d
      (space ++ functionText title signature_ body) after fun n =>
        IsFunction title signature_ body Parameters Body (n + space.length) := by
  obtain ⟨isName, ⟨inner, opens⟩, takesSignature⟩ := header
  have noStar : Refuses (sign "*") d ([' '] ++ title ++ (signature_ ++ ([' '] ++ body)) ++ after) := by
    rw [List.append_assoc]
    exact refuses_star isName _
  have title_ : Yields (do return [(← Reader.name .identifier).as .name]) d ([' '] ++ title)
      (signature_ ++ ([' '] ++ body) ++ after) fun n found =>
        found = [(leaf .identifier (n + 1) title.length).as .name] :=
    yields_title isName (by rw [opens]; rfl) rfl
  let Rest (first n : Nat) (node : Node) : Prop := n = first + 8 → ∃ items block_, node =
      .mk .functionDeclaration .plain ⟨first, first + (functionText title signature_ body).length⟩
        ([(leaf .identifier (first + 9) title.length).as .name] ++ items ++ [block_.as .body]) ∧
      Parameters (first + 9 + title.length) items ∧
      Body (first + 9 + title.length + signature_.length + 1) block_
  have rest_ (first : Nat) : Yields (do
      let star ← opt (sign "*")
      let title ← (do return [(← Reader.name .identifier).as .name])
      let items ← callSignature rule
      let body ← block rule
      return .mk (if star.isSome then .generatorDeclaration else .functionDeclaration) .plain
        ⟨first, ← last⟩ (title ++ items ++ [body.as .body])) d
      ([' '] ++ title ++ (signature_ ++ ([' '] ++ body))) after (Rest first) := by
    refine noStar.opt.yields_bind ?_
    refine title_.bind fun n found same => ?_
    subst same
    refine takesSignature.bind fun m items fits => ?_
    refine yieldsBody.last (by simp) fun k block_ fit c => ⟨_, rfl, fun start_ place begin_ => ?_⟩
    subst begin_
    have place_ : m = first + 9 + title.length := by
      rw [place]
      simp
      omega
    have start__ : k = first + 9 + title.length + signature_.length := by rw [start_, place_]
    refine ⟨items, block_, ?_, place_ ▸ fits, start__ ▸ fit⟩
    have stop : k + ([' '] ++ body).length = first + (functionText title signature_ body).length := by
      rw [start__]
      unfold functionText
      simp
      omega
    rw [stop]
    rfl
  refine Yields.start (fun first n node => n = first →
    IsFunction title signature_ body Parameters Body first node) blank (solid_function _ _ _ _) (fun first => ?_)
    (List.cons_ne_nil _ _) |>.mono fun n node fits => fits rfl
  refine (refuses_async _ _ _ _).opt.discard.yields_bind ?_
  refine (yields_functionWord _ _ _ _).bind fun n _ _ => (rest_ first).mono fun m node fits same start_ => ?_
  exact fits (by rw [same, start_]; rfl)

/-! ### Exports -/

theorem OpensWith.refuses_sign {word : String} {s text : List Char} (opens : OpensWith word text)
    (blank : Blank s) {mark : String} {c : Char} {more : List Char} (mark_ : mark.toList = c :: more)
    (sign_ : isNameRest c = false) (after : List Char) : Refuses (sign mark) d (s ++ text ++ after) := by
  obtain ⟨e, rest, same, part⟩ := opens.exists_first
  rw [List.append_assoc]
  refine Reader.refuses_sign blank (opens.solid after) ?_
  rw [mark_, same]
  refine startsWith_cons_of_ne _ _ ?_
  rintro rfl
  rw [sign_] at part
  cases part

theorem OpensWith.refuses_word {word : String} {s text : List Char} (opens : OpensWith word text)
    (blank : Blank s) {other : String} (differs : word ≠ other) (after : List Char) :
    Refuses (Reader.word other) d (s ++ text ++ after) := by
  rw [List.append_assoc]
  refine Reader.refuses_word blank (opens.solid after) ?_
  rwa [opens.wordOf_eq]

/-- The word of what is handed out by default, or nothing. -/
def defaultWord (default_ : Bool) : List Char := if default_ then [' '] ++ "default".toList else []

/-- The text of a function that a module hands out. -/
def exportText (default_ : Bool) (title signature_ body : List Char) : List Char :=
  "export".toList ++ (defaultWord default_ ++ ([' '] ++ functionText title signature_ body))

/-- A function that a module hands out, perhaps behind the mark of the default. -/
def IsExport (default_ : Bool) (title signature_ body : List Char) (Parameters : Nat → List Node → Prop)
    (Body : Nat → Node → Prop) (n : Nat) (node : Node) : Prop :=
  ∃ marks function_, node = .mk .exportStatement .plain
      ⟨n, n + (exportText default_ title signature_ body).length⟩ (marks ++ [function_.as .declaration]) ∧
    (∀ mark ∈ marks, mark.IsInert) ∧
    IsFunction title signature_ body Parameters Body (n + 6 + (defaultWord default_).length + 1) function_

/-- More may fit as the parameters. -/
theorem IsExport.parameters {default_ : Bool} {title signature_ body : List Char} {Parameters Others : Nat → List Node → Prop}
    {Body : Nat → Node → Prop} {n : Nat} {node : Node} (isExport : IsExport default_ title signature_ body Parameters Body n node)
    (weaker : ∀ n nodes, Parameters n nodes → Others n nodes) : IsExport default_ title signature_ body Others Body n node := by
  obtain ⟨marks, function_, same, inert, items, block_, written, fits, inside⟩ := isExport
  exact ⟨marks, function_, same, inert, items, block_, written, weaker _ _ fits, inside⟩

theorem opensWith_function (title signature_ body : List Char) :
    OpensWith "function" (functionText title signature_ body) :=
  ⟨_, rfl, isWord_of_check rfl, by simp, endsName_of_head? rfl (by decide)⟩

theorem yields_declared {rule : Grammar} {title signature_ body : List Char}
    {Parameters : Nat → List Node → Prop} {Body : Nat → Node → Prop}
    (header : IsHeader d rule title signature_ body after Parameters)
    (yieldsBody : Yields (block rule) d ([' '] ++ body) after fun n => Body (n + 1)) :
    Yields (declared rule) d ([' '] ++ functionText title signature_ body) after fun n =>
      IsFunction title signature_ body Parameters Body (n + 1) :=
  (sees_opened (opensWith_function title signature_ body) blank_space).yields_bind
    ((yields_function header yieldsBody blank_space).firstOf _)

/-- What stands behind the word of an export. -/
theorem opensWith_exported (default_ : Bool) (title signature_ body : List Char) :
    ∃ word text, OpensWith word text ∧ word ∉ ["export", "type"] ∧
      defaultWord default_ ++ ([' '] ++ functionText title signature_ body) = [' '] ++ text := by
  cases default_ with
  | false => exact ⟨"function", _, opensWith_function title signature_ body, by decide, rfl⟩
  | true =>
    exact ⟨"default", _, ⟨[' '] ++ functionText title signature_ body, rfl, isWord_of_check rfl, by simp,
      endsName_of_head? rfl (by decide)⟩, by decide, rfl⟩

/-- The nodes of an export behind its word. -/
def AreExported (default_ : Bool) (title signature_ body : List Char) (Parameters : Nat → List Node → Prop)
    (Body : Nat → Node → Prop) (n : Nat) (nodes : List Node) : Prop :=
  ∃ marks function_, nodes = marks ++ [function_.as .declaration] ∧ (∀ mark ∈ marks, mark.IsInert) ∧
    IsFunction title signature_ body Parameters Body (n + (defaultWord default_).length + 1) function_

theorem yields_exported {rule : Grammar} {title signature_ body : List Char}
    {Parameters : Nat → List Node → Prop} {Body : Nat → Node → Prop} (default_ : Bool)
    (header : IsHeader d rule title signature_ body after Parameters)
    (yieldsBody : Yields (block rule) d ([' '] ++ body) after fun n => Body (n + 1))
    (others : List (Reader (List Node))) :
    Yields (firstOf (exportDefault rule :: (do return [(← declared rule).as .declaration]) :: others)) d
      (defaultWord default_ ++ ([' '] ++ functionText title signature_ body)) after
      (AreExported default_ title signature_ body Parameters Body) := by
  have declared_ := yields_declared header yieldsBody
  have opens := opensWith_function title signature_ body
  cases default_ with
  | false =>
    have noDefault : Refuses (exportDefault rule) d ([' '] ++ functionText title signature_ body ++ after) := by
      refine Refuses.bind (Refuses.bind ?_)
      rw [List.append_assoc]
      refine Refuses.construct (Refuses.seqRight ?_) _ blank_space (opens.solid after)
      exact opens.refuses_word (s := []) blank_nil (by decide) after
    refine noDefault.yields_firstOf (Yields.firstOf ?_ _)
    exact declared_.map (fun node => [node.as .declaration]) fun n node fits =>
      ⟨[], node, rfl, List.forall_mem_nil _, fits⟩
  | true =>
    have isDefault : IsWord "default".toList := isWord_of_check rfl
    have ends_ : EndsName ([' '] ++ functionText title signature_ body ++ after) :=
      endsName_of_head? rfl (by decide)
    have mark_ : Takes (mark .defaultMark .plain (word "default")) d ([' '] ++ "default".toList)
        ([' '] ++ functionText title signature_ body ++ after) fun n => (leaf .defaultMark (n + 1) 7).as .plain :=
      Takes.mark (s := [' ']) (takes_word (s := []) "default" blank_nil isDefault ends_) .defaultMark .plain
        blank_space (isDefault.solid _)
    refine Yields.firstOf ?_ _
    refine (mark_.yields (P := fun _ node => node.IsInert) (by simp) fun n =>
      (Node.isInert_leaf _ _ (by decide)).as .plain).bind fun n node inert => ?_
    refine Yields.firstOf ?_ _
    exact declared_.map (fun function_ => [node, function_.as .declaration]) fun m function_ fits same =>
      ⟨[node], function_, rfl, List.forall_mem_singleton.mpr inert, same ▸ fits⟩

theorem opensWith_export (default_ : Bool) (title signature_ body : List Char) :
    OpensWith "export" (exportText default_ title signature_ body) := by
  refine ⟨_, rfl, isWord_of_check rfl, by simp, ?_⟩
  obtain ⟨word, text, -, -, same⟩ := opensWith_exported default_ title signature_ body
  rw [same]
  exact endsName_of_head? rfl (by decide)

theorem yields_exportWord (default_ : Bool) (title signature_ body after : List Char) :
    Yields (word "export") d ([] ++ "export".toList)
      (defaultWord default_ ++ ([' '] ++ functionText title signature_ body) ++ after) Anything := by
  refine yields_word "export" blank_nil (isWord_of_check rfl) ?_
  obtain ⟨word_, text, -, -, same⟩ := opensWith_exported default_ title signature_ body
  rw [same]
  exact endsName_of_head? rfl (by decide)

theorem refuses_decorator {rule : Grammar} (default_ : Bool) (title signature_ body after : List Char) :
    Refuses (decorator rule) d (exportText default_ title signature_ body ++ after) := by
  have opens := opensWith_export default_ title signature_ body
  exact Refuses.construct (s := []) (Refuses.bind (opens.refuses_sign (s := []) blank_nil rfl (by decide) after))
    _ blank_nil (opens.solid after)

/-- A function is not handed on from elsewhere. -/
theorem refuses_handedOn (default_ : Bool) (title signature_ body after : List Char) (next : Node → Reader (List Node)) :
    Refuses (sign "*") d (defaultWord default_ ++ ([' '] ++ functionText title signature_ body) ++ after) ∧
      Refuses (do
        if ← typed then discard (opt (mark .typeMark .plain (word "type")))
        let clause ← exportClause
        next clause) d (defaultWord default_ ++ ([' '] ++ functionText title signature_ body) ++ after) := by
  obtain ⟨word_, text, opensText, other, same⟩ := opensWith_exported default_ title signature_ body
  simp only [List.mem_cons, List.not_mem_nil, or_false, not_or] at other
  rw [same]
  refine ⟨opensText.refuses_sign blank_space rfl (by decide) after, ?_⟩
  have noType : Refuses (mark .typeMark .plain (word "type")) d ([' '] ++ text ++ after) := by
    rw [List.append_assoc]
    refine Refuses.bind (Refuses.construct (Refuses.seqRight ?_) _ blank_space (opensText.solid after))
    exact opensText.refuses_word (s := []) blank_nil other.2 after
  have noClause : Refuses exportClause d ([' '] ++ text ++ after) := by
    rw [List.append_assoc]
    refine Refuses.construct (Refuses.bind ?_) _ blank_space (opensText.solid after)
    exact opensText.refuses_sign (s := []) blank_nil rfl (by decide) after
  refine sees_typed.refuses_bind ?_
  split
  · exact noType.opt.discard.refuses_bind noClause.bind
  · exact noClause.bind

theorem yields_exportStatement {rule : Grammar} {title signature_ body : List Char}
    {Parameters : Nat → List Node → Prop} {Body : Nat → Node → Prop} (default_ : Bool)
    (header : IsHeader d rule title signature_ body after Parameters)
    (yieldsBody : Yields (block rule) d ([' '] ++ body) after fun n => Body (n + 1)) (blank : Blank space) :
    Yields (exportStatement rule) d (space ++ exportText default_ title signature_ body) after fun n =>
      IsExport default_ title signature_ body Parameters Body (n + space.length) := by
  have opens := opensWith_export default_ title signature_ body
  have handedOn := @refuses_handedOn d default_ title signature_ body after
  refine (Yields.construct (P := fun n => AreExported default_ title signature_ body Parameters Body (n + 6))
    ?_ .exportStatement blank (opens.solid after) (List.cons_ne_nil _ _)).mono fun n node covers => ?_
  · refine (refuses_decorator _ _ _ _ _).many.yields_bind ?_
    refine (yields_exportWord _ _ _ _ _).then (P := AreExported default_ title signature_ body Parameters Body) ?_
      fun n nodes fits => fits
    refine Yields.map (P := AreExported default_ title signature_ body Parameters Body) ?_
      (fun items => [] ++ items) fun n nodes fits => fits
    exact (handedOn fun _ => failure).1.bind.yields_firstOf
      (Refuses.yields_firstOf (handedOn _).2 (yields_exported default_ header yieldsBody _))
  · obtain ⟨children, rfl, marks, function_, rfl, inert, fits⟩ := covers
    exact ⟨marks, function_, rfl, inert, fits⟩

/-- A function that a module hands out. -/
theorem isRead_export {title signature_ body : List Char}
    {Parameters : Nat → List Node → Prop} {Body : Nat → Node → Prop} (default_ : Bool)
    (header : ∀ after, Ended after → IsHeader d (rule depth) title signature_ body after Parameters)
    (yieldsBody : ∀ after, Ended after →
      Yields (block (rule depth)) d ([' '] ++ body) after fun n => Body (n + 1)) (blank : Blank space) :
    Part.IsRead (depth + 1) d ⟨space, exportText default_ title signature_ body,
      IsExport default_ title signature_ body Parameters Body⟩ where
  blank := blank
  opens := ⟨"export", opensWith_export default_ title signature_ body, by decide⟩
  yields := fun after ended => yields_statement (opensWith_export default_ title signature_ body) blank
    (yields_exportStatement default_ (header after ended) (yieldsBody after ended) blank)

/-! ### Functions that are refused -/

theorem refuses_function {rule : Grammar} {title signature_ body : List Char} (isName : IsName title)
    (opens : ∃ rest, signature_ = '(' :: rest)
    (refuses : Refuses (callSignature rule) d (signature_ ++ ([' '] ++ body) ++ after)) (blank : Blank space) :
    Refuses (Class.function rule .functionDeclaration .generatorDeclaration true) d
      (space ++ functionText title signature_ body ++ after) := by
  obtain ⟨inner, opens⟩ := opens
  have noStar : Refuses (sign "*") d ([' '] ++ title ++ (signature_ ++ ([' '] ++ body)) ++ after) := by
    rw [List.append_assoc]
    exact refuses_star isName _
  have title_ : Yields (do return [(← Reader.name .identifier).as .name]) d ([' '] ++ title)
      (signature_ ++ ([' '] ++ body) ++ after) fun n found =>
        found = [(leaf .identifier (n + 1) title.length).as .name] :=
    yields_title isName (by rw [opens]; rfl) rfl
  rw [List.append_assoc]
  refine Refuses.start blank (solid_function _ _ _ _) fun first => ?_
  refine (refuses_async _ _ _ _).opt.discard.refuses_bind ?_
  unfold functionText
  rw [List.append_assoc]
  refine (yields_functionWord title signature_ body after).refuses_bind fun _ => noStar.opt.refuses_bind ?_
  rw [List.append_assoc]
  dsimp only
  rw [if_pos rfl]
  exact title_.refuses_bind fun _ => refuses.bind

/-- In the plain form of the language no function is handed out whose parameters or whose result have types. -/
theorem refuses_typedFunction {target : List Char} {tree : Nat → Node} (isTarget : IsTarget depth d target tree)
    {title : List Char} (isName : IsName title) (type : List Char) (result? : Option (List Char)) (body : List Char)
    (form : d.typed = false) (blank : Blank space) (after : List Char) :
    Refuses (rule (depth + 2) .statement) d
      (space ++ exportText false title (signatureText target (some type) result?) body ++ after) := by
  set signature_ := signatureText target (some type) result? with signature__
  have opens := opensWith_export false title signature_ body
  have function_ := opensWith_function title signature_ body
  have handedOn := @refuses_handedOn d false title signature_ body after
  have unsigned : Refuses (callSignature (rule (depth + 1))) d (signature_ ++ ([' '] ++ body) ++ after) := by
    refine sees_typed.refuses_bind ?_
    rw [form, if_neg Bool.false_ne_true, signature__, signatureText, List.append_assoc, List.append_assoc]
    exact refuses_parameters isTarget type form _
  have noDeclaration : Refuses (declared (rule (depth + 1))) d ([' '] ++ functionText title signature_ body ++ after) := by
    refine (sees_opened function_ blank_space).refuses_bind (Refuses.firstOf ?_ (Refuses.last ?_))
    · exact refuses_function isName ⟨_, rfl⟩ unsigned blank_space
    · exact sees_typed.refuses_bind (Refuses.bind (refuses_guarded form))
  have noDefault : Refuses (exportDefault (rule (depth + 1))) d ([' '] ++ functionText title signature_ body ++ after) := by
    refine Refuses.bind (Refuses.bind ?_)
    rw [List.append_assoc]
    refine Refuses.construct (Refuses.seqRight ?_) _ blank_space (function_.solid after)
    exact function_.refuses_word (s := []) blank_nil (by decide) after
  have others : Refuses (exportStatement (rule (depth + 1))) d
      (space ++ exportText false title signature_ body ++ after) := by
    rw [List.append_assoc]
    refine Refuses.construct ?_ _ blank (opens.solid after)
    refine (refuses_decorator _ _ _ _ _).many.refuses_bind ?_
    refine (yields_exportWord false title signature_ body after).refuses_bind fun _ => Refuses.bind ?_
    refine (handedOn fun _ => failure).1.bind.firstOf ((handedOn _).2.firstOf (noDefault.firstOf
      (noDeclaration.bind.firstOf (Refuses.last ?_))))
    exact sees_typed.refuses_bind (Refuses.bind (refuses_guarded form))
  intro c dialect rest
  rw [statement_of_word opens blank rest]
  exact others c dialect rest

end Script

end AnimationCode
