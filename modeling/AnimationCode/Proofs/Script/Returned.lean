/-
**Markup that a function returns.**

The markup stands in parentheses behind the word of a return. A parenthesis and an angle bracket may both
begin a function, which is looked for first and is none here.

* `yields_single_of_primary`: an operand that nothing goes on with, as an expression;
* `Markup.Derives.beginsNoFunction`: an element is no function;
* `isRead_return`: the statement that returns an element in parentheses.
-/

import AnimationCode.Proofs.Script.Element
import AnimationCode.Proofs.Script.Program

namespace AnimationCode

namespace Script

open Reader Expression Binding

variable {g : Grammar} {depth : Nat} {d : Dialect} {ends : Bool} {space text after : List Char}

/-! ### Expressions -/

/-- An operand that a sign begins and nothing goes on with is an expression. -/
theorem yields_single_of_primary {Fits : Nat → Node → Prop} {c : Char} {rest : List Char} (blank : Blank space)
    (opening : IsOpening c) (bracket : c ∉ ['[', '\x7b'])
    (yields : Yields (primary g ends) d (space ++ c :: rest) after Fits) (stops : Stops after) :
    Yields (single g ends) d (space ++ c :: rest) after Fits := by
  obtain ⟨other, plain, sign⟩ := opening
  have isPlain : IsPlain (c :: rest ++ after) := isPlain_of_first _ other plain sign
  have ahead := sees_upcoming (d := d) blank isPlain.solid
  have next := sees_nextWord (d := d) blank isPlain.solid
  rw [← List.append_assoc] at ahead next
  rw [List.cons_append, wordOf_of_first _ other] at next
  have suffixed_ : Yields (suffixed g ends) d (space ++ c :: rest) after Fits :=
    yields.seen (sees_suffixes stops.suffix)
  have operand_ : Yields (operand g ends) d (space ++ c :: rest) after Fits := by
    intro cursor dialect same
    rw [operand_of_plain blank isPlain (by rw [same, List.append_assoc])]
    exact suffixed_ cursor dialect same
  have conditional_ : Yields (conditional g ends) d (space ++ c :: rest) after Fits :=
    (operand_.seen (sees_operators stops.operator)).seen (sees_branches (refuses_branches stops.question))
  refine ahead.yields_bind ?_
  split
  · rename_i first
    rw [(List.cons.inj first).1] at bracket
    exact absurd List.mem_cons_self bracket
  · rename_i first
    rw [(List.cons.inj first).1] at bracket
    exact absurd (by decide) bracket
  · refine next.yields_bind ?_
    rw [if_neg (by decide)]
    exact conditional_.seen (sees_assignmentTo stops.assignment)

theorem yields_sequence {Fits : Nat → Node → Prop}
    (yields : Yields (g (.expression ends)) d text after Fits) (noComma : Refuses (sign ",") d after) :
    Yields (sequence g ends) d text after Fits := by
  refine yields.seen fun first => ?_
  exact Sees.bind noComma.seqRight.many (sees_pure first)

/-! ### Functions that are none -/

/-- No signature begins with a sign that is neither a parenthesis nor an angle bracket. -/
theorem refuses_callSignature (noTypes : d.typed = true → Refuses (Typing.parameters g) d text)
    (noParameters : Refuses (parameters g) d text) : Refuses (callSignature g) d text := by
  refine sees_typed.refuses_bind ?_
  split
  · rename_i typed
    exact (noTypes typed).opt.discard.refuses_bind noParameters.bind
  · exact noParameters

theorem refuses_fullArrow (blank : Blank space) (solid : Solid text)
    (refuses : Refuses (callSignature g) d text) : Refuses (fullArrow g ends) d (space ++ text) :=
  Refuses.construct refuses.bind _ blank solid

/-- A text begins no function wherever it stands. -/
def BeginsNoFunction (text : List Char) : Prop :=
  ∀ (g : Grammar) (ends : Bool) (d : Dialect) (space after : List Char), Blank space →
    Refuses (fullArrow g ends) d (space ++ text ++ after)

theorem refuses_parameters_angle (rest : List Char) : Refuses (parameters g) d ('<' :: rest) :=
  (refuses_sign (s := []) blank_nil (solid_cons rest (by decide) (by decide)) rfl).bind

/-- A text at which the parameter of a type is over. -/
def EndsTypeParameter (text : List Char) : Prop := Lacks [("=", "=>"), (",", "")] text ∧ EndsName text

/-- A name that nothing is said about, as the parameter of a type. -/
theorem takes_typeParameter {name : List Char} (isName : IsName name) (ended : EndsTypeParameter after) :
    Takes (do
      Typing.quietly (opt (word "const"))
      Typing.quietly (Reader.name .typeExpression)
      Typing.quietly (opt (word "extends" *> Typing.anyType g))
      Typing.quietly (opt (signBut "=" "=>" *> Typing.anyType g))
      return ([] : List Node)) d name after fun _ => [] := by
  obtain ⟨lacks, ends_⟩ := ended
  have notConst : Refuses (word "const") d (name ++ after) := by
    refine refuses_otherWord (s := []) blank_nil isName.toIsWord ends_ fun same => isName.free ?_
    rw [same]
    decide
  have name_ : Takes (Reader.name .typeExpression) d name after fun n => leaf .typeExpression n name.length :=
    takes_name (s := []) .typeExpression blank_nil isName ends_
  have noBound : Refuses (word "extends" *> Typing.anyType g) d after :=
    (lacks.refuses_word (by decide)).seqRight
  have noDefault : Refuses (signBut "=" "=>" *> Typing.anyType g) d after :=
    (lacks.refuses_signBut (by decide)).seqRight
  refine notConst.opt.discard.takes_bind ?_
  refine (name_.discard.bind (m := []) (b := fun _ _ => []) fun _ => ?_).congr (List.append_nil _) fun _ => rfl
  exact (noBound.opt.discard.bind (noDefault.opt.discard.bind (sees_pure []))).follows

theorem takes_angle (after : List Char) : Takes (sign "<") d ['<'] after fun _ => () :=
  takes_sign (s := []) "<" blank_nil (solid_cons _ (by decide) (by decide))

/-- A tag whose name is a member. -/
theorem beginsNoFunction_member {name : List Char} (isName : IsName name) (rest : List Char) :
    BeginsNoFunction ('<' :: (name ++ '.' :: rest)) := by
  intro g ends d space after blank
  rw [List.append_assoc]
  refine refuses_fullArrow blank (solid_cons _ (by decide) (by decide)) ?_
  refine refuses_callSignature (fun _ => ?_) (refuses_parameters_angle _)
  have point : Solid ('.' :: rest ++ after) := solid_cons _ (by decide) (by decide)
  have ends_ : EndsName ('.' :: rest ++ after) := endsName_of_head? rfl (by decide)
  have ended : EndsTypeParameter ('.' :: rest ++ after) :=
    ⟨lacks_of_all (s := []) blank_nil point ends_ rfl, ends_⟩
  have noComma : Refuses (sign ",") d ('.' :: rest ++ after) := refuses_sign (s := []) blank_nil point rfl
  have noClose : Refuses (sign ">") d ('.' :: rest ++ after) := refuses_sign (s := []) blank_nil point rfl
  have title := ((takes_typeParameter (g := g) (d := d) isName ended).commaList1 noComma).discard
  rw [List.cons_append, List.append_assoc]
  exact (takes_angle _).refuses_bind fun _ => title.refuses_bind fun _ =>
    noComma.opt.discard.refuses_bind noClose

/-- A tag that has a name only is taken for the parameters of a type, which no parenthesis follows. -/
theorem beginsNoFunction_plain {name : List Char} (isName : IsName name)
    (noParenthesis : ∀ d after, Refuses (sign "(") d (text ++ after)) :
    BeginsNoFunction ('<' :: (name ++ '>' :: text)) := by
  intro g ends d space after blank
  rw [List.append_assoc]
  refine refuses_fullArrow blank (solid_cons _ (by decide) (by decide)) (sees_typed.refuses_bind ?_)
  have angle : Solid ('>' :: (text ++ after)) := solid_cons _ (by decide) (by decide)
  have ends_ : EndsName ('>' :: (text ++ after)) := endsName_of_head? rfl (by decide)
  have ended : EndsTypeParameter ('>' :: (text ++ after)) :=
    ⟨lacks_of_all (s := []) blank_nil angle ends_ rfl, ends_⟩
  have noComma : Refuses (sign ",") d ('>' :: (text ++ after)) := refuses_sign (s := []) blank_nil angle rfl
  have close_ : Takes (sign ">") d ['>'] (text ++ after) fun _ => () :=
    takes_sign (s := []) ">" blank_nil angle
  have title := ((takes_typeParameter (g := g) (d := d) isName ended).commaList1 noComma).discard
  have types : Takes (Typing.parameters g) d (['<'] ++ (name ++ ['>'])) (text ++ after) fun _ => () := by
    refine (takes_angle _).bind (b := fun _ _ => ()) fun _ => ?_
    refine (title.bind (b := fun _ _ => ()) fun _ => ?_).follows
    exact (noComma.opt.discard.takes_bind (a := ()) close_).follows
  have text_ : '<' :: (name ++ '>' :: text) ++ after = ['<'] ++ (name ++ ['>']) ++ (text ++ after) := by simp
  rw [text_]
  split
  · exact types.opt.discard.refuses_bind fun _ => (noParenthesis d after).bind.bind
  · exact refuses_parameters_angle _

/-- A tag without a name. -/
theorem beginsNoFunction_fragment (rest : List Char) : BeginsNoFunction ('<' :: '>' :: rest) := by
  intro g ends d space after blank
  rw [List.append_assoc]
  refine refuses_fullArrow blank (solid_cons _ (by decide) (by decide)) ?_
  refine refuses_callSignature (fun _ => ?_) (refuses_parameters_angle _)
  have angle : Solid ('>' :: rest ++ after) := solid_cons _ (by decide) (by decide)
  have ends_ : EndsName ('>' :: rest ++ after) := endsName_of_head? rfl (by decide)
  have notConst : Refuses (word "const") d ('>' :: rest ++ after) :=
    refuses_word (s := []) blank_nil angle fun same => absurd ((wordOf_of_ends ends_).symm.trans same) (by decide)
  have noName : Refuses (Reader.name .typeExpression) d ('>' :: rest ++ after) :=
    refuses_name (s := []) blank_nil angle (Or.inr ends_)
  refine (takes_angle _).refuses_bind fun _ => Refuses.bind (Refuses.discard ?_)
  exact Refuses.bind (notConst.opt.discard.refuses_bind noName.discard.bind)

/-- Where content and the closing tag behind it begin. -/
def OpensContent (text : List Char) : Prop :=
  text = [] ∨ ∃ gap c rest, text = gap ++ c :: rest ∧ Blank gap ∧ (c = '<' ∨ c = '\x7b')

theorem OpensContent.refuses_parenthesis (opens : OpensContent text) {gap : List Char} (blank : Blank gap)
    (rest : List Char) : Refuses (sign "(") d (text ++ (gap ++ '<' :: rest)) := by
  obtain rfl | ⟨space, c, more, rfl, blankSpace, rfl | rfl⟩ := opens
  · rw [List.nil_append]
    exact refuses_sign blank (solid_cons rest (by decide) (by decide)) rfl
  · rw [List.append_assoc]
    exact refuses_sign blankSpace (solid_cons _ (by decide) (by decide)) rfl
  · rw [List.append_assoc]
    exact refuses_sign blankSpace (solid_cons _ (by decide) (by decide)) rfl

open Script.Markup (IsGap IsMemberName TagText enclosedText closingText)

theorem beginsNoFunction_head {tag : TagText} (isMember : IsMemberName tag.name) (rest : List Char) :
    BeginsNoFunction (tag.head ++ rest) := by
  obtain ⟨base, part, name, isBase, -⟩ := isMember
  have text_ : tag.head ++ rest = '<' :: (base ++ '.' :: (part ++ (Markup.attributesText tag.gap tag.items ++ rest))) := by
    simp [TagText.head, name]
  rw [text_]
  exact beginsNoFunction_member isBase.toIsName _

/-- How a derived text begins: an element with an angle bracket, but with no function. -/
def Markup.Shape.Begins : Markup.Shape → List Char → Prop
  | .element, text => (∃ rest, text = '<' :: rest) ∧ BeginsNoFunction text
  | .content, text => OpensContent text

theorem Markup.Derives.begins {shape : Markup.Shape} {Fits : Nat → List Node → Prop} (derives : Markup.Derives shape text Fits) :
    shape.Begins text := by
  induction derives with
  | selfClosing isMember derived => exact ⟨⟨_, rfl⟩, beginsNoFunction_head isMember _⟩
  | enclosed isMember derived content isGap ih =>
    refine ⟨⟨_, rfl⟩, ?_⟩
    rw [TagText.around, enclosedText, List.append_assoc]
    exact beginsNoFunction_head isMember _
  | @wrapper name inside gap Inside isTagWord content isGap ih =>
    refine ⟨⟨_, rfl⟩, ?_⟩
    have text_ : enclosedText ('<' :: name) [] inside gap name = '<' :: (name ++ '>' :: (inside ++ closingText gap name)) := by
      simp [enclosedText]
    rw [text_]
    refine beginsNoFunction_plain isTagWord.toIsName fun d after => ?_
    rw [closingText, List.append_assoc, List.append_assoc]
    exact OpensContent.refuses_parenthesis ih isGap.blank _
  | fragment content isGap ih => exact ⟨⟨_, rfl⟩, beginsNoFunction_fragment _⟩
  | nothing => exact Or.inl rfl
  | @child gap text more Here Later isGap element content ihElement ihContent =>
    obtain ⟨⟨rest, rfl⟩, -⟩ := ihElement
    exact Or.inr ⟨gap, '<', rest ++ more, by simp, isGap.blank, Or.inl rfl⟩
  | @slot gap name more Later isGap isIdentifier content ih =>
    exact Or.inr ⟨gap, '\x7b', name ++ ['\x7d'] ++ more, by simp [Markup.bracedText], isGap.blank, Or.inr rfl⟩
  | weaken derives weaker ih => exact ih

/-- An element is no function, though one may begin with an angle bracket. -/
theorem Markup.Derives.beginsNoFunction {Fits : Nat → List Node → Prop} (derives : Markup.Derives .element text Fits) :
    BeginsNoFunction text := derives.begins.2

/-! ### Markup in parentheses -/

variable {Fits : Nat → List Node → Prop}

/-- Markup as an expression. -/
theorem yields_single_of_markup (isRead : Markup.Shape.element.IsRead depth d text Fits)
    (noFunction : BeginsNoFunction text) (form : d.markup = true) (blank : Blank space) (stops : Stops after) :
    Yields (single (rule depth) ends) d (space ++ text) after fun n node => Fits (n + space.length) [node] := by
  obtain ⟨⟨c, rest, same, other⟩, yields⟩ := isRead
  have solid : Solid (text ++ after) := by
    rw [same]
    exact solid_cons _ (by decide) (by decide)
  have element_ := yields space after blank
  have arrow : Refuses (do
      guarded (← typed)
      fullArrow (rule depth) ends) d (space ++ text ++ after) :=
    sees_typed.refuses_bind (refuses_guarded_bind (noFunction _ _ d space after blank))
  have primary_ : Yields (primary (rule depth) ends) d (space ++ text) after fun n node =>
      Fits (n + space.length) [node] := by
    have ahead := sees_upcoming (d := d) blank solid
    rw [← List.append_assoc] at ahead
    refine ahead.yields_bind ?_
    subst same
    refine sees_markup.yields_bind ?_
    rw [if_pos form]
    exact arrow.yields_firstOf (element_.firstOf [])
  subst same
  exact yields_single_of_primary blank ⟨Or.inl (by decide), by decide, by decide⟩ (by decide) primary_ stops

/-- The text of markup on lines of its own in parentheses. -/
def parenthesizedText (gap text close : List Char) : List Char := ['('] ++ (gap ++ text ++ (close ++ [')']))

/-- The node of markup in parentheses. -/
def IsParenthesized (gap text close : List Char) (Fits : Nat → List Node → Prop) : Nat → Node → Prop :=
  Covers .parenthesized (parenthesizedText gap text close) fun n nodes => ∃ node, nodes = [node] ∧
    Fits (n + 1 + gap.length) nodes

theorem yields_parenthesized (isRead : Markup.Shape.element.IsRead depth d text Fits)
    (noFunction : BeginsNoFunction text) (form : d.markup = true) {gap close : List Char} (blank : Blank space)
    (blankGap : Blank gap) (blankClose : Blank close) :
    Yields (parenthesized (rule (depth + 2))) d (space ++ parenthesizedText gap text close) after fun n =>
      IsParenthesized gap text close Fits (n + space.length) := by
  have solid (more : List Char) : Solid (')' :: more) := solid_cons more (by decide) (by decide)
  have opens : Solid (text ++ (close ++ [')']) ++ after) := by
    obtain ⟨⟨c, rest, same, -⟩, -⟩ := isRead
    rw [same]
    exact solid_cons _ (by decide) (by decide)
  have open_ : Yields (sign "(") d ([] ++ ['(']) (gap ++ text ++ (close ++ [')']) ++ after) Anything :=
    yields_sign "(" blank_nil (solid_cons _ (by decide) (by decide)) (by simp)
  have close_ : Yields (sign ")") d (close ++ [')']) after Anything :=
    yields_sign ")" blankClose (solid after) (by simp)
  have stops : Stops (close ++ [')'] ++ after) := ⟨close, ')', after, blankClose, by decide, by simp⟩
  have noComma : Refuses (sign ",") d (close ++ [')'] ++ after) := by
    rw [List.append_assoc]
    exact refuses_sign blankClose (solid after) rfl
  have inside : Yields (rule (depth + 2) (.sequence false)) d (gap ++ text) (close ++ [')'] ++ after) fun n node =>
      Fits (n + gap.length) [node] :=
    yields_sequence (yields_single_of_markup isRead noFunction form blankGap stops) noComma
  have noType : Refuses (Typing.ascription (rule (depth + 2))) d (close ++ [')'] ++ after) := by
    rw [List.append_assoc]
    exact (refuses_sign blankClose (solid after) rfl).bind
  have rest_ (node : Node) : Yields (do
      if ← typed then discard (opt (Typing.ascription (rule (depth + 2))))
      sign ")"
      return [node]) d (close ++ [')']) after fun _ nodes => nodes = [node] := by
    refine sees_typed.yields_bind ?_
    have ending : Yields (sign ")" >>= fun _ => pure [node]) d (close ++ [')']) after fun _ nodes => nodes = [node] :=
      close_.map _ fun _ _ _ => rfl
    split
    · exact noType.opt.discard.yields_bind ending
    · exact ending
  refine Yields.construct ?_ .parenthesized blank (solid_cons _ (by decide) (by decide)) (List.cons_ne_nil _ _)
  refine open_.bind fun n _ _ => inside.bind fun m node fits => (rest_ node).mono fun k nodes same _ start_ => ?_
  subst same start_
  exact ⟨node, rfl, fits⟩

/-- Markup in parentheses is no parameter of a function. -/
theorem refuses_fullArrow_parenthesized (opens : ∃ c rest, text = '<' :: c :: rest) {gap close : List Char}
    (blank : Blank space) (blankGap : Blank gap) (after : List Char) :
    Refuses (fullArrow (rule depth) ends) d (space ++ parenthesizedText gap text close ++ after) := by
  obtain ⟨c, rest, rfl⟩ := opens
  have open_ : Takes (sign "(") d ([] ++ ['(']) (gap ++ '<' :: (c :: rest ++ (close ++ [')'] ++ after))) fun _ => () :=
    takes_sign "(" blank_nil (solid_cons _ (by decide) (by decide))
  have angle (more : List Char) : Solid ('<' :: more) := solid_cons more (by decide) (by decide)
  have noParameter : Refuses (parameter (rule depth)) d (gap ++ '<' :: (c :: rest ++ (close ++ [')'] ++ after))) :=
    refuses_parameter depth (lacks_of_all blankGap (angle _) (endsName_of_head? rfl (by decide)) rfl)
  have noClose : Refuses (sign ")") d (gap ++ '<' :: (c :: rest ++ (close ++ [')'] ++ after))) :=
    refuses_sign blankGap (angle _) rfl
  have text_ : parenthesizedText gap ('<' :: c :: rest) close ++ after =
      '(' :: (gap ++ '<' :: (c :: rest ++ (close ++ [')'] ++ after))) := by simp [parenthesizedText]
  rw [List.append_assoc, text_]
  refine refuses_fullArrow blank (solid_cons _ (by decide) (by decide)) (refuses_callSignature (fun _ => ?_) ?_)
  · exact (refuses_sign (s := []) blank_nil (solid_cons _ (by decide) (by decide)) rfl).bind
  · exact open_.refuses_bind fun _ => noParameter.bind.opt.refuses_bind noClose.bind

/-- Markup in parentheses as an expression. -/
theorem yields_single_of_parenthesized (isRead : Markup.Shape.element.IsRead depth d text Fits)
    (noFunction : BeginsNoFunction text) (form : d.markup = true) {gap close : List Char} (blank : Blank space)
    (blankGap : Blank gap) (blankClose : Blank close) (stops : Stops after) :
    Yields (single (rule (depth + 2)) ends) d (space ++ parenthesizedText gap text close) after fun n =>
      IsParenthesized gap text close Fits (n + space.length) := by
  obtain ⟨c, rest, same, -⟩ := isRead.1
  have inside := @yields_parenthesized _ _ space text after Fits isRead noFunction form gap close blank blankGap blankClose
  have noArrow : Refuses (fullArrow (rule (depth + 2)) ends) d (space ++ parenthesizedText gap text close ++ after) :=
    refuses_fullArrow_parenthesized ⟨c, rest, same⟩ blank blankGap after
  have solid : Solid (parenthesizedText gap text close ++ after) := solid_cons _ (by decide) (by decide)
  have ahead := sees_upcoming (d := d) blank solid
  rw [← List.append_assoc] at ahead
  refine yields_single_of_primary blank ⟨Or.inl (by decide), by decide, by decide⟩ (by decide) ?_ stops
  exact ahead.yields_bind (noArrow.yields_firstOf (inside.firstOf []))

/-! ### The statement -/

/-- The text of a statement that returns markup. -/
def returnText (gap text close : List Char) : List Char :=
  "return".toList ++ ([' '] ++ parenthesizedText gap text close ++ [';'])

/-- The node of a statement that returns markup. -/
def IsReturn (gap text close : List Char) (Fits : Nat → List Node → Prop) : Nat → Node → Prop :=
  Covers .returnStatement (returnText gap text close) fun n nodes => ∃ value, nodes = [value] ∧
    IsParenthesized gap text close Fits (n + 7) value

theorem opensWith_return (gap text close : List Char) : OpensWith "return" (returnText gap text close) :=
  ⟨_, rfl, isWord_of_check rfl, by simp, endsName_of_head? rfl (by decide)⟩

theorem statementEnds_parenthesis (typed : Bool) (rest : List Char) :
    statementEnds typed false (' ' :: '(' :: rest) = false := by
  cases typed <;> rfl

theorem yields_return (isRead : Markup.Shape.element.IsRead depth d text Fits) (noFunction : BeginsNoFunction text)
    (form : d.markup = true) {gap close : List Char} (blank : Blank space) (blankGap : Blank gap)
    (blankClose : Blank close) :
    Yields (rule (depth + 5) .statement) d (space ++ returnText gap text close) after fun n =>
      IsReturn gap text close Fits (n + space.length) := by
  have opens := opensWith_return gap text close
  have isWord : IsWord "return".toList := isWord_of_check rfl
  have semicolon_ : Solid (';' :: after) := solid_cons after (by decide) (by decide)
  have keyword : Yields (word "return") d ([] ++ "return".toList)
      ([' '] ++ parenthesizedText gap text close ++ [';'] ++ after) Anything :=
    yields_word "return" blank_nil isWord (endsName_of_head? rfl (by decide))
  have goesOn : Sees (endsHere false) d ([' '] ++ parenthesizedText gap text close ++ [';'] ++ after) false := by
    have ended_ := statementEnds_parenthesis d.typed (gap ++ text ++ (close ++ [')']) ++ [';'] ++ after)
    intro c dialect rest
    rw [sees_endsHere false c dialect rest]
    exact congrArg (fun ended => some (ended, c)) ended_
  have value : Yields (rule (depth + 4) (.sequence true)) d ([' '] ++ parenthesizedText gap text close)
      ([';'] ++ after) fun n => IsParenthesized gap text close Fits (n + 1) :=
    yields_sequence (yields_single_of_parenthesized isRead noFunction form blank_space blankGap blankClose
      (stops_of_closer (by decide) after)) (refuses_comma_semicolon after)
  have end_ (afterOperand : Bool) : Yields (semicolon afterOperand) d [';'] after Anything :=
    (takes_semicolon (statementEnds_suffix (by decide) _ _ _)).yields (List.cons_ne_nil _ _) fun _ => trivial
  refine yields_statement opens blank (Yields.firstOf ?_ _)
  refine (sees_opened opens blank).yields_bind ?_
  refine Yields.construct ?_ .returnStatement blank (opens.solid after) (List.cons_ne_nil _ _)
  refine keyword.bind fun n _ _ => goesOn.yields_bind ?_
  rw [if_neg Bool.false_ne_true]
  refine value.maybe.bind fun m nodes fits => (end_ _).map _ fun k _ _ _ start_ => ?_
  obtain ⟨node, rfl, fits⟩ := fits
  subst start_
  exact ⟨node, rfl, fits⟩

/-- A statement that returns markup, among others. -/
theorem isRead_return (derives : Markup.Derives .element text Fits) (form : d.markup = true) {gap close : List Char}
    (blank : Blank space) (blankGap : Blank gap) (blankClose : Blank close) (enough : 4 * text.length ≤ depth) :
    Part.IsRead (depth + 5) d ⟨space, returnText gap text close, IsReturn gap text close Fits⟩ where
  blank := blank
  opens := ⟨"return", opensWith_return gap text close, by decide⟩
  yields := fun _ _ => yields_return (derives.isRead enough) derives.beginsNoFunction form blank blankGap blankClose

end Script

end AnimationCode
