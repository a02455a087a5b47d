/-
**What a function takes and yields.**

A function has one parameter, which binds a name or the parts of an object. In the typed form of the language
a type may stand after the parameter and after the parentheses; the plain form has no place for it.

* `takes_ascription`: a type that is a name;
* `IsTarget`: what a parameter binds;
* `takes_parameters`, `refuses_parameters`: the parameter with or without its type;
* `takes_signature`: the parameter and the type of what is yielded.
-/

import AnimationCode.Proofs.Script.Statement

namespace AnimationCode

namespace Script

open Reader Expression Binding Statement

variable {depth : Nat} {d : Dialect} {space text after : List Char}

/-! ### Types -/

/-- A word that is no more than the name of a type. -/
structure IsTypeName (name : List Char) : Prop extends IsWord name where
  calm : String.ofList name ∉
    ["new", "abstract", "typeof", "import", "asserts", "keyof", "unique", "readonly", "infer"]

/-- What a type ends before: no sign goes on with it. -/
def typeMarks : List (String × String) :=
  [(".", ""), ("<", ""), ("[", ""), ("&", ""), ("|", "")]

theorem refuses_typePrefix {name : List Char} (isTypeName : IsTypeName name) {word : String}
    {next : Reader Unit} (blank : Blank space) (ends_ : EndsName after)
    (known : word ∈ ["keyof", "unique", "readonly", "infer"]) :
    Refuses (Reader.word word *> next) d (space ++ name ++ after) := by
  refine Refuses.seqRight (refuses_otherWord blank isTypeName.toIsWord ends_ ?_)
  rintro rfl
  have calm := isTypeName.calm
  simp only [List.mem_cons, List.not_mem_nil, or_false] at known calm
  rcases known with same | same | same | same <;> simp [same] at calm

theorem takes_reference {rule : Grammar} {name : List Char} (isWord : IsWord name) (blank : Blank space)
    (ends_ : EndsName after) (lacks : Lacks typeMarks after) :
    Takes (Typing.reference rule) d (space ++ name) after fun _ => () := by
  have noPoint : Refuses (sign ".") d after := lacks.refuses_sign (by decide)
  have noAngle : Refuses (sign "<") d after := lacks.refuses_sign (by decide)
  refine ((takes_anyName .typeExpression blank isWord ends_).discard.bind (m := []) (b := fun _ _ => ())
    fun _ => ?_).congr (List.append_nil _) fun _ => rfl
  refine Sees.follows (Sees.bind noPoint.seqRight.many.discard ?_)
  exact noAngle.bind.opt.discard

theorem takes_typePrimary {rule : Grammar} {name : List Char} (isTypeName : IsTypeName name)
    (blank : Blank space) (ends_ : EndsName after) (lacks : Lacks typeMarks after) :
    Takes (Typing.primary rule) d (space ++ name) after fun _ => () := by
  have isWord := isTypeName.toIsWord
  have ahead := sees_upcoming (d := d) blank (isWord.solid after)
  have next := sees_nextWord (d := d) blank (isWord.solid after)
  rw [wordOf_append isWord ends_] at next
  rw [← List.append_assoc] at ahead next
  have reference_ : Takes (Typing.reference rule) d (space ++ name) after fun _ => () :=
    takes_reference isWord blank ends_ lacks
  obtain ⟨c, rest, same, part, digit⟩ : ∃ c rest, name = c :: rest ∧ isNameRest c = true ∧ c.isDigit = false := by
    obtain ⟨all, first, nonempty⟩ := isWord
    cases name with
    | nil => exact absurd rfl nonempty
    | cons c rest => exact ⟨c, rest, rfl, all c List.mem_cons_self, first c rfl⟩
  have calm := isTypeName.calm
  have signs : ∀ e ∈ ['(', '<', '\x7b', '[', '"', '\'', '-', '\x60'], isNameRest e = false := by decide
  have other : c ∉ ['(', '<', '\x7b', '[', '"', '\'', '-', '\x60'] := by
    intro member
    rw [signs c member] at part
    cases part
  refine ahead.takes_bind ?_
  rw [same, List.cons_append]
  split
  case h_9 first =>
    obtain ⟨rfl, -⟩ := List.cons.inj first
    rw [digit, if_neg Bool.false_ne_true, ← same]
    refine next.takes_bind ?_
    split
    case h_5 => exact reference_
    all_goals
      rename_i word
      exact absurd (by rw [word]; decide) calm
  case h_10 first => cases first
  all_goals
    rename_i first
    simp [(List.cons.inj first).1] at other

theorem takes_typeSuffixed {rule : Grammar} {name : List Char} (isTypeName : IsTypeName name)
    (blank : Blank space) (ends_ : EndsName after) (lacks : Lacks typeMarks after) :
    Takes (Typing.suffixed rule) d (space ++ name) after fun _ => () := by
  have prefix_ {next : Reader Unit} {word : String}
      (known : word ∈ ["keyof", "unique", "readonly", "infer"]) :
      Refuses (Reader.word word *> next) d (space ++ name ++ after) :=
    refuses_typePrefix isTypeName blank ends_ known
  have bracket : Refuses (sign "[") d after := lacks.refuses_sign (by decide)
  have broken : ∃ b, Sees lineBreakAhead d after b := by
    obtain ⟨gap, rest, blankGap, solid, -, rfl, -⟩ := lacks
    exact ⟨_, sees_rest.bind ((sees_upcoming blankGap solid).bind (sees_pure _))⟩
  obtain ⟨b, seesBreak⟩ := broken
  unfold Typing.suffixed
  refine Sees.takes_bind (Refuses.many (Refuses.firstOf (prefix_ (by decide)) (Refuses.firstOf
    (prefix_ (by decide)) (Refuses.firstOf (prefix_ (by decide))
      (Refuses.last (prefix_ (by decide))))))).discard ?_
  refine ((takes_typePrimary isTypeName blank ends_ lacks).bind (m := []) (b := fun _ _ => ())
    fun _ => ?_).congr (List.append_nil _) fun _ => rfl
  exact (Refuses.many (seesBreak.refuses_bind (refuses_guarded_bind bracket.bind))).discard.follows

theorem takes_joined {mark : String} {part : Reader Unit} (noMark : Refuses (sign mark) d (text ++ after))
    (takes : Takes part d text after fun _ => ()) (noMore : Refuses (sign mark) d after) :
    Takes (Typing.joined mark part) d text after fun _ => () := by
  refine noMark.opt.discard.takes_bind ?_
  refine (takes.bind (m := []) (b := fun _ _ => ()) fun _ => ?_).congr (List.append_nil _) fun _ => rfl
  exact noMore.seqRight.many.discard.follows

/-- A type that is a name. -/
theorem takes_typing {name : List Char} (isTypeName : IsTypeName name) (blank : Blank space)
    (ends_ : EndsName after) (lacks : Lacks typeMarks after) :
    Takes (rule (depth + 1) .typing) d (space ++ name) after fun n =>
      leaf .typeExpression (n + space.length) name.length := by
  have isWord := isTypeName.toIsWord
  obtain ⟨c, rest, same, part⟩ : ∃ c rest, name = c :: rest ∧ isNameRest c = true := by
    obtain ⟨all, -, nonempty⟩ := isWord
    cases name with
    | nil => exact absurd rfl nonempty
    | cons c rest => exact ⟨c, rest, rfl, all c List.mem_cons_self⟩
  have noSign (mark : String) {e : Char} (mark_ : mark.toList = [e]) (sign_ : isNameRest e = false) :
      Refuses (sign mark) d (name ++ after) := by
    refine refuses_sign (s := []) blank_nil (isWord.solid after) ?_
    rw [mark_, same]
    refine startsWith_cons_of_ne [] (rest ++ after) ?_
    rintro rfl
    rw [sign_] at part
    cases part
  have suffixed_ : Takes (Typing.suffixed (rule depth)) d name after fun _ => () :=
    takes_typeSuffixed isTypeName blank_nil ends_ lacks
  have joined_ : Takes (Typing.joined "|" (Typing.joined "&" (Typing.suffixed (rule depth)))) d name after
      fun _ => () :=
    takes_joined (noSign "|" rfl (by decide)) (takes_joined (noSign "&" rfl (by decide)) suffixed_
      (lacks.refuses_sign (by decide))) (lacks.refuses_sign (by decide))
  have noExtends : Refuses (Reader.word "extends") d after := lacks.refuses_word (by decide)
  have full_ : Takes (Typing.full (rule depth)) d name after fun _ => () :=
    (joined_.bind (m := []) (b := fun _ _ => ()) fun _ => noExtends.bind.opt.discard.follows).congr
      (List.append_nil _) fun _ => rfl
  exact (full_.map fun _ => []).construct .typeExpression blank (isWord.solid after)

theorem takes_ascription {name : List Char} (isTypeName : IsTypeName name) (ends_ : EndsName after)
    (lacks : Lacks typeMarks after) :
    Takes (Typing.ascription (rule (depth + 1))) d ([':'] ++ ([' '] ++ name)) after fun _ => () := by
  have isWord := isTypeName.toIsWord
  have colon : Takes (sign ":") d ([] ++ [':']) ([' '] ++ name ++ after) fun _ => () :=
    takes_sign ":" blank_nil (solid_cons _ (by decide) (by decide))
  have noAsserts : Refuses (Reader.word "asserts") d ([' '] ++ name ++ after) := by
    refine refuses_otherWord blank_space isWord ends_ fun same => ?_
    exact isTypeName.calm (by rw [same]; decide)
  have noTest : Refuses (anyName .typeExpression *> Reader.word "is" *> Typing.anyType (rule (depth + 1))) d
      ([' '] ++ name ++ after) := by
    refine Refuses.seqRight ?_
    exact Takes.refuses_bind (takes_anyName .typeExpression blank_space isWord ends_) fun _ =>
      lacks.refuses_word (by decide)
  have type_ : Takes (Typing.anyType (rule (depth + 1))) d ([' '] ++ name) after fun _ => () :=
    (takes_typing isTypeName blank_space ends_ lacks).discard
  refine colon.bind (b := fun _ _ => ()) fun _ => Takes.follows ?_
  refine Sees.takes_bind (Refuses.opt ?_).discard (Refuses.takes_firstOf ?_ (type_.firstOf []))
  · exact noAsserts.bind
  · exact noTest.discard

/-! ### Parameters -/

/-- The text of a type after a colon, or nothing. -/
def typeText (type? : Option (List Char)) : List Char :=
  match type? with
  | some type => [':'] ++ ([' '] ++ type)
  | none => []

/-- What may stand after a type: a parenthesis or a block. -/
def EndsType (text : List Char) : Prop := ∃ rest, text = ')' :: rest ∨ text = ' ' :: '\x7b' :: rest

namespace EndsType

theorem endsName (endsType : EndsType text) : EndsName text := by
  obtain ⟨rest, rfl | rfl⟩ := endsType <;>
  · rintro c ⟨⟩
    decide

theorem lacks (endsType : EndsType text) {marks : List (String × String)}
    (none_ : ∀ rest, (marks.all fun mark => !begins mark (')' :: rest)) = true ∧
      (marks.all fun mark => !begins mark ('\x7b' :: rest)) = true) : Lacks marks text := by
  obtain ⟨rest, rfl | rfl⟩ := endsType
  · refine lacks_of_all blank_nil (solid_cons rest (by decide) (by decide)) ?_ (none_ rest).1
    rintro c ⟨⟩
    decide
  · refine lacks_of_all blank_space (solid_cons rest (by decide) (by decide)) ?_ (none_ rest).2
    rintro c ⟨⟩
    decide

theorem refuses_sign (endsType : EndsType text) {mark : String} (none_ : ∀ rest,
    begins (mark, "") (')' :: rest) = false ∧ begins (mark, "") ('\x7b' :: rest) = false) :
    Refuses (sign mark) d text := by
  have lacks_ : Lacks [(mark, "")] text := endsType.lacks fun rest => by simp [none_ rest]
  exact lacks_.refuses_sign (List.mem_singleton_self _)

end EndsType

theorem follows_typeText {type? : Option (List Char)} (types : ∀ type ∈ type?, IsTypeName type)
    (endsType : EndsType after) :
    Follows (discard (opt (Typing.ascription (rule (depth + 1))))) d (typeText type?) after fun _ => () := by
  cases type? with
  | none => exact (Refuses.bind (endsType.refuses_sign fun rest => ⟨rfl, rfl⟩)).opt.discard.follows
  | some type =>
    have lacks : Lacks typeMarks after := endsType.lacks fun rest => ⟨rfl, rfl⟩
    exact (takes_ascription (types type rfl) endsType.endsName lacks).opt.discard.follows

/-! ### Parameters -/

theorem endsName_typeText (type? : Option (List Char)) (rest : List Char) :
    EndsName (typeText type? ++ ')' :: rest) := by
  cases type? <;>
  · rintro c ⟨⟩
    decide

theorem refuses_afterParameter (type? : Option (List Char)) {mark : String}
    (none_ : ∀ rest, Text.startsWith mark.toList (')' :: rest) = false ∧
      Text.startsWith mark.toList (':' :: rest) = false) (rest : List Char) :
    Refuses (sign mark) d (typeText type? ++ ')' :: rest) := by
  cases type? with
  | none => exact refuses_sign (s := []) blank_nil (solid_cons _ (by decide) (by decide)) (none_ _).1
  | some type => exact refuses_sign (s := []) blank_nil (solid_cons _ (by decide) (by decide)) (none_ _).2

/-- A text is what a parameter binds, with or without a type after it. -/
structure IsTarget (depth : Nat) (d : Dialect) (target : List Char) (tree : Nat → Node) : Prop where
  opens : ∃ c rest, target = c :: rest ∧ isSpace c = false ∧ c ∉ ['/', '.', '@']
  unmodified : ∀ type? rest, Refuses parameterModifier d (target ++ (typeText type? ++ ')' :: rest))
  takes : ∀ type? rest, Takes (rule (depth + 1) .pattern) d target (typeText type? ++ ')' :: rest) tree

namespace IsTarget

variable {target : List Char} {tree : Nat → Node}

theorem solid (isTarget : IsTarget depth d target tree) (after : List Char) : Solid (target ++ after) := by
  obtain ⟨c, rest, rfl, space, sign_⟩ := isTarget.opens
  refine solid_cons _ space ?_
  rintro rfl
  exact sign_ List.mem_cons_self

theorem refuses_sign (isTarget : IsTarget depth d target tree) {mark : String} {c : Char} {more : List Char}
    (text : mark.toList = c :: more) (sign_ : c ∈ ['.', '@']) (after : List Char) :
    Refuses (sign mark) d (target ++ after) := by
  refine Reader.refuses_sign (s := []) blank_nil (isTarget.solid after) ?_
  obtain ⟨e, rest, rfl, -, other⟩ := isTarget.opens
  rw [text]
  refine startsWith_cons_of_ne more (rest ++ after) ?_
  rintro rfl
  exact other (List.mem_cons_of_mem _ sign_)

theorem refuses_restPattern (isTarget : IsTarget depth d target tree) (after : List Char) :
    Refuses (restPattern (rule (depth + 1))) d (target ++ after) :=
  Refuses.construct (s := []) (isTarget.refuses_sign rfl (by decide) after).bind _ blank_nil (isTarget.solid after)

end IsTarget

/-- The words that may stand before a parameter. -/
def modifierWords : List String := ["public", "private", "protected", "readonly", "override"]

/-- A name that may name a parameter. -/
structure IsParameter (name : List Char) : Prop extends IsName name where
  alone : String.ofList name ∉ modifierWords

theorem isTarget_name {name : List Char} (isParameter : IsParameter name) :
    IsTarget depth d name fun n => leaf .identifier n name.length where
  opens := by
    obtain ⟨c, rest, rfl⟩ := List.exists_cons_of_ne_nil isParameter.nonempty
    have part := isParameter.all c List.mem_cons_self
    have signs : ∀ e ∈ ['/', '.', '@'], isNameRest e = false := by decide
    refine ⟨c, rest, rfl, (isNameRest_iff.mp part).2.1, fun member => ?_⟩
    rw [signs c member] at part
    cases part
  unmodified := by
    intro type? rest
    refine (sees_nextWord (s := []) blank_nil (isParameter.toIsWord.solid _)).refuses_bind
      (Refuses.bind (refuses_guarded ?_))
    rw [wordOf_append isParameter.toIsWord (endsName_typeText type? rest)]
    simpa [modifierWords] using isParameter.alone
  takes := fun type? rest => takes_pattern isParameter.toIsName blank_nil (endsName_typeText type? rest)
    (refuses_afterParameter type? (fun _ => ⟨rfl, rfl⟩) rest).bind
    (refuses_afterParameter type? (fun _ => ⟨rfl, rfl⟩) rest)

variable {target : List Char} {tree : Nat → Node}

/-- The parameter in the typed form of the language. -/
theorem follows_parameterRest {type? : Option (List Char)} (types : ∀ type ∈ type?, IsTypeName type)
    (target : Node) (rest : List Char) :
    Follows (do
      discard (opt (sign "?"))
      discard (opt (Typing.ascription (rule (depth + 1))))
      let value ← maybe (initializer (rule (depth + 1)) false)
      return target :: value) d (typeText type?) (')' :: rest) fun _ => [target] := by
  have noMark : Refuses (sign "?") d (typeText type? ++ ')' :: rest) :=
    refuses_afterParameter type? (fun _ => ⟨rfl, rfl⟩) rest
  have noValue : Refuses (initializer (rule (depth + 1)) false) d (')' :: rest) :=
    Refuses.bind (refuses_signBut (s := []) blank_nil (solid_cons rest (by decide) (by decide)) rfl)
  refine noMark.opt.discard.follows_bind ?_
  refine ((follows_typeText types ⟨rest, Or.inl rfl⟩).bind (m := []) (b := fun _ _ => [target])
    fun _ => ?_).congr (List.append_nil _) fun _ => rfl
  exact (noValue.maybe.bind (sees_pure [target])).follows

/-- The parameter in the plain form of the language, which ends before a type. -/
theorem takes_plainParameter (isTarget : IsTarget depth d target tree) (type? : Option (List Char))
    (rest : List Char) :
    Takes (firstOf [
      do return [← restPattern (rule (depth + 1))],
      do return [← withDefault (rule (depth + 1)) .assignmentPattern (← rule (depth + 1) .pattern)]]) d
      target (typeText type? ++ ')' :: rest) fun n => [tree n] := by
  have noValue : Refuses (initializer (rule (depth + 1)) false) d (typeText type? ++ ')' :: rest) :=
    (refuses_afterParameter type? (fun _ => ⟨rfl, rfl⟩) rest).bind.bind
  have valued (node : Node) : Sees (withDefault (rule (depth + 1)) .assignmentPattern node) d
      (typeText type? ++ ')' :: rest) node := noValue.opt.bind (sees_pure node)
  have noRest := isTarget.refuses_restPattern (typeText type? ++ ')' :: rest)
  refine noRest.bind.takes_firstOf (Takes.firstOf ?_ [])
  refine ((isTarget.takes type? rest).bind (m := []) (b := fun n _ => [tree n]) fun n => ?_).congr
    (List.append_nil _) fun _ => rfl
  exact ((valued (tree n)).bind (sees_pure [tree n])).follows

theorem takes_parameter (isTarget : IsTarget depth d target tree) {type? : Option (List Char)}
    (types : ∀ type ∈ type?, IsTypeName type) (form : type?.isSome = true → d.typed = true)
    (rest : List Char) :
    Takes (parameter (rule (depth + 1))) d (target ++ typeText type?) (')' :: rest) fun n => [tree n] := by
  refine sees_typed.takes_bind ?_
  split
  · have noDecorator : Refuses (decorator (rule (depth + 1))) d (target ++ typeText type? ++ ')' :: rest) := by
      rw [List.append_assoc]
      exact Refuses.construct (s := []) (isTarget.refuses_sign rfl (by decide) _).bind _ blank_nil (isTarget.solid _)
    have noModifier : Refuses parameterModifier d (target ++ typeText type? ++ ')' :: rest) := by
      rw [List.append_assoc]
      exact isTarget.unmodified type? rest
    have target_ : Takes (firstOf [restPattern (rule (depth + 1)), rule (depth + 1) .pattern,
        construct .identifier (word "this" *> pure [])]) d target (typeText type? ++ ')' :: rest) tree :=
      (isTarget.refuses_restPattern _).takes_firstOf ((isTarget.takes type? rest).firstOf _)
    refine noDecorator.many.takes_bind (noModifier.many.discard.takes_bind ?_)
    exact target_.bind (b := fun n _ => [tree n]) fun n => follows_parameterRest types _ rest
  · rename_i plain
    have none_ : type? = none := by
      cases type? with
      | none => rfl
      | some type => exact absurd (form rfl) plain
    subst none_
    exact (takes_plainParameter isTarget none rest).congr (List.append_nil target).symm fun _ => rfl

/-- The text of a parameter in parentheses, with its type or without. -/
def parameterText (target : List Char) (type? : Option (List Char)) : List Char :=
  '(' :: (target ++ typeText type? ++ [')'])

theorem takes_parameters (isTarget : IsTarget depth d target tree) {type? : Option (List Char)}
    (types : ∀ type ∈ type?, IsTypeName type) (form : type?.isSome = true → d.typed = true)
    (after : List Char) :
    Takes (parameters (rule (depth + 1))) d (parameterText target type?) after fun n => [tree (n + 1)] := by
  have solidClose : Solid ([')'] ++ after) := solid_cons after (by decide) (by decide)
  have noComma : Refuses (sign ",") d ([')'] ++ after) := refuses_sign (s := []) blank_nil solidClose rfl
  have open_ : Takes (sign "(") d ([] ++ ['(']) (target ++ typeText type? ++ [')'] ++ after) fun _ => () :=
    takes_sign "(" blank_nil (solid_cons _ (by decide) (by decide))
  have close_ : Takes (sign ")") d ([] ++ [')']) after fun _ => () := takes_sign ")" blank_nil solidClose
  have items : Takes (opt (commaList1 (parameter (rule (depth + 1))))) d (target ++ typeText type?)
      ([')'] ++ after) fun n => some [tree n] :=
    ((takes_parameter isTarget types form after).commaList1 noComma).opt
  have inside : Takes (do
      let items ← opt (commaList1 (parameter (rule (depth + 1))))
      if items.isSome then discard (opt (sign ","))
      sign ")"
      return items.getD []) d (target ++ typeText type? ++ [')']) after fun n => [tree n] := by
    refine items.bind (b := fun n _ => [tree n]) fun n => ?_
    exact noComma.opt.discard.follows_bind (close_.map fun _ => _).follows
  exact open_.bind (b := fun _ m => [tree m]) fun _ => inside.follows

/-- In the plain form of the language no type stands after a parameter. -/
theorem refuses_parameters (isTarget : IsTarget depth d target tree) (type : List Char)
    (form : d.typed = false) (after : List Char) :
    Refuses (parameters (rule (depth + 1))) d (parameterText target (some type) ++ after) := by
  have other (mark : String) (none_ : ∀ rest, Text.startsWith mark.toList (')' :: rest) = false ∧
      Text.startsWith mark.toList (':' :: rest) = false) :
      Refuses (sign mark) d (typeText (some type) ++ ')' :: after) :=
    refuses_afterParameter (some type) none_ after
  have parameter_ : Takes (parameter (rule (depth + 1))) d target (typeText (some type) ++ ')' :: after)
      fun n => [tree n] := by
    refine sees_typed.takes_bind ?_
    rw [form, if_neg Bool.false_ne_true]
    exact takes_plainParameter isTarget (some type) after
  have items := (parameter_.commaList1 (other "," fun _ => ⟨rfl, rfl⟩)).opt
  have open_ : Takes (sign "(") d ([] ++ ['(']) (target ++ (typeText (some type) ++ ')' :: after))
      fun _ => () := takes_sign "(" blank_nil (solid_cons _ (by decide) (by decide))
  have text : parameterText target (some type) ++ after =
      [] ++ ['('] ++ (target ++ (typeText (some type) ++ ')' :: after)) := by simp [parameterText]
  rw [text]
  refine open_.refuses_bind fun _ => items.refuses_bind fun n => ?_
  have noClose : Refuses (sign ")") d (typeText (some type) ++ ')' :: after) :=
    refuses_sign (s := []) blank_nil (solid_cons _ (by decide) (by decide)) rfl
  exact (other "," fun _ => ⟨rfl, rfl⟩).opt.discard.refuses_bind noClose.bind

/-! ### Signatures -/

/-- The text of a parameter in parentheses and of what the function yields, with their types or without. -/
def signatureText (target : List Char) (type? result? : Option (List Char)) : List Char :=
  parameterText target type? ++ typeText result?

theorem takes_signature (isTarget : IsTarget depth d target tree) {type? result? : Option (List Char)}
    (types : ∀ type ∈ type?, IsTypeName type) (results : ∀ result ∈ result?, IsTypeName result)
    (form : type?.isSome = true ∨ result?.isSome = true → d.typed = true) (endsType : EndsType after) :
    Takes (callSignature (rule (depth + 1))) d (signatureText target type? result?) after fun n =>
      [tree (n + 1)] := by
  have angle : Refuses (Typing.parameters (rule (depth + 1))) d (signatureText target type? result? ++ after) :=
    Refuses.bind (refuses_sign (s := []) blank_nil (solid_cons _ (by decide) (by decide)) rfl)
  have parameters_ : Takes (parameters (rule (depth + 1))) d (parameterText target type?)
      (typeText result? ++ after) fun n => [tree (n + 1)] :=
    takes_parameters isTarget types (fun some_ => form (Or.inl some_)) _
  refine sees_typed.takes_bind ?_
  split
  · refine angle.opt.discard.takes_bind ?_
    refine parameters_.bind (b := fun n _ => [tree (n + 1)]) fun n => ?_
    refine ((follows_typeText results endsType).bind (m := []) (b := fun _ _ => [tree (n + 1)]) fun _ =>
      (sees_pure _).follows).congr (List.append_nil _) fun _ => rfl
  · rename_i plain
    have none_ : result? = none := by
      cases result? with
      | none => rfl
      | some result => exact absurd (form (Or.inr rfl)) plain
    subst none_
    exact parameters_.congr (List.append_nil _).symm fun _ => rfl

end Script

end AnimationCode
