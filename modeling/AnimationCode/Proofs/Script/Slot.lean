/-
**A component that takes what stands inside it.**

The parameter of the component is an object, from which one property is taken by its name. In the typed form of
the language an interface says what the property is.

* `isTarget_shorthand`: the property as what a parameter binds;
* `isRead_interface`: the interface.
-/

import AnimationCode.Proofs.Script.Program
import AnimationCode.Proofs.Script.Signature

namespace AnimationCode

namespace Script

open Reader Binding Statement

variable {depth : Nat} {d : Dialect} {space after : List Char}

/-! ### A property of the parameter -/

/-- The text of a pattern that takes one property by its name. -/
def shorthandText (name : List Char) : List Char := ['\x7b'] ++ ([' '] ++ name ++ [' ', '\x7d'])

/-- The node of a pattern that takes one property by its name. -/
def shorthandNode (name : List Char) (n : Nat) : Node :=
  .mk .otherPattern .plain ⟨n, n + (shorthandText name).length⟩ [leaf .shorthandPattern (n + 2) name.length]

theorem takes_objectEntry {name : List Char} (isName : IsName name) (after : List Char) :
    Takes (objectEntry (rule depth)) d ([' '] ++ name) ([' ', '\x7d'] ++ after) fun n =>
      leaf .shorthandPattern (n + 1) name.length := by
  have isWord := isName.toIsWord
  have ends_ : EndsName ([' ', '\x7d'] ++ after) := endsName_of_head? rfl (by decide)
  have close_ : Solid ('\x7d' :: after) := solid_cons after (by decide) (by decide)
  have other {mark : String} (none_ : Text.startsWith mark.toList ('\x7d' :: after) = false) :
      Refuses (sign mark) d ([' ', '\x7d'] ++ after) := refuses_sign (s := [' ']) blank_space close_ none_
  have noRest : Refuses (restPattern (rule depth)) d ([' '] ++ name ++ ([' ', '\x7d'] ++ after)) := by
    rw [List.append_assoc]
    refine Refuses.construct (Refuses.bind ?_) _ blank_space (isWord.solid _)
    refine refuses_sign (s := []) blank_nil (isWord.solid _) ?_
    obtain ⟨c, rest, rfl⟩ := List.exists_cons_of_ne_nil isWord.nonempty
    have part := isWord.all c List.mem_cons_self
    refine startsWith_cons_of_ne _ _ ?_
    rintro rfl
    revert part
    decide
  have key : Takes (propertyKey (rule depth)) d name ([' ', '\x7d'] ++ after) _ :=
    (takes_anyName (s := []) .propertyName blank_nil isWord ends_).firstOf _
  have noPair : Refuses (construct .pairPattern do
      let key ← propertyKey (rule depth)
      sign ":"
      let target ← rule depth .pattern
      let value ← withDefault (rule depth) .assignmentPattern target
      return [key.as .key, value.as .value]) d ([' '] ++ name ++ ([' ', '\x7d'] ++ after)) := by
    rw [List.append_assoc]
    exact Refuses.construct (key.refuses_bind fun _ => (other rfl).bind) _ blank_space (isWord.solid _)
  have noValue : Refuses (initializer (rule depth) false) d ([' ', '\x7d'] ++ after) :=
    Refuses.bind (other rfl).bind
  have valued (node : Node) : Sees (withDefault (rule depth) .objectAssignmentPattern node) d
      ([' ', '\x7d'] ++ after) node := noValue.opt.bind (sees_pure node)
  have taken := (takes_name .shorthandPattern blank_space isName ends_).seen valued
  exact noRest.takes_firstOf (noPair.takes_firstOf (taken.firstOf []))

theorem takes_shorthand {name : List Char} (isName : IsName name) (after : List Char) :
    Takes (rule (depth + 1) .pattern) d (shorthandText name) after (shorthandNode name) := by
  have solid : Solid (shorthandText name ++ after) := solid_cons _ (by decide) (by decide)
  have close_ : Solid ('\x7d' :: after) := solid_cons after (by decide) (by decide)
  have entry : Takes (objectEntry (rule depth)) d ([' '] ++ name) ([' ', '\x7d'] ++ after) _ :=
    takes_objectEntry isName after
  have open_ : Takes (sign "\x7b") d ([] ++ ['\x7b']) ([' '] ++ name ++ [' ', '\x7d'] ++ after) fun _ => () :=
    takes_sign "\x7b" blank_nil (solid_cons _ (by decide) (by decide))
  have noComma : Refuses (sign ",") d ([' ', '\x7d'] ++ after) := refuses_sign (s := [' ']) blank_space close_ rfl
  have first : Takes (do return [← objectEntry (rule depth)]) d ([' '] ++ name) ([] ++ ([' ', '\x7d'] ++ after))
      fun n => [leaf .shorthandPattern (n + 1) name.length] := entry.map fun node => [node]
  have noMore : Repeats (do
      sign ","
      return (← opt do return [← objectEntry (rule depth)]).getD []) d [] ([' ', '\x7d'] ++ after) fun _ => [] :=
    noComma.bind.repeats
  have entries : Takes (commaList do return [← objectEntry (rule depth)]) d ([' '] ++ name)
      ([' ', '\x7d'] ++ after) fun n => [leaf .shorthandPattern (n + 1) name.length] :=
    (first.commaList noMore).congr (List.append_nil _) fun _ => rfl
  have ending : Takes (sign "\x7d") d ([' '] ++ ['\x7d']) after fun _ => () :=
    takes_sign "\x7d" blank_space close_
  have inside : Takes (do
      let entries ← commaList do return [← objectEntry (rule depth)]
      sign "\x7d"
      return entries) d ([' '] ++ name ++ [' ', '\x7d']) after fun n => [leaf .shorthandPattern (n + 1) name.length] :=
    entries.bind (b := fun n _ => [leaf .shorthandPattern (n + 1) name.length]) fun n =>
      (ending.map fun _ => [leaf .shorthandPattern (n + 1) name.length]).follows
  refine Takes.firstOf (Takes.construct (?_ : Takes _ d (shorthandText name) after fun n =>
    [leaf .shorthandPattern (n + 2) name.length]) .otherPattern (s := []) blank_nil solid) _
  exact open_.bind (b := fun _ m => [leaf .shorthandPattern (m + 1) name.length]) fun _ => inside.follows

/-- One property of an object, as what a parameter binds. -/
theorem isTarget_shorthand {name : List Char} (isName : IsName name) :
    IsTarget depth d (shorthandText name) (shorthandNode name) where
  opens := ⟨'\x7b', _, rfl, by decide, by decide⟩
  unmodified := by
    intro type? rest
    have solid : Solid (shorthandText name ++ (typeText type? ++ ')' :: rest)) :=
      solid_cons _ (by decide) (by decide)
    refine (sees_nextWord (s := []) blank_nil solid).refuses_bind (Refuses.bind (refuses_guarded ?_))
    rw [wordOf_of_ends (endsName_of_head? rfl (by decide))]
    decide
  takes := fun _ _ => takes_shorthand isName _

/-! ### The interface of the parameter -/

/-- A word that is no more than the name of a member. -/
structure IsMember (name : List Char) : Prop extends IsWord name where
  alone : String.ofList name ∉ ["new", "readonly", "get", "set"]

/-- The text of a member that may be missing, and its type. -/
def memberText (name type : List Char) : List Char := name ++ (['?'] ++ ([':'] ++ ([' '] ++ type)))

section Member

variable {name type : List Char} {rule_ : Grammar}

theorem IsMember.refuses_word (isMember : IsMember name) {expected : String}
    (known : expected ∈ ["new", "readonly", "get", "set"]) (blank : Blank space) (ends_ : EndsName after) :
    Refuses (word expected) d (space ++ name ++ after) := by
  refine refuses_otherWord blank isMember.toIsWord ends_ fun same => isMember.alone ?_
  rwa [same]

theorem refuses_signature {text : List Char} (noAngle : Refuses (sign "<") d text)
    (noParenthesis : Refuses (sign "(") d text) : Refuses (Typing.signature rule_) d text :=
  noAngle.bind.opt.discard.refuses_bind noParenthesis.bind.bind

theorem takes_member (isMember : IsMember name) (isTypeName : IsTypeName type) (blank : Blank space)
    (after : List Char) :
    Takes (Typing.member (rule (depth + 1))) d (space ++ memberText name type) (';' :: after) fun _ => () := by
  have isWord := isMember.toIsWord
  have ends_ : EndsName (['?'] ++ ([':'] ++ ([' '] ++ type)) ++ ';' :: after) := endsName_of_head? rfl (by decide)
  have endsType : EndsName (';' :: after) := endsName_of_head? rfl (by decide)
  have ended_ : Lacks typeMarks (';' :: after) :=
    lacks_of_all (s := []) blank_nil (solid_cons _ (by decide) (by decide)) endsType rfl
  have colon : Solid ([':'] ++ ([' '] ++ type) ++ ';' :: after) := solid_cons _ (by decide) (by decide)
  have noSign {mark : String} {c : Char} {more : List Char} (mark_ : mark.toList = c :: more)
      (sign_ : isNameRest c = false) : Refuses (sign mark) d (space ++ memberText name type ++ ';' :: after) := by
    rw [memberText, ← List.append_assoc, List.append_assoc]
    exact refuses_signBefore isWord mark_ sign_ blank _
  have noWord {expected : String} (known : expected ∈ ["new", "readonly", "get", "set"]) :
      Refuses (word expected) d (space ++ memberText name type ++ ';' :: after) := by
    rw [memberText, ← List.append_assoc, List.append_assoc]
    exact isMember.refuses_word known blank ends_
  have noSignature : Refuses (Typing.signature (rule (depth + 1))) d (space ++ memberText name type ++ ';' :: after) :=
    refuses_signature (noSign rfl (by decide)) (noSign rfl (by decide))
  have noIndex : Refuses (Typing.indexKey (rule (depth + 1))) d (space ++ memberText name type ++ ';' :: after) := by
    refine ((noSign rfl (by decide)).orElse (noSign rfl (by decide))).seqRight.opt.discard.refuses_bind ?_
    exact (noWord (by decide)).opt.discard.refuses_bind (noSign rfl (by decide)).bind
  have name_ : Takes (firstOf [(word "readonly" <|> word "get" <|> word "set") *> Typing.memberName (rule (depth + 1)),
      Typing.memberName (rule (depth + 1))]) d (space ++ name)
      (['?'] ++ ([':'] ++ ([' '] ++ type)) ++ ';' :: after) fun _ => () := by
    have modifiers : Refuses (word "readonly" <|> word "get" <|> word "set") d
        (space ++ memberText name type ++ ';' :: after) :=
      (noWord (by decide)).orElse ((noWord (by decide)).orElse (noWord (by decide)))
    refine Refuses.takes_firstOf ?_ (Takes.firstOf ?_ _)
    · rw [List.append_assoc, ← List.append_assoc name, ← List.append_assoc space]
      exact modifiers.seqRight
    · exact (takes_anyName .propertyName blank isWord ends_).discard.firstOf _
  have mark_ : Takes (sign "?") d ['?'] ([':'] ++ ([' '] ++ type) ++ ';' :: after) fun _ => () :=
    takes_sign (s := []) "?" blank_nil (solid_cons _ (by decide) (by decide))
  have type_ : Takes (firstOf [Typing.signature (rule (depth + 1)),
      Typing.quietly (opt (Typing.ascription (rule (depth + 1))))]) d ([':'] ++ ([' '] ++ type)) (';' :: after)
      fun _ => () := by
    refine Refuses.takes_firstOf ?_ (Takes.firstOf ?_ _)
    · exact refuses_signature (refuses_sign (s := []) blank_nil colon rfl) (refuses_sign (s := []) blank_nil colon rfl)
    · exact (takes_ascription isTypeName endsType ended_).opt.discard
  refine noIndex.takes_firstOf (Refuses.takes_firstOf ?_ (Takes.firstOf ?_ _))
  · exact (noWord (by decide)).opt.discard.refuses_bind noSignature
  · refine (name_.bind (b := fun _ _ => ()) fun _ => ?_).congr (List.append_assoc _ _ _) fun _ => rfl
    exact (mark_.opt.discard.bind (b := fun _ _ => ()) fun _ => type_.follows).follows

/-- The text of an object type with one member on a line of its own. -/
def objectTypeText (pad close name type : List Char) : List Char :=
  ['\x7b'] ++ (pad ++ memberText name type ++ [';'] ++ (close ++ ['\x7d']))

theorem refuses_member (after : List Char) (blank : Blank space) :
    Refuses (Typing.member rule_) d (space ++ '\x7d' :: after) := by
  have brace : Solid ('\x7d' :: after) := solid_cons after (by decide) (by decide)
  have noWord {expected : String} (some_ : expected ≠ "") : Refuses (word expected) d (space ++ '\x7d' :: after) := by
    refine Reader.refuses_word blank brace ?_
    rw [wordOf_of_ends (endsName_of_head? rfl (by decide))]
    exact some_.symm
  have noSign {mark : String} (other : Text.startsWith mark.toList ('\x7d' :: after) = false) :
      Refuses (sign mark) d (space ++ '\x7d' :: after) := refuses_sign blank brace other
  have noSignature : Refuses (Typing.signature rule_) d (space ++ '\x7d' :: after) :=
    refuses_signature (noSign rfl) (noSign rfl)
  have noName : Refuses (Typing.memberName rule_) d (space ++ '\x7d' :: after) := by
    refine Refuses.firstOf (refuses_anyName blank brace (endsName_of_head? rfl (by decide))).discard ?_
    refine Refuses.firstOf (refuses_lexeme blank brace rfl).discard ?_
    exact Refuses.firstOf (refuses_lexeme blank brace rfl).discard (noSign rfl).seqRight.seqRight.last
  refine Refuses.firstOf ?_ (Refuses.firstOf ?_ (Refuses.last ?_))
  · refine ((noSign rfl).orElse (noSign rfl)).seqRight.opt.discard.refuses_bind ?_
    exact (noWord (by decide)).opt.discard.refuses_bind (noSign rfl).bind
  · exact (noWord (by decide)).opt.discard.refuses_bind noSignature
  · refine Refuses.bind (Refuses.firstOf (Refuses.seqRight ?_) noName.last)
    exact (noWord (by decide)).orElse ((noWord (by decide)).orElse (noWord (by decide)))

theorem yields_objectType {pad close : List Char} (isMember : IsMember name) (isTypeName : IsTypeName type)
    (blankPad : Blank pad) (blankClose : Blank close) (blank : Blank space) (after : List Char) :
    Yields (Typing.objectType (rule (depth + 1))) d (space ++ objectTypeText pad close name type) after Anything := by
  have brace : Solid ('\x7d' :: after) := solid_cons after (by decide) (by decide)
  have isWord := isMember.toIsWord
  have semicolon_ : Solid ([';'] ++ (close ++ '\x7d' :: after)) := solid_cons _ (by decide) (by decide)
  have noSign {mark : String} {c : Char} {more : List Char} (mark_ : mark.toList = c :: more)
      (sign_ : isNameRest c = false) :
      Refuses (sign mark) d (pad ++ memberText name type ++ [';'] ++ (close ++ '\x7d' :: after)) := by
    have text : pad ++ memberText name type ++ [';'] ++ (close ++ '\x7d' :: after) = pad ++ name ++
        (['?'] ++ ([':'] ++ ([' '] ++ type)) ++ ([';'] ++ (close ++ '\x7d' :: after))) := by simp [memberText]
    rw [text]
    exact refuses_signBefore isWord mark_ sign_ blankPad _
  have line : Yields (firstOf [sign ";" <|> sign ",",
      Typing.member (rule (depth + 1)) *> firstOf [sign ",", semicolon false]]) d
      (pad ++ memberText name type ++ [';']) ([] ++ (close ++ '\x7d' :: after)) Anything := by
    have end_ : Takes (firstOf [sign ",", semicolon false]) d [';'] (close ++ '\x7d' :: after) fun _ => () := by
      refine Refuses.takes_firstOf ?_ (Takes.firstOf ?_ _)
      · exact refuses_sign (s := []) blank_nil semicolon_ rfl
      · exact takes_semicolon (statementEnds_suffix (by decide) _ _ _)
    refine Refuses.yields_firstOf ?_ (Yields.firstOf ?_ _)
    · exact (noSign rfl (by decide)).orElse (noSign rfl (by decide))
    · refine Takes.yields (?_ : Takes _ d _ _ fun _ => ()) (by simp) fun _ => trivial
      exact (takes_member isMember isTypeName blankPad _).bind (b := fun _ _ => ()) fun _ => end_.follows
  have noMore : Refuses (firstOf [sign ";" <|> sign ",",
      Typing.member (rule (depth + 1)) *> firstOf [sign ",", semicolon false]]) d (close ++ '\x7d' :: after) :=
    Refuses.firstOf ((refuses_sign blankClose brace rfl).orElse (refuses_sign blankClose brace rfl))
      (refuses_member after blankClose).seqRight.last
  have lines : Yields (many (firstOf [sign ";" <|> sign ",",
      Typing.member (rule (depth + 1)) *> firstOf [sign ",", semicolon false]])) d
      (pad ++ memberText name type ++ [';']) (close ++ '\x7d' :: after) Anything := by
    have none_ : Iterates _ d [] (close ++ '\x7d' :: after) Anything := noMore.iterates fun _ => trivial
    exact ((line.iterates (by simp) none_).many.mono fun _ _ _ => trivial).congr (List.append_nil _)
  have tail : close ++ '\x7d' :: after = close ++ ['\x7d'] ++ after := by simp
  have open_ : Yields (sign "\x7b") d (space ++ ['\x7b'])
      (pad ++ memberText name type ++ [';'] ++ (close ++ ['\x7d']) ++ after) Anything :=
    yields_sign "\x7b" blank (solid_cons _ (by decide) (by decide)) (by simp)
  have close_ : Yields (sign "\x7d") d (close ++ ['\x7d']) after Anything :=
    yields_sign "\x7d" blankClose brace (by simp)
  have noFirst : Refuses (sign "|") d (pad ++ memberText name type ++ [';'] ++ (close ++ ['\x7d']) ++ after) := by
    rw [List.append_assoc, ← tail]
    exact noSign rfl (by decide)
  have noBar : Refuses (sign "|") d (close ++ ['\x7d'] ++ after) := tail ▸ refuses_sign blankClose brace rfl
  rw [tail] at lines
  rw [objectTypeText, ← List.append_assoc]
  refine open_.bind fun _ _ _ => noFirst.opt.discard.yields_bind ?_
  refine lines.discard.bind fun _ _ _ => noBar.opt.discard.yields_bind ?_
  exact close_.mono fun _ _ _ _ _ => trivial

end Member

/-- The text of an interface with one member. -/
def interfaceText (title pad close name type : List Char) : List Char :=
  "interface".toList ++ ([' '] ++ title ++ ([' '] ++ objectTypeText pad close name type))

theorem opensWith_interface (title pad close name type : List Char) :
    OpensWith "interface" (interfaceText title pad close name type) :=
  ⟨_, rfl, isWord_of_check rfl, by simp, endsName_of_head? rfl (by decide)⟩

/-- An interface with one member, among other statements. -/
theorem isRead_interface {title pad close name type : List Char} (isTitle : IsName title) (isMember : IsMember name)
    (isTypeName : IsTypeName type) (blankPad : Blank pad) (blankClose : Blank close) (blank : Blank space)
    (form : d.typed = true) :
    Part.IsRead (depth + 2) d ⟨space, interfaceText title pad close name type, fun _ node =>
      node.kind = .interfaceDeclaration ∧ node.IsInert⟩ where
  blank := blank
  opens := ⟨"interface", opensWith_interface title pad close name type, by decide⟩
  yields := by
    intro after _
    have opens := opensWith_interface title pad close name type
    have isWord : IsWord "interface".toList := isWord_of_check rfl
    have keyword : Yields (word "interface") d ([] ++ "interface".toList)
        ([' '] ++ title ++ ([' '] ++ objectTypeText pad close name type) ++ after) Anything :=
      yields_word "interface" blank_nil isWord (endsName_of_head? rfl (by decide))
    have title_ : Yields (Reader.name .identifier) d ([' '] ++ title)
        ([' '] ++ objectTypeText pad close name type ++ after) fun _ node => node.IsInert :=
      (takes_name .identifier blank_space isTitle (endsName_of_head? rfl (by decide))).yields (by simp)
        fun n => Node.isInert_leaf _ _ (by decide)
    have brace : Solid (objectTypeText pad close name type ++ after) := solid_cons _ (by decide) (by decide)
    have noTypes : Refuses (Typing.parameters (rule (depth + 1))) d
        ([' '] ++ objectTypeText pad close name type ++ after) := (refuses_sign blank_space brace rfl).bind
    have noExtends : Refuses (word "extends" *> commaList1 (Typing.reference (rule (depth + 1)) *> pure [])) d
        ([' '] ++ objectTypeText pad close name type ++ after) := by
      have ends_ : EndsName (objectTypeText pad close name type ++ after) := endsName_of_head? rfl (by decide)
      refine Refuses.seqRight (refuses_word (s := [' ']) blank_space brace fun same => ?_)
      exact absurd ((wordOf_of_ends ends_).symm.trans same) (by decide)
    have type_ : Yields (Typing.objectType (rule (depth + 1))) d _ after Anything :=
      yields_objectType isMember isTypeName blankPad blankClose blank_space after
    refine yields_statement opens blank (Refuses.yields_firstOf ?_ (Yields.firstOf ?_ _))
    · exact (sees_opened opens blank).refuses_bind refuses_failure
    refine (sees_opened opens blank).yields_bind (sees_typed.yields_bind ((sees_guarded form).yields_bind ?_))
    refine (sees_opened opens blank).yields_bind ?_
    refine (Yields.construct (P := fun _ nodes => ∀ node ∈ nodes, node.IsInert) ?_ .interfaceDeclaration blank
      (opens.solid after) (List.cons_ne_nil _ _)).mono fun n node covers => ?_
    · refine keyword.bind fun _ _ _ => title_.bind fun _ node inert => ?_
      refine noTypes.opt.discard.yields_bind (noExtends.opt.discard.yields_bind ?_)
      exact type_.map _ fun _ _ _ _ _ => List.forall_mem_singleton.mpr (Node.Avoids.as inert .name)
    · obtain ⟨children, rfl, inert⟩ := covers
      exact ⟨rfl, Node.isInert_mk (by decide) inert⟩

end Script

end AnimationCode
