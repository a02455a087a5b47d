/-
**The tags of markup are read.**

A tag has a name, perhaps a member of another name, and attributes between blanks. An attribute has a name
and a value, which stands between double quotes or between braces.

* `takes_hyphenated`, `yields_memberName`: the names of tags and attributes;
* `isValue_label`, `isValue_braced`: the values of attributes;
* `yields_attribute`: an attribute;
* `addAttributes_of_have`: what several attributes say.
-/

import AnimationCode.Element.OfMarkup
import AnimationCode.Proofs.Script.Printed
import AnimationCode.Proofs.Script.Yield

namespace AnimationCode

namespace Script

open Reader

namespace Markup

variable {depth : Nat} {d : Dialect} {s text after : List Char}

/-! ### Names -/

/-- A character of a tag that is no hyphen. -/
def isTagPart (c : Char) : Bool := c.isAlphanum || c == '_' || c == '$'

/-- A word of the basic alphabet that may name a variable. -/
structure IsTagWord (name : List Char) : Prop extends IsName name where
  basic : ∀ c ∈ name, isTagPart c = true

theorem isNameRest_of_isTagPart {c : Char} (part : isTagPart c = true) : isNameRest c = true := by
  simp only [isTagPart, Bool.or_eq_true, beq_iff_eq] at part
  rcases part with (letter | rfl) | rfl
  · exact isNameRest_of_isAlphanum letter
  · decide
  · decide

/-- A name that no hyphen follows. -/
theorem hyphenatedLength?_append {name : List Char} (isTagWord : IsTagWord name) (ends_ : EndsName after)
    (noHyphen : after.head? ≠ some '-') :
    hyphenatedLength? (name ++ after) = some name.length := by
  have stem : (name ++ after).takeWhile (fun c => c.isAlphanum || c == '_' || c == '$') = name := by
    refine (List.takeWhile_append_of_pos isTagWord.basic).trans ?_
    cases after with
    | nil => exact List.append_nil name
    | cons c rest =>
      have other : ¬ isTagPart c = true := fun part => by
        have := (ends_ c rfl).1
        rw [isNameRest_of_isTagPart part] at this
        cases this
      exact (congrArg (name ++ ·) (List.takeWhile_cons_of_neg other)).trans (List.append_nil name)
  have behind : ∀ rest, after = '-' :: rest → False := by
    rintro rest rfl
    exact noHyphen rfl
  have positive : name.length ≠ 0 := fun zero => isTagWord.nonempty (List.length_eq_zero_iff.mp zero)
  have longest (hyphenated_ : Nat) (none_ : hyphenated_ = 0) :
      (if max name.length hyphenated_ = 0 then none else some (max name.length hyphenated_)) =
        some name.length := by
    rw [none_, Nat.max_zero, if_neg positive]
  simp only [hyphenatedLength?, stem, List.drop_left, isTagWord.toIsWord.length ends_]
  refine longest _ ?_
  split
  · rfl
  · rfl

theorem takes_hyphenated {name : List Char} (kind : Kind) (isTagWord : IsTagWord name) (blank : Blank s)
    (ends_ : EndsName after) (noHyphen : after.head? ≠ some '-') :
    Takes (hyphenated kind) d (s ++ name) after fun n => leaf kind (n + s.length) name.length := by
  have isWord := isTagWord.toIsWord
  have next : Sees nextWord d (s ++ name ++ after) (String.ofList name) := by
    have seen := sees_nextWord (d := d) blank (isWord.solid after)
    rwa [wordOf_append isWord ends_, ← List.append_assoc] at seen
  have lexeme_ := takes_lexeme (d := d) kind blank (isWord.solid after)
    (hyphenatedLength?_append isTagWord ends_ noHyphen)
  have free : reservedWords.contains (String.ofList name) = false := by
    rw [List.contains_eq_mem, decide_eq_false_iff_not]
    exact isTagWord.free
  refine next.takes_bind ((lexeme_.bind (m := []) (b := fun n _ => leaf kind (n + s.length) name.length)
    fun n => ?_).congr (List.append_nil _) fun _ => rfl)
  refine Sees.follows ?_
  refine Sees.bind (sees_guarded ?_) (sees_pure _)
  rw [Bool.or_eq_true]
  exact Or.inr (congrArg not free)

/-- A name that is a member of another. -/
theorem yields_memberName {base part : List Char} (isBase : IsTagWord base) (isPart : IsWord part)
    (blank : Blank s) (ends_ : EndsName after) (noPoint : Refuses (sign ".") d after) :
    Yields tagName d (s ++ (base ++ '.' :: part)) after fun n =>
      Covers .member (base ++ '.' :: part) Anything (n + s.length) := by
  have point : Solid ('.' :: part ++ after) := solid_cons _ (by decide) (by decide)
  have noColon : Refuses (sign ":") d ('.' :: part ++ after) :=
    refuses_sign (s := []) blank_nil point rfl
  have baseEnds : EndsName ('.' :: part ++ after) := endsName_of_head? rfl (by decide)
  have solid : Solid (base ++ '.' :: part ++ after) := by
    rw [List.append_assoc]
    exact isBase.solid _
  have qualified : Refuses (construct .propertyName
      (hyphenated .identifier *> sign ":" *> hyphenated .identifier *> pure [])) d
      (s ++ (base ++ '.' :: part) ++ after) := by
    rw [List.append_assoc]
    refine Refuses.construct ?_ _ blank solid
    rw [List.append_assoc]
    exact ((takes_hyphenated (s := []) .identifier isBase blank_nil baseEnds (by simp)).refuses_seqRight
      noColon).seqRight.seqRight
  have base_ : Yields (Reader.name .identifier) d ([] ++ base) ('.' :: part ++ after) Anything :=
    (takes_name .identifier blank_nil isBase.toIsName baseEnds).yields isBase.nonempty fun _ => trivial
  have part_ : Yields (sign "." *> anyName .propertyName) d ([] ++ ['.'] ++ part) after Anything :=
    (yields_sign "." blank_nil point (by decide)).bind fun _ _ _ =>
      (takes_anyName (s := []) .propertyName blank_nil isPart ends_).yields isPart.nonempty
        fun _ _ => trivial
  have others : Yields (many (sign "." *> anyName .propertyName)) d [] after Anything :=
    (Refuses.iterates noPoint.seqRight fun _ => trivial).many
  refine qualified.yields_firstOf (Yields.firstOf (Yields.construct ?_ .member blank solid (by simp)) _)
  refine base_.bind fun _ _ _ => (part_.bind (m := []) fun _ _ _ => ?_).congr (List.append_nil _)
  exact others.map _ fun _ _ _ _ _ => trivial

/-- A name that is no member. -/
theorem takes_plainName {name : List Char} (isTagWord : IsTagWord name) (blank : Blank s)
    (ends_ : EndsName after) (noHyphen : after.head? ≠ some '-') (noColon : Refuses (sign ":") d after)
    (noPoint : Refuses (sign ".") d after) :
    Takes tagName d (s ++ name) after fun n => leaf .identifier (n + s.length) name.length := by
  have solid := isTagWord.toIsWord.solid after
  have qualified : Refuses (construct .propertyName
      (hyphenated .identifier *> sign ":" *> hyphenated .identifier *> pure [])) d (s ++ name ++ after) := by
    rw [List.append_assoc]
    refine Refuses.construct ?_ _ blank solid
    exact ((takes_hyphenated (s := []) .identifier isTagWord blank_nil ends_ noHyphen).refuses_seqRight
      noColon).seqRight.seqRight
  have member : Refuses (construct .member do
      let base ← Reader.name .identifier
      let first ← sign "." *> anyName .propertyName
      let others ← many (sign "." *> anyName .propertyName)
      return base :: first :: others) d (s ++ name ++ after) := by
    rw [List.append_assoc]
    refine Refuses.construct ?_ _ blank solid
    exact (takes_name (s := []) .identifier blank_nil isTagWord.toIsName ends_).refuses_bind
      fun _ => noPoint.seqRight.bind
  exact qualified.takes_firstOf (member.takes_firstOf
    ((takes_hyphenated .identifier isTagWord blank ends_ noHyphen).firstOf []))

/-- No name begins where a tag ends. -/
theorem refuses_hyphenated {kind : Kind} (blank : Blank s) (solid : Solid text)
    (none_ : hyphenatedLength? text = none) : Refuses (hyphenated kind) d (s ++ text) :=
  (sees_nextWord blank solid).refuses_bind (Refuses.bind (refuses_lexeme blank solid none_))

/-! ### Values -/

/-- A text that may stand between double quotes as it is. -/
def IsLabel (label : List Char) : Prop := ∀ c ∈ label, c ≠ '"' ∧ c ≠ '&' ∧ c ≠ '\\' ∧ c ≠ '\x00'

instance (label : List Char) : Decidable (IsLabel label) :=
  inferInstanceAs (Decidable (∀ c ∈ label, c ≠ '"' ∧ c ≠ '&' ∧ c ≠ '\\' ∧ c ≠ '\x00'))

/-- A text between double quotes. -/
def labelText (label : List Char) : List Char := '"' :: (label ++ ['"'])

theorem markupStringRestLength?_label {label : List Char} (isLabel : IsLabel label)
    (reference : List Char → Option Nat) {steps : Nat} (enough : label.length < steps) (after : List Char) :
    markupStringRestLength? '"' reference steps (label ++ '"' :: after) = some (label.length + 1) := by
  induction label generalizing steps with
  | nil =>
    obtain ⟨fewer, rfl⟩ := Nat.exists_eq_add_of_lt enough
    rfl
  | cons c rest ih =>
    obtain ⟨fewer, rfl⟩ : ∃ fewer, steps = fewer + 1 := ⟨steps - 1, by omega⟩
    obtain ⟨quote, ampersand, -⟩ := isLabel c List.mem_cons_self
    rw [List.length_cons] at enough
    simp only [List.cons_append, markupStringRestLength?, if_neg quote, if_neg ampersand,
      ih (fun e member => isLabel e (List.mem_cons_of_mem c member)) (by omega : rest.length < fewer),
      Option.map_some, List.length_cons]

/-- A text between braces. -/
def bracedText (text : List Char) : List Char := ['\x7b'] ++ (text ++ ['\x7d'])

/-- An expression between braces. -/
theorem yields_container {text : List Char} {Fits : Nat → Node → Prop} {rule : Grammar}
    (starts : StartsPlain text) (after : List Char)
    (yields : Yields (rule (.sequence false)) d text (['\x7d'] ++ after) Fits) (blank : Blank s) :
    Yields (container rule) d (s ++ bracedText text) after fun n =>
      Covers .container (bracedText text) (fun n nodes => ∃ node, nodes = [node] ∧ Fits (n + 1) node)
        (n + s.length) := by
  have solid (more : List Char) : Solid ('\x7b' :: more) := solid_cons more (by decide) (by decide)
  have solidClose : Solid ('\x7d' :: after) := solid_cons after (by decide) (by decide)
  have open_ : Yields (sign "\x7b") d ([] ++ ['\x7b']) (text ++ ['\x7d'] ++ after) Anything :=
    yields_sign "\x7b" blank_nil (solid _) (by simp)
  have close_ : Yields (sign "\x7d") d ([] ++ ['\x7d']) after Anything :=
    yields_sign "\x7d" blank_nil solidClose (by simp)
  have noPoints : Refuses (sign "...") d (text ++ (['\x7d'] ++ after)) := by
    have starts_ := starts
    obtain ⟨c, rest, same, -, -, point⟩ := starts_
    refine refuses_sign (s := []) blank_nil (starts.solid _) ?_
    rw [same]
    exact startsWith_cons_of_ne _ _ fun dot => point dot.symm
  have spread_ : Refuses (construct .otherExpression do
      sign "..."
      return [← rule (.expression false)]) d (text ++ (['\x7d'] ++ after)) :=
    Refuses.construct (s := []) noPoints.bind _ blank_nil (starts.solid _)
  have content_ := (spread_.yields_firstOf (yields.firstOf [])).maybe
  refine Yields.construct ?_ .container blank (solid _) (List.cons_ne_nil _ _)
  refine open_.then (P := fun n nodes => ∃ node, nodes = [node] ∧ Fits n node)
    (content_.bind fun n nodes fits => ?_) fun n nodes fits => fits
  exact close_.map (fun _ => nodes) fun _ _ _ _ => fits

/-- An expression between braces, as an item among others. -/
def bracedItem (item : Item) : Item where
  text := bracedText item.text
  Fits := fun tree => ∃ inner, item.Fits inner ∧
    tree = fun n => .mk .container .plain ⟨n, n + (bracedText item.text).length⟩ [inner (n + 1)]

/-- A text is the value of an attribute by the grammar, and its tree is one of those that fit. -/
inductive IsValue : Item → Prop where
  | label {label : List Char} (isLabel : IsLabel label) : IsValue (tokenItem .string (labelText label))
  | braced {item : Item} (derives : Derives .expression item) : IsValue (bracedItem item)
  | weaken {item : Item} (isValue : IsValue item) {Fits : (Nat → Node) → Prop}
      (weaker : ∀ tree, item.Fits tree → Fits tree) : IsValue ⟨item.text, Fits⟩

theorem IsValue.opens {item : Item} (isValue : IsValue item) :
    ∃ c rest, item.text = c :: rest ∧ isSpace c = false ∧ c ≠ '/' := by
  induction isValue with
  | label isLabel => exact ⟨'"', _, rfl, by decide, by decide⟩
  | braced derives => exact ⟨'\x7b', _, rfl, by decide, by decide⟩
  | weaken isValue weaker ih => exact ih

/-- A text between double quotes is read as a value. -/
theorem takes_label {g : Grammar} {label : List Char} (isLabel : IsLabel label) :
    Takes (attributeValue g) d (labelText label) after fun n => leaf .string n (labelText label).length := by
  have solid : Solid (labelText label ++ after) := solid_cons _ (by decide) (by decide)
  have length : markupStringLength? (labelText label ++ after) = some (labelText label).length := by
    have text : labelText label ++ after = '"' :: (label ++ '"' :: after) := by simp [labelText]
    have enough : label.length < (label ++ '"' :: after).length := by simp
    rw [text, markupStringLength?, if_pos (Or.inl rfl), markupStringRestLength?_label isLabel _ enough]
    simp [labelText]
  exact (takes_lexeme (d := d) .string blank_nil solid length).firstOf _

/-- An expression between braces is read as a value. -/
theorem yields_braced {item : Item} (isRead : Symbol.expression.IsRead depth d item) (after : List Char) :
    Yields (attributeValue (rule (depth + 1))) d (bracedText item.text) after fun n node =>
      ∃ tree, (bracedItem item).Fits tree ∧ node = tree n := by
  have solid : Solid (bracedText item.text ++ after) := solid_cons _ (by decide) (by decide)
  obtain ⟨starts, readable⟩ := isRead
  obtain ⟨tree, fits, takes⟩ := readable [] (['\x7d'] ++ after) blank_nil ⟨[], '\x7d', after, blank_nil, by decide, rfl⟩
  have noComma : Refuses (sign ",") d (['\x7d'] ++ after) :=
    refuses_sign (s := []) blank_nil (solid_cons _ (by decide) (by decide)) rfl
  have sequence_ : Yields (rule (depth + 1) (.sequence false)) d item.text (['\x7d'] ++ after) fun n node =>
      node = tree n :=
    (takes_sequence takes noComma).yields (List.length_pos_iff.mp starts.length_pos) fun _ => rfl
  have noString : Refuses (lexeme .string markupStringLength?) d (bracedText item.text ++ after) :=
    refuses_lexeme (s := []) blank_nil solid rfl
  refine noString.yields_firstOf (Yields.firstOf ?_ _)
  refine (yields_container starts after sequence_ blank_nil).mono fun n node covers => ?_
  obtain ⟨children, rfl, inner, rfl, rfl⟩ := covers
  exact ⟨_, ⟨tree, fits, rfl⟩, rfl⟩

/-- The parser at hand takes the values of attributes. -/
theorem IsValue.yields {item : Item} (isValue : IsValue item) (enough : 4 * item.text.length ≤ depth) (after : List Char) :
    Yields (attributeValue (rule depth)) d item.text after fun n node => ∃ tree, item.Fits tree ∧ node = tree n := by
  induction isValue with
  | label isLabel => exact (takes_label isLabel).yields (List.cons_ne_nil _ _) fun n => ⟨_, rfl, rfl⟩
  | @braced item derives =>
    simp only [bracedItem, bracedText, List.length_append, List.length_cons, List.length_nil] at enough
    obtain ⟨depth, rfl⟩ : ∃ fewer, depth = fewer + 1 := ⟨depth - 1, by omega⟩
    exact yields_braced (derives.isRead (by omega)) after
  | weaken isValue weaker ih =>
    refine (ih enough).mono fun n node fits => ?_
    obtain ⟨tree, fits, rfl⟩ := fits
    exact ⟨tree, weaker tree fits, rfl⟩

/-! ### Attributes -/

/-- The name and the value of an attribute. -/
structure AttributeText where
  name : List Char
  value : Item

namespace AttributeText

/-- The name, the sign and the value. -/
def whole (item : AttributeText) : List Char := item.name ++ (['='] ++ item.value.text)

/-- The name and the value of an attribute are such by the grammar. -/
structure IsDerived (item : AttributeText) : Prop where
  isName : IsTagWord item.name
  isValue : IsValue item.value

/-- A node is an attribute: its name, and a tree of its value. -/
def Fits (item : AttributeText) (n : Nat) (node : Node) : Prop :=
  ∃ tree, item.value.Fits tree ∧ node = .mk .attribute .plain ⟨n, n + item.whole.length⟩
    [leaf .propertyName n item.name.length, tree (n + item.name.length + 1)]

end AttributeText

theorem yields_attribute {item : AttributeText} (isDerived : item.IsDerived) (blank : Blank s)
    (enough : 4 * item.value.text.length ≤ depth) :
    Yields (attributeNode (rule depth)) d (s ++ item.whole) after fun n => item.Fits (n + s.length) := by
  obtain ⟨isName, isValue⟩ := isDerived
  have isWord := isName.toIsWord
  have solid : Solid (item.whole ++ after) := by
    unfold AttributeText.whole
    rw [List.append_assoc]
    exact isWord.solid _
  have solidSign : Solid (['='] ++ item.value.text ++ after) := solid_cons _ (by decide) (by decide)
  have ends_ : EndsName (['='] ++ item.value.text ++ after) := endsName_of_head? rfl (by decide)
  have noColon : Refuses (sign ":") d (['='] ++ item.value.text ++ after) :=
    refuses_sign (s := []) blank_nil solidSign rfl
  have noContainer : Refuses (container (rule depth)) d (s ++ item.whole ++ after) := by
    rw [List.append_assoc]
    refine Refuses.construct (Refuses.bind (refuses_sign (s := []) blank_nil solid ?_)) _ blank solid
    obtain ⟨c, rest, same⟩ := List.exists_cons_of_ne_nil isWord.nonempty
    have part := isWord.all c (same ▸ List.mem_cons_self)
    unfold AttributeText.whole
    rw [same]
    refine startsWith_cons_of_ne _ _ ?_
    rintro rfl
    revert part
    decide
  have name_ (kind : Kind) : Takes (hyphenated kind) d ([] ++ item.name) (['='] ++ item.value.text ++ after)
      fun n => leaf kind n item.name.length :=
    takes_hyphenated kind isName blank_nil ends_ (by simp)
  have qualified : Refuses (construct .propertyName
      (hyphenated .identifier *> sign ":" *> hyphenated .identifier *> pure [])) d
      (item.name ++ (['='] ++ item.value.text ++ after)) := by
    refine Refuses.construct (s := []) ?_ _ blank_nil (isWord.solid _)
    exact ((name_ .identifier).refuses_seqRight noColon).seqRight.seqRight
  have title_ : Takes (firstOf [
      construct .propertyName (hyphenated .identifier *> sign ":" *> hyphenated .identifier *> pure []),
      hyphenated .propertyName]) d item.name (['='] ++ item.value.text ++ after) fun n =>
        leaf .propertyName n item.name.length :=
    qualified.takes_firstOf ((name_ .propertyName).firstOf [])
  obtain ⟨c, rest, valueText, space, slash⟩ := isValue.opens
  have solidValue : Solid (item.value.text ++ after) := by
    rw [valueText]
    exact solid_cons _ space slash
  have sign_ : Yields (sign "=") d ([] ++ ['=']) (item.value.text ++ after) Anything :=
    yields_sign "=" blank_nil solidSign (by simp)
  have value_ : Yields (maybe (sign "=" *> attributeValue (rule depth))) d (['='] ++ item.value.text) after
      fun n nodes => ∃ inner, nodes = [inner] ∧ ∃ tree, item.value.Fits tree ∧ inner = tree (n + 1) :=
    (sign_.then (isValue.yields enough after) fun n inner fits => fits).maybe
  have moves : item.whole ≠ [] := List.append_ne_nil_of_left_ne_nil isWord.nonempty _
  refine noContainer.yields_firstOf (Yields.firstOf ?_ _)
  refine (Yields.construct (P := fun n nodes => ∃ tree, item.value.Fits tree ∧
    nodes = [leaf .propertyName n item.name.length, tree (n + item.name.length + 1)]) ?_ .attribute blank solid moves).mono
      fun n node covers => ?_
  · refine (title_.yields (P := fun n node => node = leaf .propertyName n item.name.length)
      isWord.nonempty fun _ => rfl).bind fun n title same => ?_
    refine value_.map (fun value => title :: value) fun m nodes fits place => ?_
    obtain ⟨inner, rfl, tree, fits, rfl⟩ := fits
    exact ⟨tree, fits, by rw [same, place]⟩
  · obtain ⟨children, rfl, tree, fits, rfl⟩ := covers
    exact ⟨tree, fits, rfl⟩

/-- The text of attributes, each behind a gap. -/
def attributesText (gap : List Char) (items : List AttributeText) : List Char :=
  items.flatMap fun item => gap ++ item.whole

/-- Each node is the attribute at its place. -/
def HaveAttributes (gap : List Char) : List AttributeText → Nat → List Node → Prop
  | [], _, nodes => nodes = []
  | item :: rest, n, nodes => ∃ node others, nodes = node :: others ∧ item.Fits (n + gap.length) node ∧
    HaveAttributes gap rest (n + (gap ++ item.whole).length) others

theorem iterates_attributes {gap : List Char} (blank : Blank gap) {items : List AttributeText}
    (derived : ∀ item ∈ items, item.IsDerived) (enough : ∀ item ∈ items, 4 * item.value.text.length ≤ depth)
    (noMore : Refuses (attributeNode (rule depth)) d after) :
    Iterates (attributeNode (rule depth)) d (attributesText gap items) after (HaveAttributes gap items) := by
  induction items with
  | nil => exact Refuses.iterates noMore fun _ => rfl
  | cons item rest ih =>
    have isDerived := derived item List.mem_cons_self
    have first : Yields (attributeNode (rule depth)) d (gap ++ item.whole) (attributesText gap rest ++ after) _ :=
      yields_attribute isDerived blank (enough item List.mem_cons_self)
    have moves : gap ++ item.whole ≠ [] := List.append_ne_nil_of_right_ne_nil _
      (List.append_ne_nil_of_left_ne_nil isDerived.isName.nonempty _)
    intro c steps dialect same within
    obtain ⟨found, takes, node, others, rfl, fits, have_⟩ := first.iterates moves
      (ih (fun other member => derived other (List.mem_cons_of_mem _ member))
        fun other member => enough other (List.mem_cons_of_mem _ member)) c steps dialect same within
    exact ⟨_, takes, node, others, rfl, fits, have_⟩

/-! ### What attributes say -/

/-- A tree is the value of an attribute wherever its text is. -/
def HasValue (value : Value) (text : List Char) (tree : Nat → Node) : Prop :=
  ∀ n, (tree n).kind.isNamed = true ∧ ∀ source wrapped, Holds source n text →
    AnimationCode.Markup.attributeValue ⟨source, wrapped⟩ (some (tree n)) = .ok value

theorem decodeFrom_label {label : List Char} (isLabel : IsLabel label) (steps : Nat) :
    Text.decodeFrom steps label = some label := by
  induction label generalizing steps with
  | nil => cases steps <;> rfl
  | cons c rest ih =>
    cases steps with
    | zero => rfl
    | succ steps =>
      simp only [Text.decodeFrom, if_neg (isLabel c List.mem_cons_self).2.2.1,
        ih (fun e member => isLabel e (List.mem_cons_of_mem c member)), Option.map_some]

theorem unquoted_label {label : List Char} (isLabel : IsLabel label) :
    unquoted (labelText label) = .ok (String.ofList label) := by
  have inner : Text.inner (labelText label) = label := by simp [Text.inner, labelText]
  rw [unquoted, Text.unquote?, inner, decodeFrom_label isLabel]

/-- A text between double quotes says what it is. -/
theorem isValue_label {label : List Char} (isLabel : IsLabel label) :
    IsValue ⟨labelText label, HasValue (.text (String.ofList label)) (labelText label)⟩ := by
  refine (IsValue.label isLabel).weaken ?_
  rintro tree rfl
  refine fun n => ⟨rfl, fun source wrapped holds => ?_⟩
  have text : (leaf .string n (labelText label).length).text source = labelText label := holds.text_eq _ rfl
  show Value.text <$> unquoted ((leaf .string n (labelText label).length).text source) = _
  rw [text, unquoted_label isLabel]
  rfl

/-- The value of one expression between braces. -/
theorem attributeValue_container {fragment : AnimationCode.Markup.Fragment} {inner : Node}
    (named : inner.kind.isNamed = true ∧ inner.kind ≠ .comment) (span : Span) :
    AnimationCode.Markup.attributeValue fragment (some (.mk .container .plain span [inner])) =
      evaluate fragment.text inner := by
  have kept : (Node.mk .container .plain span [inner]).named.filter (·.kind != .comment) = [inner] := by
    simp [Node.named, Node.children, named]
  unfold AnimationCode.Markup.attributeValue
  dsimp only
  rw [kept]
  rfl

/-- A literal value between braces says what the value is. -/
theorem isValue_braced {value : Value} (derives : Derives .expression (valueItem value)) :
    IsValue ⟨bracedText value.print.toList, HasValue value.normal (bracedText value.print.toList)⟩ := by
  refine (IsValue.braced derives).weaken ?_
  rintro tree ⟨inner, stands, rfl⟩
  refine fun n => ⟨rfl, fun source wrapped holds => ?_⟩
  exact (attributeValue_container (Stands.named stands (n + 1)) _).trans
    (Stands.evaluates stands (n + 1) source holds.right.left)

/-- Attributes have names and values wherever their texts are. -/
def Say (items : List AttributeText) (said : List (List Char × Value)) : Prop :=
  List.Forall₂ (fun item field => item.name = field.1 ∧
    ∀ tree, item.value.Fits tree → HasValue field.2 item.value.text tree) items said

/-- What attributes make of a motion, and what is to be said about them. -/
def addedAttributes (start : Motion × List String) (said : List (List Char × Value)) : Motion × List String :=
  said.foldl (fun found field =>
    let (motion, warnings) := AnimationCode.Markup.addAttribute found.1 (String.ofList field.1) field.2
    (motion, found.2 ++ warnings)) start

theorem addAttributes_of_have {gap : List Char} {items : List AttributeText} {said : List (List Char × Value)}
    (say : Say items said) {n : Nat} {nodes : List Node} (have_ : HaveAttributes gap items n nodes) (source : List Char)
    (wrapped : Nat) (holds : Holds source n (attributesText gap items)) (motion : Motion) (warnings : List String) :
    AnimationCode.Markup.addAttributes ⟨source, wrapped⟩ motion warnings nodes =
      .ok (addedAttributes (motion, warnings) said) := by
  induction say generalizing n nodes motion warnings with
  | nil =>
    obtain rfl : nodes = [] := have_
    rfl
  | @cons item field items said here_ say ih =>
    obtain ⟨node, others, rfl, ⟨tree, fits, rfl⟩, others_⟩ := have_
    obtain ⟨name, values⟩ := here_
    obtain ⟨named, evaluates⟩ := values tree fits (n + gap.length + item.name.length + 1)
    have here : Holds source (n + gap.length) item.whole := holds.left.right
    have title : (leaf .propertyName (n + gap.length) item.name.length).text source = field.1 := by
      rw [← name]
      exact here.left.text_eq _ rfl
    have plain : (leaf .propertyName (n + gap.length) item.name.length).kind.isNamed = true := rfl
    have children : (Node.mk .attribute .plain ⟨n + gap.length, n + gap.length + item.whole.length⟩
        [leaf .propertyName (n + gap.length) item.name.length, tree (n + gap.length + item.name.length + 1)]).named =
          [leaf .propertyName (n + gap.length) item.name.length, tree (n + gap.length + item.name.length + 1)] := by
      simp [Node.named, Node.children, named, plain]
    have chosen : AnimationCode.Markup.addAttributes ⟨source, wrapped⟩ motion warnings
        (.mk .attribute .plain ⟨n + gap.length, n + gap.length + item.whole.length⟩
          [leaf .propertyName (n + gap.length) item.name.length, tree (n + gap.length + item.name.length + 1)] :: others) =
        (do
          let value ← AnimationCode.Markup.attributeValue ⟨source, wrapped⟩
            (some (tree (n + gap.length + item.name.length + 1)))
          let (motion, warned) := AnimationCode.Markup.addAttribute motion
            (String.ofList ((leaf .propertyName (n + gap.length) item.name.length).text source)) value
          AnimationCode.Markup.addAttributes ⟨source, wrapped⟩ motion (warnings ++ warned) others) := by
      rw [AnimationCode.Markup.addAttributes, children]
      rfl
    rw [chosen, evaluates source wrapped here.right.right, title]
    exact ih others_ holds.right _ _

end Markup

end Script

end AnimationCode
