/-
**Elements of markup by the grammar, and how they are read.**

An element is one tag closed in itself, or an opening tag, its content and a closing tag. Its content stands
on lines of its own, so that no text is between the tags.

* `Markup.Derives`: a text is an element or the content of one by the grammar, and its nodes fit;
* `yields_tagHead`: a tag up to its end;
* `Markup.Derives.isRead`: the parser at hand takes each such text, at every depth that the text leaves room for.
-/

import AnimationCode.Proofs.Script.Markup

namespace AnimationCode

namespace Script

open Reader

namespace Markup

variable {depth : Nat} {d : Dialect} {s text after : List Char}

/-! ### Tags -/

/-- What may stand behind the name of a tag: blanks, and an attribute or the end of the tag. -/
def EndsTitle (text : List Char) : Prop :=
  ∃ space c rest, text = space ++ c :: rest ∧ Blank space ∧ Solid (c :: rest) ∧
    c ∉ ['-', ':', '.', '<'] ∧ (space = [] → isNameRest c = false ∧ c ≠ '\\')

namespace EndsTitle

theorem first (endsTitle : EndsTitle text) {c : Char} (head : text.head? = some c) :
    isNameRest c = false ∧ c ≠ '\\' ∧ c ≠ '-' := by
  obtain ⟨space, e, rest, rfl, blank, -, other, alone⟩ := endsTitle
  cases space with
  | nil =>
    obtain rfl : e = c := Option.some.inj head
    exact ⟨(alone rfl).1, (alone rfl).2, fun same => other (by simp [same])⟩
  | cons f more =>
    obtain rfl : f = c := Option.some.inj head
    have space := blank f List.mem_cons_self
    refine ⟨(isNameRest_of_isSpace space).1, (isNameRest_of_isSpace space).2.1, ?_⟩
    rintro rfl
    revert space
    decide

theorem endsName (endsTitle : EndsTitle text) : EndsName text := fun _ head =>
  ⟨(endsTitle.first head).1, (endsTitle.first head).2.1⟩

theorem noHyphen (endsTitle : EndsTitle text) : text.head? ≠ some '-' := fun head =>
  (endsTitle.first head).2.2 rfl

theorem refuses_sign (endsTitle : EndsTitle text) {mark : String} {c : Char} {more : List Char}
    (mark_ : mark.toList = c :: more) (among : c ∈ ['-', ':', '.', '<']) : Refuses (sign mark) d text := by
  obtain ⟨space, e, rest, rfl, blank, solid, other, -⟩ := endsTitle
  refine Reader.refuses_sign blank solid ?_
  rw [mark_]
  refine startsWith_cons_of_ne _ _ ?_
  rintro rfl
  exact other among

end EndsTitle

/-- The name of a tag that is a member of another name. -/
def IsMemberName (name : List Char) : Prop := ∃ base part, name = base ++ '.' :: part ∧ IsTagWord base ∧ IsWord part

/-- A text is the name of a tag. -/
def IsTitle (name : List Char) : Prop := IsMemberName name ∨ IsTagWord name

namespace IsTitle

variable {name : List Char}

theorem opens (isTitle : IsTitle name) : ∃ c rest, name = c :: rest ∧ isNameRest c = true := by
  obtain ⟨base, part, rfl, isBase, -⟩ | isTagWord := isTitle
  · obtain ⟨c, rest, rfl⟩ := List.exists_cons_of_ne_nil isBase.nonempty
    exact ⟨c, _, rfl, isBase.all c List.mem_cons_self⟩
  · obtain ⟨c, rest, rfl⟩ := List.exists_cons_of_ne_nil isTagWord.nonempty
    exact ⟨c, _, rfl, isTagWord.all c List.mem_cons_self⟩

theorem yields (isTitle : IsTitle name) (endsTitle : EndsTitle after) :
    Yields tagName d name after fun n node => node.span = ⟨n, n + name.length⟩ ∧ node.kind ∈ [.member, .identifier] := by
  obtain ⟨base, part, rfl, isBase, isPart⟩ | isTagWord := isTitle
  · refine (yields_memberName isBase isPart blank_nil endsTitle.endsName
      (endsTitle.refuses_sign rfl (by decide))).mono fun n node covers => ?_
    obtain ⟨children, rfl, -⟩ := covers
    exact ⟨rfl, List.mem_cons_self⟩
  · exact (takes_plainName isTagWord blank_nil endsTitle.endsName endsTitle.noHyphen
      (endsTitle.refuses_sign rfl (by decide)) (endsTitle.refuses_sign rfl (by decide))).yields
        isTagWord.nonempty fun _ => ⟨rfl, List.mem_cons_of_mem _ List.mem_cons_self⟩

end IsTitle

/-- A tag with its attributes, each behind a gap, up to its end. -/
structure TagText where
  name : List Char
  gap : List Char
  items : List AttributeText
  endGap : List Char

namespace TagText

/-- The text from the angle bracket up to the last attribute. -/
def head (tag : TagText) : List Char := ['<'] ++ (tag.name ++ attributesText tag.gap tag.items)

/-- The tag before content. -/
def opening (tag : TagText) : List Char := tag.head ++ (tag.endGap ++ ['>'])

/-- The tag that closes itself. -/
def selfClosing (tag : TagText) : List Char := tag.head ++ (tag.endGap ++ ['/', '>'])

/-- The attributes and the blanks of a tag are such by the grammar. -/
structure IsDerived (tag : TagText) : Prop where
  items : ∀ item ∈ tag.items, item.IsDerived
  gap : Blank tag.gap ∧ tag.gap ≠ []
  endGap : Blank tag.endGap

/-- The nodes of the name and the attributes. -/
def Fits (tag : TagText) (n : Nat) (nodes : List Node) : Prop :=
  ∃ (title : Node) (attributes : List Node), nodes = title.as .name :: attributes ∧
    title.span = ⟨n + 1, n + 1 + tag.name.length⟩ ∧ title.kind ∈ [.member, .identifier] ∧
    HaveAttributes tag.gap tag.items (n + 1 + tag.name.length) attributes

end TagText

/-- The end of a tag. -/
def EndsTag (text : List Char) : Prop := ∃ rest, text = '>' :: rest ∨ text = '/' :: '>' :: rest

theorem EndsTag.solid (endsTag : EndsTag after) : Solid after := by
  obtain ⟨rest, rfl | rfl⟩ := endsTag
  · exact solid_cons rest (by decide) (by decide)
  · exact ⟨rfl, rfl⟩

theorem refuses_attributeNode {rule : Grammar} (endsTag : EndsTag after) (blank : Blank s) :
    Refuses (attributeNode rule) d (s ++ after) := by
  have solid := endsTag.solid
  have brace : Text.startsWith "\x7b".toList after = false := by
    obtain ⟨rest, rfl | rfl⟩ := endsTag <;> rfl
  have none_ : hyphenatedLength? after = none := by
    obtain ⟨rest, rfl | rfl⟩ := endsTag <;> rfl
  have name_ (kind : Kind) : Refuses (hyphenated kind) d ([] ++ after) :=
    refuses_hyphenated blank_nil solid none_
  refine Refuses.firstOf ?_ (Refuses.last ?_)
  · exact Refuses.construct (Refuses.bind (refuses_sign (s := []) blank_nil solid brace)) _ blank solid
  · refine Refuses.construct (Refuses.bind (Refuses.firstOf ?_ (name_ _).last)) _ blank solid
    exact Refuses.construct (s := []) (name_ .identifier).seqRight.seqRight.seqRight _ blank_nil solid

theorem endsTitle_of_tag {tag : TagText} (derived : tag.IsDerived) (endsTag : EndsTag after) :
    EndsTitle (attributesText tag.gap tag.items ++ (tag.endGap ++ after)) := by
  cases items : tag.items with
  | nil =>
    have other : ∃ c rest, after = c :: rest ∧ c ∉ ['-', ':', '.', '<'] ∧ isNameRest c = false ∧ c ≠ '\\' := by
      obtain ⟨rest, rfl | rfl⟩ := endsTag <;> exact ⟨_, _, rfl, by decide, by decide, by decide⟩
    obtain ⟨c, rest, rfl, other, ends_⟩ := other
    exact ⟨tag.endGap, c, rest, rfl, derived.endGap, endsTag.solid, other, fun _ => ends_⟩
  | cons item more =>
    have isName := (derived.items item (items ▸ List.mem_cons_self)).isName
    obtain ⟨c, rest, name⟩ := List.exists_cons_of_ne_nil isName.nonempty
    have part := isName.all c (name ▸ List.mem_cons_self)
    refine ⟨tag.gap, c, rest ++ (['='] ++ item.value.text) ++ (attributesText tag.gap more ++ (tag.endGap ++ after)),
      ?_, derived.gap.1, solid_of_isNameRest _ part, ?_, fun none_ => absurd none_ derived.gap.2⟩
    · simp [attributesText, AttributeText.whole, name]
    · have signs : ∀ e ∈ ['-', ':', '.', '<'], isNameRest e = false := by decide
      intro among
      rw [signs c among] at part
      cases part

theorem length_value {tag : TagText} {item : AttributeText} (member : item ∈ tag.items) :
    item.value.text.length ≤ tag.head.length := by
  obtain ⟨before, behind, items⟩ := List.append_of_mem member
  simp [TagText.head, attributesText, items, AttributeText.whole]
  omega

/-- A tag up to its last attribute. -/
theorem yields_tagHead {tag : TagText} (isTitle : IsTitle tag.name) (derived : tag.IsDerived) (endsTag : EndsTag after)
    (enough : 4 * tag.head.length ≤ depth) :
    Yields (tagHead (rule depth)) d tag.head (tag.endGap ++ after) tag.Fits := by
  have endsTitle := endsTitle_of_tag derived endsTag
  have open_ : Yields (sign "<") d ([] ++ ['<'])
      (tag.name ++ attributesText tag.gap tag.items ++ (tag.endGap ++ after)) Anything :=
    yields_sign "<" blank_nil (solid_cons _ (by decide) (by decide)) (by simp)
  have title_ := @IsTitle.yields d _ _ isTitle endsTitle
  have attributes_ : Yields (many (attributeNode (rule depth))) d (attributesText tag.gap tag.items)
      (tag.endGap ++ after) (HaveAttributes tag.gap tag.items) :=
    (iterates_attributes derived.gap.1 derived.items
      (fun item member => by have within := length_value member; omega)
      (refuses_attributeNode endsTag derived.endGap)).many
  have noTypes : Refuses (sign "<" *> rule depth .typing *> many (sign "," *> rule depth .typing) *> sign ">") d
      (attributesText tag.gap tag.items ++ (tag.endGap ++ after)) :=
    (endsTitle.refuses_sign rfl (by decide)).seqRight.seqRight.seqRight
  refine open_.bind fun n _ _ => ?_
  refine title_.opt.bind fun m found fits => ?_
  obtain ⟨title, rfl, span, kind⟩ := fits
  have listed : Yields (many (attributeNode (rule depth)) >>= fun attributes =>
      pure (title.as .name :: attributes)) d (attributesText tag.gap tag.items) (tag.endGap ++ after)
      fun k nodes => k = m + tag.name.length → m = n + 1 → tag.Fits n nodes :=
    attributes_.map (fun attributes => title.as .name :: attributes) fun k attributes have_ place start_ => by
      subst place start_
      exact ⟨title, attributes, rfl, span, kind, have_⟩
  refine sees_typed.yields_bind ?_
  split
  · exact noTypes.opt.discard.yields_bind listed
  · exact listed

/-! ### Elements by the grammar -/

/-- A line break and an indentation, which are no text between tags. -/
def IsGap (gap : List Char) : Prop := ∃ count, gap = '\n' :: List.replicate count ' '

/-- The text of a closing tag on a line of its own. -/
def closingText (gap name : List Char) : List Char := gap ++ (['<', '/'] ++ (name ++ ['>']))

/-- The text of an element with content, from what stands before the end of its opening tag on. -/
def enclosedText (head endGap inside gap name : List Char) : List Char :=
  head ++ (endGap ++ ['>']) ++ (inside ++ closingText gap name)

/-- An element with its content. -/
def TagText.around (tag : TagText) (inside gap : List Char) : List Char :=
  enclosedText tag.head tag.endGap inside gap tag.name

/-- The node of an element with content, given what holds of the nodes of its opening tag and of its content. -/
def IsEnclosed (head endGap inside gap name : List Char) (Head Inside : Nat → List Node → Prop) (n : Nat)
    (all : List Node) : Prop :=
  ∃ (nodes found : List Node) (closing : Node) (stop : Nat), all = [.mk .element .plain
      ⟨n, n + (enclosedText head endGap inside gap name).length⟩
      (.mk .openingTag .openTag ⟨n, stop⟩ nodes :: found ++ [closing])] ∧ Head n nodes ∧ closing.kind = .closingTag ∧
    Inside (n + (head ++ (endGap ++ ['>'])).length) found

/-- The node of a name alone in a tag. -/
def IsTitled (name : List Char) (n : Nat) (nodes : List Node) : Prop :=
  ∃ title : Node, nodes = [title.as .name] ∧ title.span = ⟨n + 1, n + 1 + name.length⟩ ∧ title.kind ∈ [.member, .identifier]

/-- What a text may be derived as: an element, or what stands between two tags. -/
inductive Shape where
  | element | content
deriving DecidableEq, Repr

/-- A text is derived, and its nodes are such as fit. -/
inductive Derives : Shape → List Char → (Nat → List Node → Prop) → Prop where
  | selfClosing {tag : TagText} (isMember : IsMemberName tag.name) (derived : tag.IsDerived) :
      Derives .element tag.selfClosing fun n all =>
        ∃ nodes, all = [.mk .selfClosingTag .plain ⟨n, n + tag.selfClosing.length⟩ nodes] ∧ tag.Fits n nodes
  | enclosed {tag : TagText} {inside gap : List Char} {Inside : Nat → List Node → Prop} (isMember : IsMemberName tag.name)
      (derived : tag.IsDerived) (content : Derives .content inside Inside) (isGap : IsGap gap) :
      Derives .element (tag.around inside gap) (IsEnclosed tag.head tag.endGap inside gap tag.name tag.Fits Inside)
  | wrapper {name inside gap : List Char} {Inside : Nat → List Node → Prop} (isTagWord : IsTagWord name)
      (content : Derives .content inside Inside) (isGap : IsGap gap) :
      Derives .element (enclosedText ('<' :: name) [] inside gap name)
        (IsEnclosed ('<' :: name) [] inside gap name (IsTitled name) Inside)
  | fragment {inside gap : List Char} {Inside : Nat → List Node → Prop} (content : Derives .content inside Inside)
      (isGap : IsGap gap) : Derives .element (enclosedText ['<'] [] inside gap [])
        (IsEnclosed ['<'] [] inside gap [] (fun _ nodes => nodes = []) Inside)
  | nothing : Derives .content [] fun _ nodes => nodes = []
  | child {gap text more : List Char} {Here Later : Nat → List Node → Prop} (isGap : IsGap gap)
      (element : Derives .element text Here) (content : Derives .content more Later) :
      Derives .content (gap ++ text ++ more) fun n nodes =>
        ∃ here later, nodes = here ++ later ∧ Here (n + gap.length) here ∧ Later (n + (gap ++ text).length) later
  | slot {gap name more : List Char} {Later : Nat → List Node → Prop} (isGap : IsGap gap) (isIdentifier : IsIdentifier name)
      (content : Derives .content more Later) :
      Derives .content (gap ++ bracedText name ++ more) fun n nodes =>
        ∃ later, nodes = .mk .container .plain ⟨n + gap.length, n + gap.length + (bracedText name).length⟩
          [leaf .identifier (n + gap.length + 1) name.length] :: later ∧ Later (n + (gap ++ bracedText name).length) later
  | weaken {shape : Shape} {text : List Char} {Fits Others : Nat → List Node → Prop} (derives : Derives shape text Fits)
      (weaker : ∀ n nodes, Fits n nodes → Others n nodes) : Derives shape text Others

/-! ### Content -/

theorem IsGap.blank {gap : List Char} (isGap : IsGap gap) : Blank gap := by
  obtain ⟨count, rfl⟩ := isGap
  intro c member
  rcases List.mem_cons.mp member with rfl | among
  · rfl
  · rw [(List.mem_replicate.mp among).2]
    rfl

theorem countsAsText_replicate (count : Nat) : countsAsText true (List.replicate count ' ') = false := by
  induction count with
  | zero => rfl
  | succ count ih =>
    rw [List.replicate_succ, countsAsText, if_neg (by decide), if_pos (by decide)]
    exact ih

/-- Blanks that are no text between tags. -/
structure IsSpacing (gap : List Char) : Prop where
  blank : Blank gap
  plain : ∀ c ∈ gap, endsText c = false
  silent : countsAsText false gap = false

theorem isSpacing_nil : IsSpacing [] := ⟨blank_nil, List.forall_mem_nil _, rfl⟩

theorem IsGap.isSpacing {gap : List Char} (isGap : IsGap gap) : IsSpacing gap where
  blank := isGap.blank
  plain := by
    obtain ⟨count, rfl⟩ := isGap
    refine List.forall_mem_cons.mpr ⟨rfl, fun c member => ?_⟩
    rw [(List.mem_replicate.mp member).2]
    rfl
  silent := by
    obtain ⟨count, rfl⟩ := isGap
    rw [countsAsText, if_pos rfl]
    exact countsAsText_replicate count

theorem takeWhile_text {run : List Char} (plain : ∀ c ∈ run, endsText c = false) {c : Char} (ends_ : endsText c = true)
    (rest : List Char) : (run ++ c :: rest).takeWhile (fun e => !endsText e) = run := by
  rw [List.takeWhile_append_of_pos fun e member => by rw [plain e member]; rfl,
    List.takeWhile_cons_of_neg (by rw [ends_]; decide), List.append_nil]

theorem IsSpacing.textLength? {gap : List Char} (isSpacing : IsSpacing gap) {c : Char} (ends_ : endsText c = true)
    (rest : List Char) : Markup.textLength? (gap ++ c :: rest) = none := by
  unfold Markup.textLength?
  rw [takeWhile_text isSpacing.plain ends_]
  dsimp only
  rw [isSpacing.silent, if_neg Bool.false_ne_true]

/-- What is no text, no comment and no character reference. -/
structure IsConstruct (text : List Char) : Prop where
  opens : ∃ c rest, text = c :: rest ∧ endsText c = true
  solid : Solid text
  remark : markupRemarkLength? text = none
  reference : characterReferenceLength? text = none

theorem IsConstruct.refuses {text : List Char} (isConstruct : IsConstruct text) {gap : List Char}
    (isSpacing : IsSpacing gap) {reader : Reader (List Node)}
    (among : reader ∈ [(do return [← textNode]), contentRemark,
      (do return [← lexeme .characterReference characterReferenceLength?])]) :
    Refuses reader d (gap ++ text) := by
  simp only [List.mem_cons, List.not_mem_nil, or_false] at among
  rcases among with rfl | rfl | rfl
  · obtain ⟨c, rest, rfl, ends_⟩ := isConstruct.opens
    refine Refuses.bind (sees_rest.refuses_bind ?_)
    rw [isSpacing.textLength? ends_]
    exact refuses_failure
  · refine Refuses.blanks isSpacing.blank isConstruct.solid (sees_rest.refuses_bind ?_)
    rw [isConstruct.remark]
    exact refuses_failure
  · exact (refuses_lexeme isSpacing.blank isConstruct.solid isConstruct.reference).bind

theorem isConstruct_angle {c : Char} (other : isNameRest c = true ∨ c = '>' ∨ c = '/') (rest : List Char) :
    IsConstruct ('<' :: c :: rest) where
  opens := ⟨'<', _, rfl, rfl⟩
  solid := solid_cons _ (by decide) (by decide)
  remark := by
    have bang : c ≠ '!' := by
      rintro rfl
      revert other
      decide
    have first : Text.startsWith "<!--".toList ('<' :: c :: rest) = false := by
      show (if '!' = c then _ else none).isSome = false
      rw [if_neg fun same => bang same.symm]
      rfl
    unfold markupRemarkLength?
    rw [first]
    rfl
  reference := rfl

/-! ### Closing tags -/

theorem endsTitle_angle (after : List Char) : EndsTitle ('>' :: after) :=
  ⟨[], '>', after, rfl, blank_nil, solid_cons _ (by decide) (by decide), by decide, fun _ => by decide⟩

/-- The name of a tag, or none before its end. -/
def IsTitleOrNone (name : List Char) : Prop := IsTitle name ∨ name = []

theorem refuses_tagName (after : List Char) : Refuses tagName d ('>' :: after) := by
  have solid : Solid ('>' :: after) := solid_cons _ (by decide) (by decide)
  have hyphenated_ (kind : Kind) : Refuses (hyphenated kind) d ([] ++ '>' :: after) :=
    refuses_hyphenated blank_nil solid rfl
  refine Refuses.firstOf ?_ (Refuses.firstOf ?_ (hyphenated_ _).last)
  · exact Refuses.construct (s := []) (hyphenated_ .identifier).seqRight.seqRight.seqRight _ blank_nil solid
  · refine Refuses.construct (s := []) (Refuses.bind ?_) _ blank_nil solid
    exact refuses_name (s := []) blank_nil solid (Or.inr (endsName_of_head? rfl (by decide)))

theorem yields_closingTag {gap name : List Char} (isGap : IsGap gap) (title : IsTitleOrNone name)
    (after : List Char) :
    Yields closingTag d (closingText gap name) after fun _ node => node.kind = .closingTag := by
  have solid : Solid (['<', '/'] ++ (name ++ ['>']) ++ after) := solid_cons _ (by decide) (by decide)
  have open_ : Yields (sign "</") d ([] ++ ['<', '/']) (name ++ ['>'] ++ after) Anything :=
    yields_sign "</" blank_nil (solid_cons _ (by decide) (by decide)) (by simp)
  have close_ : Yields (sign ">") d ([] ++ ['>']) after Anything :=
    yields_sign ">" blank_nil (solid_cons _ (by decide) (by decide)) (by simp)
  have title_ : Yields (maybe tagName) d name (['>'] ++ after) Anything := by
    rcases title with isTitle | rfl
    · exact (isTitle.yields (endsTitle_angle after)).maybe.mono fun _ _ _ => trivial
    · exact (refuses_tagName after).maybe.yields fun _ => trivial
  refine (Yields.construct (P := Anything) ?_ .closingTag isGap.blank solid (List.cons_ne_nil _ _)).mono
    fun n node covers => ?_
  · refine open_.bind fun _ _ _ => (title_.bind fun _ found _ => ?_)
    exact close_.map _ fun _ _ _ _ _ => trivial
  · obtain ⟨children, rfl, -⟩ := covers
    rfl

/-- No content begins with a closing tag. -/
theorem refuses_content {gap : List Char} (isGap : IsGap gap) (name after : List Char) :
    Refuses (content (rule depth)) d (closingText gap name ++ after) := by
  have isConstruct : IsConstruct (['<', '/'] ++ (name ++ ['>']) ++ after) :=
    isConstruct_angle (Or.inr (Or.inr rfl)) _
  have open_ : Takes (sign "</") d (gap ++ ['<', '/']) (name ++ ['>'] ++ after) fun _ => () :=
    takes_sign "</" isGap.blank isConstruct.solid
  have absent_ : Refuses (absent (sign "</")) d (gap ++ (['<', '/'] ++ (name ++ ['>']) ++ after)) := by
    intro c dialect rest
    have found := open_ c dialect (by simp [rest])
    rw [absent, found]
  rw [closingText, List.append_assoc]
  refine Refuses.firstOf (isConstruct.refuses isGap.isSpacing (by simp)) (Refuses.firstOf (isConstruct.refuses isGap.isSpacing (by simp))
    (Refuses.firstOf (isConstruct.refuses isGap.isSpacing (by simp)) (Refuses.firstOf (Refuses.bind ?_) absent_.bind.last)))
  exact Refuses.construct (Refuses.bind (refuses_sign (s := []) blank_nil isConstruct.solid rfl)) _ isGap.blank
    isConstruct.solid

/-! ### Derived markup is read -/

/-- The parser at hand takes a text where one of a shape is looked for. -/
def Shape.IsRead (depth : Nat) (d : Dialect) : Shape → List Char → (Nat → List Node → Prop) → Prop
  | .element, text, Fits => (∃ c rest, text = '<' :: c :: rest ∧ (isNameRest c = true ∨ c = '>')) ∧
    ∀ space after, Blank space →
      Yields (rule depth .element) d (space ++ text) after fun n node => Fits (n + space.length) [node]
  | .content, text, Fits => ∀ after, Refuses (Markup.content (rule depth)) d after →
    Iterates (Markup.content (rule depth)) d text after fun n found => Fits n found.flatten

theorem opens_head {tag : TagText} (isTitle : IsTitle tag.name) (rest : List Char) :
    ∃ c more, tag.head ++ rest = '<' :: c :: more ∧ (isNameRest c = true ∨ c = '>') := by
  obtain ⟨c, name, same, part⟩ := isTitle.opens
  refine ⟨c, name ++ (attributesText tag.gap tag.items ++ rest), ?_, Or.inl part⟩
  simp [TagText.head, same]

/-- A tag that closes itself. -/
theorem yields_selfClosing {tag : TagText} (isTitle : IsTitle tag.name) (derived : tag.IsDerived)
    (enough : 4 * tag.head.length ≤ depth) (blank : Blank s) :
    Yields (element (rule depth)) d (s ++ tag.selfClosing) after fun n node =>
      ∃ nodes, node = .mk .selfClosingTag .plain ⟨n + s.length, n + s.length + tag.selfClosing.length⟩ nodes ∧
        tag.Fits (n + s.length) nodes := by
  have endsTag : EndsTag (['/', '>'] ++ after) := ⟨after, Or.inr rfl⟩
  obtain ⟨e, others, opens, -⟩ := opens_head isTitle (tag.endGap ++ ['/', '>'])
  have solid : Solid (tag.selfClosing ++ after) := by
    rw [TagText.selfClosing, opens]
    exact solid_cons _ (by decide) (by decide)
  have moves : tag.selfClosing ≠ [] := by
    rw [TagText.selfClosing, opens]
    exact List.cons_ne_nil _ _
  have head_ : Yields (tagHead (rule depth)) d tag.head (tag.endGap ++ ['/', '>'] ++ after) tag.Fits := by
    rw [List.append_assoc]
    exact yields_tagHead isTitle derived endsTag enough
  have closed : Yields (opt (sign "/>")) d (tag.endGap ++ ['/', '>']) after fun _ found => found.isSome = true :=
    (yields_sign "/>" derived.endGap endsTag.solid (by simp)).opt.mono fun _ found some_ => by
      obtain ⟨a, rfl, -⟩ := some_
      rfl
  refine (Yields.start (fun first n node => n = first → ∃ nodes,
    node = .mk .selfClosingTag .plain ⟨n, n + tag.selfClosing.length⟩ nodes ∧ tag.Fits n nodes) blank
      solid (fun first => ?_) moves).mono fun n node fits => fits rfl
  refine head_.bind fun n nodes fits => ?_
  refine closed.settled (by simp) fun m found some_ c dialect rest stop => ?_
  have named : (!nodes.isEmpty || d.typed) = true := by
    obtain ⟨title, attributes, rfl, -⟩ := fits
    rfl
  refine ⟨.mk .selfClosingTag .plain ⟨first, m + (tag.endGap ++ ['/', '>']).length⟩ nodes, ?_, ?_⟩
  · rw [if_pos some_, bind_of_some (sees_typed c dialect rest), bind_of_some (sees_guarded named c dialect rest),
      ← stop]
    rfl
  · intro place begin_
    subst place begin_
    refine ⟨nodes, ?_, fits⟩
    simp only [TagText.selfClosing, List.length_append, Nat.add_assoc]

/-- An element with content. -/
theorem yields_enclosed {head endGap inside gap name : List Char} {Head Inside : Nat → List Node → Prop}
    (opens : ∃ rest, head = '<' :: rest) (blankEnd : Blank endGap)
    (yieldsHead : Yields (tagHead (rule depth)) d head (endGap ++ ['>'] ++ (inside ++ closingText gap name) ++ after) Head)
    (isRead : Shape.content.IsRead depth d inside Inside) (isGap : IsGap gap) (title : IsTitleOrNone name)
    (blank : Blank s) :
    Yields (element (rule depth)) d (s ++ enclosedText head endGap inside gap name) after fun n node =>
      IsEnclosed head endGap inside gap name Head Inside (n + s.length) [node] := by
  obtain ⟨rest, headText⟩ := opens
  have solid : Solid (enclosedText head endGap inside gap name ++ after) := by
    rw [enclosedText, headText]
    exact solid_cons _ (by decide) (by decide)
  have moves : enclosedText head endGap inside gap name ≠ [] := by
    rw [enclosedText, headText]
    exact List.cons_ne_nil _ _
  have solidEnd (more : List Char) : Solid ('>' :: more) := solid_cons more (by decide) (by decide)
  have noClosed : Refuses (sign "/>") d (endGap ++ ['>'] ++ (inside ++ closingText gap name) ++ after) := by
    rw [List.append_assoc, List.append_assoc]
    exact refuses_sign blankEnd (solidEnd _) rfl
  have end_ : Yields (sign ">") d (endGap ++ ['>']) (inside ++ closingText gap name ++ after) Anything :=
    yields_sign ">" blankEnd (solidEnd _) (by simp)
  have noContent := @refuses_content depth d gap isGap name after
  have content_ : Yields (manyNodes (content (rule depth))) d inside (closingText gap name ++ after)
      Inside :=
    (isRead _ noContent).many.map List.flatten fun _ _ fits => fits
  have closing_ := yields_closingTag (d := d) isGap title after
  refine (Yields.start (fun first n node => n = first →
    IsEnclosed head endGap inside gap name Head Inside first [node]) blank solid (fun first => ?_) moves).mono
      fun n node fits => fits rfl
  refine Yields.congr (yieldsHead.bind (m := endGap ++ ['>'] ++ (inside ++ closingText gap name))
    fun n nodes fits => ?_) (List.append_assoc _ _ _).symm
  refine noClosed.opt.yields_bind ?_
  rw [Option.isSome_none, if_neg Bool.false_ne_true]
  refine end_.bind fun m _ _ => Yields.pastLast fun stop => ?_
  refine content_.bind fun k found holds => ?_
  refine closing_.last (by simp [closingText]) fun l closing kind c => ⟨_, rfl, fun place start_ begin_ head_ => ?_⟩
  subst place start_ begin_ head_
  refine ⟨nodes, found, closing, stop, ?_, fits, kind, ?_⟩
  · have stop_ : n + head.length + (endGap ++ ['>']).length + inside.length + (closingText gap name).length =
        n + (enclosedText head endGap inside gap name).length := by
      simp only [enclosedText, List.length_append]
      omega
    rw [stop_]
  · rw [List.length_append, ← Nat.add_assoc]
    exact holds

/-- An element on a line of its own is a piece of content. -/
theorem yields_child {gap : List Char} {Fits : Nat → List Node → Prop} (isRead : Shape.element.IsRead depth d text Fits)
    (isGap : IsGap gap) (after : List Char) :
    Yields (content (rule depth)) d (gap ++ text) after fun n nodes => Fits (n + gap.length) nodes := by
  obtain ⟨⟨c, rest, same, other⟩, yields⟩ := isRead
  have isConstruct : IsConstruct (text ++ after) := by
    rw [same]
    exact isConstruct_angle (other.imp id Or.inl) _
  have refuses {reader : Reader (List Node)} (among : reader ∈ [(do return [← textNode]), contentRemark,
      (do return [← lexeme .characterReference characterReferenceLength?])]) :
      Refuses reader d (gap ++ text ++ after) := by
    rw [List.append_assoc]
    exact isConstruct.refuses isGap.isSpacing among
  have noContainer : Refuses (container (rule depth)) d (gap ++ text ++ after) := by
    rw [List.append_assoc]
    refine Refuses.construct (Refuses.bind (refuses_sign (s := []) blank_nil isConstruct.solid ?_)) _ isGap.blank
      isConstruct.solid
    rw [same]
    rfl
  have noClose : Refuses (sign "</") d (gap ++ text ++ after) := by
    rw [List.append_assoc]
    refine refuses_sign isGap.blank isConstruct.solid ?_
    have slash : '/' ≠ c := by
      rintro rfl
      revert other
      decide
    rw [same]
    show (if '/' = c then _ else none).isSome = false
    rw [if_neg slash]
    rfl
  refine (refuses (by simp)).yields_firstOf ((refuses (by simp)).yields_firstOf
    ((refuses (by simp)).yields_firstOf (noContainer.bind.yields_firstOf (Yields.firstOf ?_ _))))
  have absent_ : Sees (absent (sign "</")) d (gap ++ text ++ after) () := by
    intro c dialect rest
    rw [absent, noClose c dialect rest]
  exact absent_.yields_bind ((yields gap after isGap.blank).map (fun node => [node]) fun n node fits => fits)

/-- A name between braces is a piece of content. -/
theorem yields_slot {name gap : List Char} (isIdentifier : IsIdentifier name) (isGap : IsGap gap) (after : List Char) :
    Yields (content (rule (depth + 2))) d (gap ++ bracedText name) after fun n nodes =>
      nodes = [.mk .container .plain ⟨n + gap.length, n + gap.length + (bracedText name).length⟩
        [leaf .identifier (n + gap.length + 1) name.length]] := by
  have isConstruct : IsConstruct (bracedText name ++ after) :=
    ⟨⟨'\x7b', _, rfl, rfl⟩, solid_cons _ (by decide) (by decide), rfl, rfl⟩
  have refuses {reader : Reader (List Node)} (among : reader ∈ [(do return [← textNode]), contentRemark,
      (do return [← lexeme .characterReference characterReferenceLength?])]) :
      Refuses reader d (gap ++ bracedText name ++ after) := by
    rw [List.append_assoc]
    exact isConstruct.refuses isGap.isSpacing among
  obtain ⟨tree, rfl, takes⟩ := readable_name (d := d) isIdentifier depth false [] (['\x7d'] ++ after) blank_nil
    ⟨[], '\x7d', after, blank_nil, by decide, rfl⟩
  have noComma : Refuses (sign ",") d (['\x7d'] ++ after) :=
    refuses_sign (s := []) blank_nil (solid_cons _ (by decide) (by decide)) rfl
  have sequence_ : Yields (rule (depth + 2) (.sequence false)) d name (['\x7d'] ++ after) fun n node =>
      node = leaf .identifier n name.length :=
    (takes_sequence takes noComma).yields isIdentifier.nonempty fun _ => rfl
  have container_ := yields_container (d := d) isIdentifier.toIsWord.startsPlain after sequence_ isGap.blank
  refine (refuses (by simp)).yields_firstOf ((refuses (by simp)).yields_firstOf
    ((refuses (by simp)).yields_firstOf (Yields.firstOf (container_.map (fun node => [node]) fun n node covers => ?_) _)))
  obtain ⟨children, rfl, inner, rfl, rfl⟩ := covers
  rfl

/-- One more piece of content. -/
theorem iterates_piece {more : List Char} {Here Later : Nat → List Node → Prop} (moves : text ≠ [])
    (first : Yields (content (rule depth)) d text (more ++ after) Here)
    (others : Iterates (content (rule depth)) d more after fun n found => Later n found.flatten) :
    Iterates (content (rule depth)) d (text ++ more) after fun n found =>
      ∃ here later, found.flatten = here ++ later ∧ Here n here ∧ Later (n + text.length) later := by
  intro c steps dialect same within
  obtain ⟨found, takes, here, rest, rfl, fits, later⟩ := first.iterates moves others c steps dialect same within
  exact ⟨_, takes, here, rest.flatten, rfl, fits, later⟩

/-- **The parser at hand takes all derived markup.** It does at every depth that is four times the length of the text. -/
theorem Derives.isRead {shape : Shape} {text : List Char} {Fits : Nat → List Node → Prop} (derives : Derives shape text Fits)
    {depth : Nat} (enough : 4 * text.length ≤ depth) : shape.IsRead depth d text Fits := by
  induction derives generalizing depth with
  | @selfClosing tag isMember derived =>
    have opens := opens_head (.inl isMember) (tag.endGap ++ ['/', '>'])
    simp only [TagText.selfClosing, List.length_append, List.length_cons, List.length_nil] at enough
    obtain ⟨depth, rfl⟩ : ∃ fewer, depth = fewer + 1 := ⟨depth - 1, by omega⟩
    refine ⟨opens, fun space after blank => ?_⟩
    refine (@yields_selfClosing depth d space after tag (.inl isMember) derived (by omega) blank).mono fun n node fits => ?_
    obtain ⟨nodes, rfl, fits⟩ := fits
    exact ⟨nodes, rfl, fits⟩
  | @enclosed tag inside gap Inside isMember derived content isGap ih =>
    simp only [TagText.around, enclosedText, List.length_append, List.length_cons, List.length_nil] at enough
    obtain ⟨depth, rfl⟩ : ∃ fewer, depth = fewer + 1 := ⟨depth - 1, by omega⟩
    constructor
    · rw [TagText.around, enclosedText, List.append_assoc]
      exact opens_head (.inl isMember) _
    · intro space after blank
      have head_ : Yields (tagHead (rule depth)) d tag.head
          (tag.endGap ++ ['>'] ++ (inside ++ closingText gap tag.name) ++ after) tag.Fits := by
        rw [List.append_assoc, List.append_assoc]
        exact yields_tagHead (.inl isMember) derived ⟨_, Or.inl rfl⟩ (by omega)
      exact yields_enclosed ⟨_, rfl⟩ derived.endGap head_ (ih (by omega)) isGap (Or.inl (Or.inl isMember)) blank
  | @wrapper name inside gap Inside isTagWord content isGap ih =>
    simp only [enclosedText, List.length_append, List.length_cons, List.length_nil] at enough
    obtain ⟨depth, rfl⟩ : ∃ fewer, depth = fewer + 1 := ⟨depth - 1, by omega⟩
    obtain ⟨c, rest, same, part⟩ := IsTitle.opens (.inr isTagWord)
    refine ⟨⟨c, _, by rw [same]; rfl, Or.inl part⟩, fun space after blank => ?_⟩
    let tag : TagText := ⟨name, [' '], [], []⟩
    have derived : tag.IsDerived := ⟨List.forall_mem_nil _, ⟨blank_space, List.cons_ne_nil _ _⟩, blank_nil⟩
    have text_ : tag.head = '<' :: name := by simp [tag, TagText.head, attributesText]
    have head_ : Yields (tagHead (rule depth)) d ('<' :: name)
        ([] ++ ['>'] ++ (inside ++ closingText gap name) ++ after) (IsTitled name) := by
      rw [← text_]
      refine (yields_tagHead (.inr isTagWord) derived ⟨_, Or.inl rfl⟩ ?_).mono fun n nodes fits => ?_
      · rw [text_, List.length_cons]
        omega
      · obtain ⟨title, attributes, rfl, span, kind, none_⟩ := fits
        obtain rfl : attributes = [] := none_
        exact ⟨title, rfl, span, kind⟩
    exact yields_enclosed ⟨_, rfl⟩ blank_nil head_ (ih (by omega)) isGap (Or.inl (Or.inr isTagWord)) blank
  | @fragment inside gap Inside content isGap ih =>
    simp only [enclosedText, List.length_append, List.length_cons, List.length_nil] at enough
    obtain ⟨depth, rfl⟩ : ∃ fewer, depth = fewer + 1 := ⟨depth - 1, by omega⟩
    refine ⟨⟨'>', _, rfl, Or.inr rfl⟩, fun space after blank => ?_⟩
    have open_ : Yields (sign "<") d ([] ++ ['<']) ([] ++ ['>'] ++ (inside ++ closingText gap []) ++ after) Anything :=
      yields_sign "<" blank_nil (solid_cons _ (by decide) (by decide)) (by simp)
    have head_ : Yields (tagHead (rule depth)) d ['<'] ([] ++ ['>'] ++ (inside ++ closingText gap []) ++ after)
        fun _ nodes => nodes = [] := by
      refine open_.bind (m := []) fun n _ _ => ?_
      exact ((refuses_tagName _).opt.bind (sees_pure [])).yields fun _ _ => rfl
    exact yields_enclosed ⟨_, rfl⟩ blank_nil head_ (ih (by omega)) isGap (Or.inr rfl) blank
  | nothing => exact fun after refuses => refuses.iterates fun _ => rfl
  | @child gap text more Here Later isGap element content ihElement ihContent =>
    simp only [List.length_append] at enough
    intro after refuses
    have isElement := @ihElement depth (by omega)
    obtain ⟨c, rest, rfl, -⟩ := isElement.1
    exact iterates_piece (List.append_ne_nil_of_right_ne_nil _ (List.cons_ne_nil _ _))
      (yields_child isElement isGap (more ++ after)) (ihContent (by omega) after refuses)
  | @slot gap name more Later isGap isIdentifier content ih =>
    simp only [List.length_append, bracedText, List.length_cons, List.length_nil] at enough
    obtain ⟨depth, rfl⟩ : ∃ fewer, depth = fewer + 2 := ⟨depth - 2, by omega⟩
    intro after refuses c steps dialect same within
    obtain ⟨found, takes, here, later, flat, rfl, fits⟩ :=
      iterates_piece (List.append_ne_nil_of_right_ne_nil _ (List.cons_ne_nil _ _))
        (yields_slot isIdentifier isGap (more ++ after)) (ih (by omega) after refuses) c steps dialect same within
    exact ⟨found, takes, later, flat, fits⟩
  | @weaken shape text Fits Others derives weaker ih =>
    have isRead := ih enough
    cases shape with
    | element => exact ⟨isRead.1, fun space after blank => (isRead.2 space after blank).mono fun n node => weaker _ _⟩
    | content =>
      intro after refuses c steps dialect same within
      obtain ⟨found, takes, fits⟩ := isRead after refuses c steps dialect same within
      exact ⟨found, takes, weaker _ _ fits⟩

end Markup

end Script

end AnimationCode
