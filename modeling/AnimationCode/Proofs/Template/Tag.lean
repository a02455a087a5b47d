/-
**A tag is read as it is written.**

A tag has a name and attributes, and an attribute may have a text between double quotes. Blanks, equals signs, strokes and
quotes are no part of a name and a double quote is no part of a text, so each ends where it is written to end.

* `Template.attributes?_written`: attributes behind gaps are read one after another;
* `Template.token?_written`, `Template.token?_close`: a tag and its closing tag;
* `Template.scan_written`: a tag, with its closing tag if it stays open, is a template with one element.
-/

import AnimationCode.Proofs.Script.Lexeme
import AnimationCode.Proofs.Template.Match
import AnimationCode.Template.Node

namespace AnimationCode

namespace Template

/-! ### Names -/

/-- The name of an attribute. -/
def IsAttributeName (name : List Char) : Prop := name ≠ [] ∧ ∀ c ∈ name, isAttributePart c = true

/-- The name of a tag: a letter first. -/
def IsTagName (name : List Char) : Prop := name.head?.any Char.isAlpha = true ∧ ∀ c ∈ name, isTagPart c = true

instance (name : List Char) : Decidable (IsAttributeName name) := inferInstanceAs (Decidable (_ ∧ _))

instance (name : List Char) : Decidable (IsTagName name) := inferInstanceAs (Decidable (_ ∧ _))

theorem not_isBlank_of_isWord {c : Char} (word : Text.isWord c = true) : Text.isBlank c = false := by
  obtain ⟨low, space, -⟩ := Script.isNameRest_iff.mp (Script.isNameRest_of_isWord word)
  have notNext : c.toNat ≠ 0x85 := by
    intro next
    have word_ : Text.isWord (Char.ofNat 0x85) = true := by rw [← next, Char.ofNat_toNat, word]
    revert word_
    decide +kernel
  rw [Bool.eq_false_iff] at space ⊢
  intro blank
  apply space
  simp only [Text.isBlank, Script.isSpace, Bool.or_eq_true, Bool.and_eq_true, decide_eq_true_eq, beq_iff_eq] at blank ⊢
  omega

/-- What ends the name of an attribute ends the name of a tag. -/
theorem isAttributePart_of_isTagPart {c : Char} (part : isTagPart c = true) : isAttributePart c = true := by
  simp only [isTagPart, Bool.or_eq_true, beq_iff_eq] at part
  rcases part with ((word | rfl) | rfl) | rfl
  · have sign : ∀ d ∈ Script.nameSigns, c ≠ d := fun d member same =>
      (Script.isNameRest_iff.mp (Script.isNameRest_of_isWord word)).2.2 (same ▸ member)
    have others : c ≠ '=' ∧ c ≠ '>' ∧ c ≠ '/' ∧ c ≠ '"' ∧ c ≠ '\'' :=
      ⟨sign _ (by decide), sign _ (by decide), sign _ (by decide), sign _ (by decide), sign _ (by decide)⟩
    simp [isAttributePart, not_isBlank_of_isWord word, others]
  · decide
  · decide
  · decide

theorem not_isAttributePart_of_isBlank {c : Char} (blank : Text.isBlank c = true) : isAttributePart c = false := by
  rw [isAttributePart, blank]
  rfl

theorem not_isBlank_of_isAttributePart {c : Char} (part : isAttributePart c = true) : Text.isBlank c = false := by
  rw [Bool.eq_false_iff]
  intro blank
  rw [not_isAttributePart_of_isBlank blank] at part
  cases part

/-- A text that goes on with nothing of the name of an attribute. -/
def EndsNames (after : List Char) : Prop := ∃ c rest, after = c :: rest ∧ isAttributePart c = false

variable {name gap endGap after : List Char}

theorem takeWhile_name {p : Char → Bool} (all : ∀ c ∈ name, p c = true) (part : ∀ c, p c = true → isAttributePart c = true)
    (ends : EndsNames after) : (name ++ after).takeWhile p = name := by
  obtain ⟨c, rest, rfl, other⟩ := ends
  have stop : ¬ p c = true := fun holds => by
    rw [part c holds] at other
    cases other
  rw [List.takeWhile_append_of_pos all, List.takeWhile_cons_of_neg stop, List.append_nil]

/-! ### Gaps -/

/-- White space. -/
def IsGap (gap : List Char) : Prop := ∀ c ∈ gap, Text.isBlank c = true

theorem IsGap.append {more : List Char} (first : IsGap gap) (second : IsGap more) : IsGap (gap ++ more) :=
  List.forall_mem_append.mpr ⟨first, second⟩

theorem dropWhile_gap (isGap : IsGap gap) {c : Char} (solid : Text.isBlank c = false) (rest : List Char) :
    (gap ++ c :: rest).dropWhile Text.isBlank = c :: rest := by
  rw [List.dropWhile_append_of_pos isGap, List.dropWhile_cons_of_neg (by rw [solid]; exact Bool.false_ne_true)]

theorem endsNames_gap (isGap : IsGap gap) (later : EndsNames after) : EndsNames (gap ++ after) := by
  cases gap with
  | nil => exact later
  | cons c gap => exact ⟨c, gap ++ after, rfl, not_isAttributePart_of_isBlank (isGap c List.mem_cons_self)⟩

/-! ### The end of a tag -/

/-- The sign with which a tag ends. -/
def tagEnd (selfClosing : Bool) : List Char := if selfClosing then ['/', '>'] else ['>']

/-- The end of a tag begins with a sign that is no blank, no part of a name and no equals sign. -/
theorem tagEnd_append (selfClosing : Bool) (after : List Char) :
    ∃ c rest, tagEnd selfClosing ++ after = c :: rest ∧ Text.isBlank c = false ∧ isAttributePart c = false ∧ c ≠ '=' := by
  cases selfClosing with
  | true => exact ⟨'/', '>' :: after, rfl, by decide, by decide, by decide⟩
  | false => exact ⟨'>', after, rfl, by decide, by decide, by decide⟩

theorem tagEnd?_written (isGap : IsGap endGap) (selfClosing : Bool) (after : List Char) :
    tagEnd? (endGap ++ (tagEnd selfClosing ++ after)) = some (selfClosing, after) := by
  cases selfClosing with
  | true =>
    have solid : (endGap ++ '/' :: '>' :: after).dropWhile Text.isBlank = '/' :: '>' :: after :=
      dropWhile_gap isGap (by decide) _
    show tagEnd? (endGap ++ '/' :: '>' :: after) = _
    rw [tagEnd?, solid]
    rfl
  | false =>
    have solid : (endGap ++ '>' :: after).dropWhile Text.isBlank = '>' :: after := dropWhile_gap isGap (by decide) _
    show tagEnd? (endGap ++ '>' :: after) = _
    rw [tagEnd?, solid]
    rfl

/-! ### Attributes -/

/-- An attribute as it is written. -/
structure WrittenAttribute where
  name : List Char
  value? : Option (List Char)

namespace WrittenAttribute

/-- The text of an attribute: its value between double quotes. -/
def text (item : WrittenAttribute) : List Char :=
  match item.value? with
  | some value => item.name ++ '=' :: '"' :: (value ++ ['"'])
  | none => item.name

/-- An attribute that is read as it is written: its value has no double quote. -/
structure IsReadable (item : WrittenAttribute) : Prop where
  name : IsAttributeName item.name
  value : ∀ value ∈ item.value?, '"' ∉ value

/-- What is read of an attribute. -/
def pair (item : WrittenAttribute) : Attribute := (String.ofList item.name, item.value?.map String.ofList)

end WrittenAttribute

theorem value?_written {value : List Char} (noQuote : '"' ∉ value) (after : List Char) :
    value? ('"' :: (value ++ '"' :: after)) = some (value, after) := by
  have inside : (value ++ '"' :: after).takeWhile (· != '"') = value := by
    have other : ∀ c ∈ value, (c != '"') = true := by
      rintro c member
      rw [bne_iff_ne]
      rintro rfl
      exact noQuote member
    rw [List.takeWhile_append_of_pos other, List.takeWhile_cons_of_neg (by decide), List.append_nil]
  rw [value?, if_pos (.inl rfl)]
  dsimp only
  rw [inside, List.drop_left]

/-- The name of an attribute is followed by its value, or by something that is none. -/
theorem assigned?_written {item : WrittenAttribute} (readable : item.IsReadable) (ends : EndsNames after)
    (noValue : (after.dropWhile Text.isBlank).head? ≠ some '=') :
    (item.text ++ after).takeWhile isAttributePart = item.name ∧
      assigned? ((item.text ++ after).drop item.name.length) = some (item.value?, after) := by
  obtain ⟨name, value?⟩ := item
  cases value? with
  | none =>
    refine ⟨takeWhile_name readable.name.2 (fun _ => id) ends, ?_⟩
    show assigned? ((name ++ after).drop name.length) = _
    rw [List.drop_left, assigned?]
    split
    · rename_i opens
      rw [opens] at noValue
      exact absurd rfl noValue
    · rfl
  | some value =>
    have written : WrittenAttribute.text ⟨name, some value⟩ ++ after = name ++ '=' :: '"' :: (value ++ '"' :: after) := by
      simp [WrittenAttribute.text]
    rw [written]
    refine ⟨takeWhile_name readable.name.2 (fun _ => id) ⟨_, _, rfl, by decide⟩, ?_⟩
    have signed : ('=' :: '"' :: (value ++ '"' :: after)).dropWhile Text.isBlank = '=' :: '"' :: (value ++ '"' :: after) :=
      List.dropWhile_cons_of_neg (by decide)
    have quoted : ('"' :: (value ++ '"' :: after)).dropWhile Text.isBlank = '"' :: (value ++ '"' :: after) :=
      List.dropWhile_cons_of_neg (by decide)
    rw [List.drop_left, assigned?, signed]
    show (value? (('"' :: (value ++ '"' :: after)).dropWhile Text.isBlank)).map _ = _
    rw [quoted, value?_written (readable.value value rfl)]
    rfl

/-- Attributes, each behind a gap. -/
def attributesText (gap : List Char) (items : List WrittenAttribute) : List Char :=
  items.flatMap fun item => gap ++ item.text

variable {items : List WrittenAttribute} {selfClosing : Bool}

theorem WrittenAttribute.IsReadable.text_append {item : WrittenAttribute} (readable : item.IsReadable) (after : List Char) :
    ∃ c rest, item.text ++ after = c :: rest ∧ isAttributePart c = true := by
  obtain ⟨c, name, same⟩ := List.exists_cons_of_ne_nil readable.name.1
  have part : isAttributePart c = true := readable.name.2 c (same ▸ List.mem_cons_self)
  unfold WrittenAttribute.text
  rw [same]
  split
  · exact ⟨c, _, rfl, part⟩
  · exact ⟨c, _, rfl, part⟩

/-- Behind a name stand further attributes or the end of the tag: nothing of the name, and no value. -/
theorem ends_attributesText (isGap : IsGap gap) (someGap : gap ≠ []) (isEnd : IsGap endGap)
    (readable : ∀ item ∈ items, item.IsReadable) (selfClosing : Bool) (after : List Char) :
    EndsNames (attributesText gap items ++ (endGap ++ (tagEnd selfClosing ++ after))) ∧
      ((attributesText gap items ++ (endGap ++ (tagEnd selfClosing ++ after))).dropWhile Text.isBlank).head? ≠ some '=' := by
  cases items with
  | nil =>
    obtain ⟨c, rest, begins, solid, noPart, noSign⟩ := tagEnd_append selfClosing after
    rw [attributesText, List.flatMap_nil, List.nil_append, begins]
    refine ⟨endsNames_gap isEnd ⟨c, rest, rfl, noPart⟩, ?_⟩
    rw [dropWhile_gap isEnd solid]
    exact fun same => noSign (Option.some.inj same)
  | cons item items =>
    obtain ⟨c, rest, begins, part⟩ := (readable item List.mem_cons_self).text_append
      (attributesText gap items ++ (endGap ++ (tagEnd selfClosing ++ after)))
    have written : attributesText gap (item :: items) ++ (endGap ++ (tagEnd selfClosing ++ after)) = gap ++ c :: rest := by
      rw [← begins, attributesText, List.flatMap_cons, List.append_assoc, List.append_assoc]
      rfl
    obtain ⟨d, more, same⟩ := List.exists_cons_of_ne_nil someGap
    rw [written]
    refine ⟨⟨d, more ++ c :: rest, by rw [same]; rfl, ?_⟩, ?_⟩
    · exact not_isAttributePart_of_isBlank (isGap d (same ▸ List.mem_cons_self))
    · rw [dropWhile_gap isGap (not_isBlank_of_isAttributePart part)]
      intro sign
      obtain rfl := Option.some.inj sign
      exact absurd part (by decide)

theorem attributes?_end (isEnd : IsGap endGap) (selfClosing : Bool) (after : List Char) (steps : Nat) :
    attributes? steps (endGap ++ (tagEnd selfClosing ++ after)) = some ([], endGap ++ (tagEnd selfClosing ++ after)) := by
  cases steps with
  | zero => rfl
  | succ steps =>
    obtain ⟨c, rest, begins, solid, noPart, -⟩ := tagEnd_append selfClosing after
    rw [begins, attributes?]
    dsimp only
    rw [dropWhile_gap isEnd solid, List.takeWhile_cons_of_neg (by rw [noPart]; exact Bool.false_ne_true)]
    exact if_pos (Bool.or_true _)

/-- Attributes behind gaps are read one after another. -/
theorem attributes?_written (isGap : IsGap gap) (someGap : gap ≠ []) (isEnd : IsGap endGap)
    (readable : ∀ item ∈ items, item.IsReadable) (selfClosing : Bool) (after : List Char) {steps : Nat}
    (enough : items.length ≤ steps) :
    attributes? steps (attributesText gap items ++ (endGap ++ (tagEnd selfClosing ++ after))) =
      some (items.map WrittenAttribute.pair, endGap ++ (tagEnd selfClosing ++ after)) := by
  induction items generalizing steps with
  | nil => exact attributes?_end isEnd selfClosing after steps
  | cons item items ih =>
    obtain ⟨fewer, rfl⟩ := Nat.exists_eq_add_of_le' (Nat.one_le_of_lt enough)
    have others : ∀ item ∈ items, item.IsReadable := fun other member => readable other (List.mem_cons_of_mem _ member)
    have here := readable item List.mem_cons_self
    obtain ⟨ends, noValue⟩ := ends_attributesText isGap someGap isEnd others selfClosing after
    have later := ih others (Nat.le_of_succ_le_succ enough)
    have split : attributesText gap (item :: items) ++ (endGap ++ (tagEnd selfClosing ++ after)) =
        gap ++ (item.text ++ (attributesText gap items ++ (endGap ++ (tagEnd selfClosing ++ after)))) := by
      rw [attributesText, List.flatMap_cons, List.append_assoc, List.append_assoc]
      rfl
    rw [split]
    generalize attributesText gap items ++ (endGap ++ (tagEnd selfClosing ++ after)) = more at ends noValue later ⊢
    obtain ⟨c, rest, begins, part⟩ := here.text_append more
    obtain ⟨d, gap', rfl⟩ := List.exists_cons_of_ne_nil someGap
    have solid : (d :: gap' ++ (item.text ++ more)).dropWhile Text.isBlank = item.text ++ more := by
      rw [begins, dropWhile_gap isGap (not_isBlank_of_isAttributePart part)]
    obtain ⟨named, assigned⟩ := assigned?_written here ends noValue
    have opens : (!(d :: gap' ++ (item.text ++ more)).head?.any Text.isBlank || item.name == []) = false := by
      rw [Bool.or_eq_false_iff, beq_eq_false_iff_ne]
      refine ⟨?_, here.name.1⟩
      show (!Text.isBlank d) = false
      rw [isGap d List.mem_cons_self]
      rfl
    rw [attributes?]
    dsimp only
    rw [solid, named, opens, if_neg Bool.false_ne_true, assigned, Option.bind_some]
    dsimp only
    rw [later]
    rfl

/-! ### Tags -/

/-- A tag of which the name and the attributes are given. -/
def tagText (name gap : List Char) (items : List WrittenAttribute) (endGap : List Char) (selfClosing : Bool) : List Char :=
  '<' :: (name ++ (attributesText gap items ++ (endGap ++ tagEnd selfClosing)))

/-- The closing tag of a name. -/
def closeText (name : List Char) : List Char := '<' :: '/' :: (name ++ ['>'])

theorem length_attributesText (someGap : gap ≠ []) : items.length ≤ (attributesText gap items).length := by
  have positive := List.length_pos_iff.mpr someGap
  unfold attributesText
  induction items with
  | nil => exact Nat.le_refl _
  | cons item items ih =>
    rw [List.flatMap_cons, List.length_append, List.length_append, List.length_cons]
    omega

theorem tagBody?_written (isName : IsTagName name) (isGap : IsGap gap) (someGap : gap ≠ []) (isEnd : IsGap endGap)
    (readable : ∀ item ∈ items, item.IsReadable) (closing selfClosing : Bool) (after : List Char) :
    tagBody? closing (name ++ (attributesText gap items ++ (endGap ++ (tagEnd selfClosing ++ after)))) =
      some (if closing then .closing (String.ofList name)
        else .opening (String.ofList name) (items.map WrittenAttribute.pair) selfClosing, after) := by
  obtain ⟨ends, -⟩ := ends_attributesText isGap someGap isEnd readable selfClosing after
  have named := takeWhile_name isName.2 (fun _ => isAttributePart_of_isTagPart) ends
  have enough : items.length ≤
      (name ++ (attributesText gap items ++ (endGap ++ (tagEnd selfClosing ++ after)))).length := by
    have all : items.length ≤ (attributesText gap items).length := length_attributesText someGap
    rw [List.length_append, List.length_append]
    omega
  have letter : (!(name ++ (attributesText gap items ++ (endGap ++ (tagEnd selfClosing ++ after)))).head?.any
      Char.isAlpha) = false := by
    obtain ⟨first, -⟩ := isName
    cases name with
    | nil => cases first
    | cons c name =>
      show (!c.isAlpha) = false
      rw [show c.isAlpha = true from first]
      rfl
  rw [tagBody?, letter, if_neg Bool.false_ne_true]
  dsimp only
  rw [named, List.drop_left, attributes?_written isGap someGap isEnd readable selfClosing after enough, Option.bind_some]
  dsimp only
  rw [tagEnd?_written isEnd]
  rfl

theorem exists_letter (isName : IsTagName name) : ∃ c rest, name = c :: rest ∧ c ≠ '/' ∧ c ≠ '!' := by
  obtain ⟨first, -⟩ := isName
  cases name with
  | nil => cases first
  | cons c rest =>
    have letter : c.isAlpha = true := first
    refine ⟨c, rest, rfl, ?_, ?_⟩
    · rintro rfl
      exact absurd letter (by decide)
    · rintro rfl
      exact absurd letter (by decide)

/-- A tag is read as it is written. -/
theorem token?_written (isName : IsTagName name) (isGap : IsGap gap) (someGap : gap ≠ []) (isEnd : IsGap endGap)
    (readable : ∀ item ∈ items, item.IsReadable) (selfClosing : Bool) (after : List Char) :
    token? (tagText name gap items endGap selfClosing ++ after) =
      some (some (.opening (String.ofList name) (items.map WrittenAttribute.pair) selfClosing), after) := by
  have body := tagBody?_written isName isGap someGap isEnd readable false selfClosing after
  have split : tagText name gap items endGap selfClosing ++ after =
      '<' :: (name ++ (attributesText gap items ++ (endGap ++ (tagEnd selfClosing ++ after)))) := by
    simp [tagText]
  obtain ⟨c, rest, rfl, noStroke, noMark⟩ := exists_letter isName
  rw [split]
  rw [List.cons_append] at body ⊢
  generalize rest ++ (attributesText gap items ++ (endGap ++ (tagEnd selfClosing ++ after))) = more at body ⊢
  have noComment : comment? ('<' :: c :: more) = none := by
    have strip : Text.stripStart? ['<', '!', '-', '-'] ('<' :: c :: more) = none := by
      rw [Text.stripStart?, if_pos rfl, Text.stripStart?, if_neg noMark.symm]
    rw [comment?, show "<!--".toList = ['<', '!', '-', '-'] from rfl, strip]
    rfl
  have noSlash : (c :: more).head? ≠ some '/' := fun same => noStroke (Option.some.inj same)
  rw [token?, noComment, tag?_opening noSlash, body]
  rfl

/-- A closing tag is read as it is written. -/
theorem token?_close (isName : IsTagName name) (after : List Char) :
    token? (closeText name ++ after) = some (some (.closing (String.ofList name)), after) := by
  have none_ : IsGap [] := List.forall_mem_nil _
  have space : IsGap [' '] := List.forall_mem_singleton.mpr (by decide)
  have body := tagBody?_written isName space (List.cons_ne_nil _ _) none_ (List.forall_mem_nil _) true false after
  have split : closeText name ++ after = '<' :: '/' :: (name ++ '>' :: after) := by simp [closeText]
  have noComment : comment? ('<' :: '/' :: (name ++ '>' :: after)) = none := rfl
  have plain : name ++ '>' :: after = name ++ (attributesText [' '] [] ++ ([] ++ (tagEnd false ++ after))) := rfl
  rw [split, token?, noComment, tag?_closing, plain, body]
  rfl

/-! ### A template of one element -/

/-- A match at the beginning of a text. -/
theorem Matches.here (offset : Nat) {written rest last : List Char} {tag? : Option Tag} {others : List Match}
    (read : token? (written ++ rest) = some (tag?, rest)) (later : Matches (offset + written.length) rest others last) :
    Matches offset (written ++ rest) (⟨[], tag?, offset, written⟩ :: others) last :=
  .next (fun _ _ same some_ => absurd (List.append_eq_nil_iff.mp same.symm).2 some_) read later

theorem matches_nil (offset : Nat) : Matches offset [] [] [] :=
  .done fun _ _ same => by rw [(List.append_eq_nil_iff.mp same.symm).2]; rfl

/-- A tag, with its closing tag if it stays open, is a template with one element. -/
theorem scan_written (isName : IsTagName name) (isGap : IsGap gap) (someGap : gap ≠ []) (isEnd : IsGap endGap)
    (readable : ∀ item ∈ items, item.IsReadable) (selfClosing : Bool) (source : List Char) (offset : Nat) :
    ∃ texts, scan (tagText name gap items endGap selfClosing ++
        if staysOpen (String.ofList name) selfClosing then closeText name else []) offset source =
      .ok ⟨"#root", [], offset, offset, ["", ""], [⟨String.ofList name, items.map WrittenAttribute.pair, offset,
        offset + (tagText name gap items endGap selfClosing).length, texts, []⟩]⟩ := by
  by_cases stays : staysOpen (String.ofList name) selfClosing = true
  · have closed := Matches.here (offset + (tagText name gap items endGap selfClosing).length) (token?_close isName [])
      (matches_nil _)
    have all := Matches.here offset (token?_written isName isGap someGap isEnd readable selfClosing _) closed
    have same : sameTag (String.ofList name) (String.ofList name) = true := beq_self_eq_true _
    rw [List.append_nil] at all
    refine ⟨[""], ?_⟩
    rw [if_pos stays, scan, all.pieces]
    exact (if_pos stays).trans (if_pos same)
  · have all := Matches.here offset (token?_written isName isGap someGap isEnd readable selfClosing []) (matches_nil _)
    refine ⟨[], ?_⟩
    rw [if_neg stays, scan, all.pieces]
    exact if_neg stays

end Template

end AnimationCode
