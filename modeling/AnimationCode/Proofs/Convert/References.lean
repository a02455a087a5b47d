/-
**The names that expressions lose.**

The text of an expression is read as words, quoted texts and other characters. A quoted text is closed by the mark that
opens it, be it a plain text or a template; what stands between the marks names nothing, nor does a word right after a
point. All other words that begin like a name are names. Those of them that the script bound are lost with it, and every
attribute and every phase that uses some is reported with a list of them.

* `References.Spells`, `References.exists_spells`: how a text is read, and that every text is read in some way;
* `References.mem_names_iff`: the names that an expression uses;
* `Value.Holds`, `References.mem_expressions_iff`: the expressions at any depth of a value;
* `References.mem_remarks`: what an attribute or a phase uses is remarked;
* `Component.lists_revise`: every name that is used and lost is listed.
-/

import AnimationCode.Proofs.Convert.Still
import AnimationCode.Proofs.Text.Replace
import AnimationCode.Proofs.Text.Split

namespace AnimationCode

namespace References

open Text (exists_fewer isNamePart isNameStart replaceFrom findFrom replaceFrom_take replaceFrom_pass findFrom_take findFrom_pass)

/-! ### Reading an expression -/

/-- The marks around quoted texts. -/
def IsMark (c : Char) : Prop := c = '\'' ∨ c = '"' ∨ c = '\x60'

/-- What stands between a mark and the same mark that closes it. Any character but a line feed may be escaped. -/
inductive Quotes (mark : Char) : List Char → Prop
  | nil : Quotes mark []
  | escaped {c : Char} {body : List Char} (line : c ≠ '\n') (rest : Quotes mark body) : Quotes mark ('\\' :: c :: body)
  | plain {c : Char} {body : List Char} (other : c ≠ mark) (bare : c ≠ '\\') (rest : Quotes mark body) : Quotes mark (c :: body)

/-- A part of the text of an expression. -/
inductive Piece where
  /-- A run of letters, digits and the like. -/
  | word (name : List Char)
  /-- A quoted text with its marks. -/
  | quoted
  /-- Any other character, also a mark that nothing closes. -/
  | other (c : Char)
deriving DecidableEq, Repr

/-- A text is read from left to right as words, quoted texts and other characters. -/
inductive Spells : List Char → List Piece → Prop
  | nil : Spells [] []
  | word {c : Char} {name text : List Char} {pieces : List Piece} (parts : ∀ d ∈ c :: name, isNamePart d = true)
      (apart : ∀ d ∈ text.head?, isNamePart d = false) (rest : Spells text pieces) :
      Spells (c :: (name ++ text)) (.word (c :: name) :: pieces)
  | quoted {mark : Char} {body text : List Char} {pieces : List Piece} (isMark : IsMark mark) (quotes : Quotes mark body)
      (rest : Spells text pieces) : Spells (mark :: (body ++ mark :: text)) (.quoted :: pieces)
  | other {c : Char} {text : List Char} {pieces : List Piece} (bare : isNamePart c = false)
      (unclosed : IsMark c → ∀ body after, Quotes c body → text ≠ body ++ c :: after) (rest : Spells text pieces) :
      Spells (c :: text) (.other c :: pieces)

/-- **An expression uses a name** if it is one of its words, begins like a name and does not follow a point. -/
def Uses (source name : String) : Prop :=
  ∃ before after, Spells source.toList (before ++ .word name.toList :: after) ∧ name.toList.head?.any isNameStart = true ∧
    before.getLast? ≠ some (.other '.')

theorem isNamePart_of_isNameStart {c : Char} (start : isNameStart c = true) : isNamePart c = true := by
  rw [isNameStart, Bool.or_eq_true, Bool.or_eq_true] at start
  rw [isNamePart, Text.isWord, Char.isAlphanum]
  rcases start with (letter | under) | dollar
  · simp [letter]
  · simp [under]
  · simp [dollar]

theorem isNamePart_of_isMark {mark : Char} (isMark : IsMark mark) : isNamePart mark = false := by
  rcases isMark with rfl | rfl | rfl <;> decide +kernel

theorem ne_backslash_of_isMark {mark : Char} (isMark : IsMark mark) : mark ≠ '\\' := by
  rcases isMark with rfl | rfl | rfl <;> decide

theorem afterQuote?_cons {c : Char} (bare : c ≠ '\\') (mark : Char) (cs : List Char) :
    afterQuote? mark (c :: cs) = if c = mark then some cs else afterQuote? mark cs :=
  afterQuote?.eq_4 mark c cs (fun _ _ same => absurd same bare) fun same => absurd same bare

/-- The rest after a quoted text is what follows the mark that closes it. -/
theorem afterQuote?_eq_some_iff {mark : Char} (isMark : IsMark mark) {cs rest : List Char} :
    afterQuote? mark cs = some rest ↔ ∃ body, Quotes mark body ∧ cs = body ++ mark :: rest := by
  constructor
  · intro found
    fun_induction afterQuote? mark cs with
    | case1 => cases found
    | case2 => cases found
    | case3 c cs line ih =>
      obtain ⟨body, quotes, same⟩ := ih found
      exact ⟨_, .escaped line quotes, by rw [same]; rfl⟩
    | case4 => cases found
    | case5 cs => exact ⟨[], .nil, by rw [Option.some.inj found]; rfl⟩
    | case6 c cs notEscape notLast other ih =>
      obtain ⟨body, quotes, same⟩ := ih found
      have bare : c ≠ '\\' := by
        intro escape
        cases cs with
        | nil => exact notLast escape rfl
        | cons d rest => exact notEscape d rest escape rfl
      exact ⟨_, .plain other bare quotes, by rw [same]; rfl⟩
  · rintro ⟨body, quotes, rfl⟩
    induction quotes with
    | nil => exact (afterQuote?_cons (ne_backslash_of_isMark isMark) mark rest).trans (if_pos rfl)
    | escaped line _ ih =>
      rw [List.cons_append, List.cons_append, afterQuote?, if_neg line]
      exact ih
    | plain other bare _ ih =>
      rw [List.cons_append, afterQuote?_cons bare, if_neg other]
      exact ih

/-- Every text is read in some way. -/
theorem exists_spells (text : List Char) : ∃ pieces, Spells text pieces := by
  -- on the length of the text, since a word or a quoted text leaves a rest that is no tail of it
  induction length : text.length using Nat.strongRecOn generalizing text with
  | ind size ih =>
    cases text with
    | nil => exact ⟨[], .nil⟩
    | cons c cs =>
      have shorter (rest : List Char) (less : rest.length < (c :: cs).length) : ∃ pieces, Spells rest pieces :=
        ih rest.length (length ▸ less) rest rfl
      by_cases part : isNamePart c = true
      · obtain ⟨pieces, spells⟩ := shorter (cs.dropWhile isNamePart) (Nat.lt_succ_of_le (List.length_dropWhile_le isNamePart cs))
        have parts : ∀ d ∈ c :: cs.takeWhile isNamePart, isNamePart d = true :=
          List.forall_mem_cons.mpr ⟨part, Text.all_takeWhile isNamePart cs⟩
        have apart (d : Char) (member : d ∈ (cs.dropWhile isNamePart).head?) : isNamePart d = false := by
          have first := List.head?_dropWhile_not isNamePart cs
          rwa [Option.mem_def.mp member] at first
        have word := Spells.word parts apart spells
        rw [List.takeWhile_append_dropWhile] at word
        exact ⟨_, word⟩
      · by_cases closed : IsMark c ∧ ∃ rest, afterQuote? c cs = some rest
        · obtain ⟨isMark, rest, found⟩ := closed
          obtain ⟨body, quotes, same⟩ := (afterQuote?_eq_some_iff isMark).mp found
          rw [same] at shorter ⊢
          obtain ⟨pieces, spells⟩ := shorter rest (by simp; omega)
          exact ⟨_, .quoted isMark quotes spells⟩
        · obtain ⟨pieces, spells⟩ := shorter cs (by simp)
          refine ⟨_, .other (Bool.eq_false_iff.mpr part) (fun isMark body after quotes same => closed ⟨isMark, after, ?_⟩) spells⟩
          exact (afterQuote?_eq_some_iff isMark).mpr ⟨body, quotes, same⟩

/-! ### Quoted texts are left out -/

/-- What is left of the pieces of a text when the quoted texts are left out. -/
def blanked : List Piece → List Char
  | [] => []
  | .word name :: rest => name ++ blanked rest
  | .quoted :: rest => '\'' :: '\'' :: blanked rest
  | .other c :: rest => c :: blanked rest

theorem quoted_of_bare {before : Option Char} {c : Char} {cs : List Char} (bare : ¬ IsMark c) :
    quoted before (c :: cs) = none := if_neg bare

/-- What is no mark stays before what becomes of the rest. -/
theorem replaceFrom_append {text result : List Char}
    (later : ∀ steps before, text.length ≤ steps → (replaceFrom quoted steps before text).1 = result) (part : List Char)
    (bare : ∀ c ∈ part, ¬ IsMark c) : ∀ steps before, (part ++ text).length ≤ steps →
      (replaceFrom quoted steps before (part ++ text)).1 = part ++ result := by
  induction part with
  | nil => exact later
  | cons c rest ih =>
    intro steps before enough
    obtain ⟨fewer, rfl, left⟩ := exists_fewer enough
    obtain ⟨here, there⟩ := List.forall_mem_cons.mp bare
    rw [List.cons_append, replaceFrom_pass (quoted_of_bare here), ih there fewer (some c) left]
    rfl

theorem replaceFrom_of_spells {text : List Char} {pieces : List Piece} (spells : Spells text pieces) :
    ∀ steps before, text.length ≤ steps → (replaceFrom quoted steps before text).1 = blanked pieces := by
  induction spells with
  | nil =>
    intro steps before _
    cases steps <;> rfl
  | @word c name text pieces parts apart rest ih =>
    have bare (d : Char) (member : d ∈ c :: name) : ¬ IsMark d := fun isMark =>
      absurd (parts d member) (by rw [isNamePart_of_isMark isMark]; decide)
    exact replaceFrom_append ih (c :: name) bare
  | @quoted mark body text pieces isMark quotes rest ih =>
    intro steps before enough
    obtain ⟨fewer, rfl, left⟩ := exists_fewer enough
    have taken : References.quoted before (mark :: (body ++ mark :: text)) = some (['\'', '\''], text) := by
      have found : afterQuote? mark (body ++ mark :: text) = some text :=
        (afterQuote?_eq_some_iff isMark).mpr ⟨body, quotes, rfl⟩
      exact (if_pos isMark).trans (by rw [found]; rfl)
    rw [replaceFrom_take taken, ih _ _ (by rw [List.length_append, List.length_cons] at left; omega)]
    rfl
  | @other c text pieces bare unclosed rest ih =>
    intro steps before enough
    obtain ⟨fewer, rfl, left⟩ := exists_fewer enough
    have passed : References.quoted before (c :: text) = none := by
      by_cases isMark : IsMark c
      · have nothing : afterQuote? c text = none := by
          refine Option.eq_none_iff_forall_ne_some.mpr fun after found => ?_
          obtain ⟨body, quotes, same⟩ := (afterQuote?_eq_some_iff isMark).mp found
          exact unclosed isMark body after quotes same
        exact (if_pos isMark).trans (by rw [nothing]; rfl)
      · exact quoted_of_bare isMark
    rw [replaceFrom_pass passed, ih _ _ left]
    rfl

/-! ### Names are found -/

/-- The names among the pieces of a text, given whether it follows a point. -/
def used (point : Bool) : List Piece → List String
  | [] => []
  | .word name :: rest => (if name.head?.any isNameStart && !point then [String.ofList name] else []) ++ used false rest
  | .quoted :: rest => used false rest
  | .other c :: rest => used (c == '.') rest

theorem mem_used_cons {name : String} {point : Bool} {piece : Piece} {rest : List Piece} :
    name ∈ used point (piece :: rest) ↔
      (piece = .word name.toList ∧ name.toList.head?.any isNameStart = true ∧ point = false) ∨
        name ∈ used (decide (piece = .other '.')) rest := by
  cases piece with
  | word cs =>
    have apart : decide (Piece.word cs = .other '.') = false := decide_eq_false nofun
    rw [used, apart, List.mem_append, Piece.word.injEq]
    refine or_congr_left ⟨fun member => ?_, fun ⟨same, start, free⟩ => ?_⟩
    · split at member
      · rename_i both
        rw [Bool.and_eq_true, Bool.not_eq_true'] at both
        rw [List.mem_singleton.mp member, String.toList_ofList]
        exact ⟨rfl, both⟩
      · cases member
    · rw [same, start, free, String.ofList_toList]
      exact List.mem_singleton_self name
  | quoted => simp [used]
  | other c =>
    have same : decide (Piece.other c = .other '.') = (c == '.') := by
      rw [Bool.eq_iff_iff, decide_eq_true_iff, beq_iff_eq, Piece.other.injEq]
    rw [used, same]
    simp

/-- The names among the pieces are the words that begin like one and follow no point. -/
theorem mem_used_iff {name : String} (pieces : List Piece) : ∀ point, name ∈ used point pieces ↔ ∃ before after,
    pieces = before ++ .word name.toList :: after ∧ name.toList.head?.any isNameStart = true ∧
      (before = [] → point = false) ∧ before.getLast? ≠ some (.other '.') := by
  induction pieces with
  | nil => simp [used]
  | cons piece rest ih =>
    intro point
    rw [mem_used_cons, ih]
    constructor
    · rintro (⟨rfl, start, free⟩ | ⟨before, after, rfl, start, first, last⟩)
      · exact ⟨[], rest, rfl, start, fun _ => free, nofun⟩
      · refine ⟨piece :: before, after, rfl, start, nofun, ?_⟩
        cases before with
        | nil => simpa using first rfl
        | cons next before => simpa [List.getLast?_cons_cons] using last
    · rintro ⟨before, after, same, start, first, last⟩
      cases before with
      | nil =>
        obtain ⟨rfl, -⟩ := List.cons.inj same
        exact .inl ⟨rfl, start, first rfl⟩
      | cons next before =>
        obtain ⟨rfl, rfl⟩ := List.cons.inj same
        refine .inr ⟨before, after, rfl, start, ?_, ?_⟩
        · rintro rfl
          simpa using last
        · cases before with
          | nil => nofun
          | cons second before => simpa [List.getLast?_cons_cons] using last

/-- A text begins like a word whether or not the quoted texts are left out. -/
theorem head?_blanked {text : List Char} {pieces : List Piece} (spells : Spells text pieces)
    (apart : ∀ d ∈ text.head?, isNamePart d = false) : ∀ d ∈ (blanked pieces).head?, isNamePart d = false := by
  cases spells with
  | nil => exact apart
  | word parts _ _ => exact apart
  | quoted _ _ _ =>
    intro d member
    cases member
    decide +kernel
  | other _ _ _ => exact apart

theorem ne_point {c : Char} (part : isNamePart c = true) : c ≠ '.' := by
  rintro rfl
  exact absurd part (by decide +kernel)

theorem name_of_not_start {before : Option Char} {c : Char} {cs : List Char} (other : isNameStart c = false) :
    name before (c :: cs) = none := by
  rw [name, other, Bool.false_and]
  rfl

theorem name_of_point {cs : List Char} : name (some '.') cs = none := by
  cases cs with
  | nil => rfl
  | cons c cs =>
    rw [name, Option.any_some, beq_self_eq_true, Bool.or_true, Bool.not_true, Bool.and_false]
    rfl

/-- Inside a word no name begins. -/
theorem findFrom_inside {text : List Char} {result : List String}
    (later : ∀ steps b, isNamePart b = true → text.length ≤ steps → findFrom name steps (some b) text = result) (part : List Char)
    (parts : ∀ c ∈ part, isNamePart c = true) : ∀ steps b, isNamePart b = true → (part ++ text).length ≤ steps →
      findFrom name steps (some b) (part ++ text) = result := by
  induction part with
  | nil => exact later
  | cons c rest ih =>
    intro steps b inside enough
    obtain ⟨fewer, rfl, left⟩ := exists_fewer enough
    obtain ⟨here, there⟩ := List.forall_mem_cons.mp parts
    have passed : name (some b) (c :: (rest ++ text)) = none := by
      rw [name, Option.any_some, inside, Bool.true_or, Bool.not_true, Bool.and_false]
      rfl
    rw [List.cons_append, findFrom_pass passed]
    exact ih there fewer c here left

/-- A whole word is found, as long as it begins like a name and follows neither a point nor a part of a name. -/
theorem name_of_word {before : Option Char} {c : Char} {part text : List Char} (start : isNameStart c = true)
    (parts : ∀ d ∈ part, isNamePart d = true) (apart : ∀ d ∈ text.head?, isNamePart d = false)
    (free : ∀ b ∈ before, isNamePart b = false ∧ b ≠ '.') :
    name before (c :: (part ++ text)) = some (String.ofList (c :: part), text) := by
  have alone : (before.any fun b => isNamePart b || b == '.') = false := by
    cases before with
    | none => rfl
    | some b => simpa using free b rfl
  have whole : (part ++ text).takeWhile isNamePart = part := by
    rw [List.takeWhile_append_of_pos parts]
    cases text with
    | nil => rw [List.takeWhile_nil, List.append_nil]
    | cons d text => rw [List.takeWhile_cons_of_neg (by simp [apart d rfl]), List.append_nil]
  rw [name, start, alone]
  dsimp only
  rw [whole, List.drop_left]
  rfl

/-- A word is passed as a whole, and it is found if it is a name. -/
theorem findFrom_word {before : Option Char} {c : Char} {part text : List Char} {result : List String}
    (parts : ∀ d ∈ c :: part, isNamePart d = true) (apart : ∀ d ∈ text.head?, isNamePart d = false)
    (away : ∀ b ∈ before, isNamePart b = false)
    (later : ∀ steps b, isNamePart b = true → text.length ≤ steps → findFrom name steps (some b) text = result) {steps : Nat}
    (enough : (c :: (part ++ text)).length ≤ steps) : findFrom name steps before (c :: (part ++ text)) =
      (if isNameStart c && !(before == some '.') then [String.ofList (c :: part)] else []) ++ result := by
  obtain ⟨fewer, rfl, left⟩ := exists_fewer enough
  obtain ⟨isPart, others⟩ := List.forall_mem_cons.mp parts
  by_cases found : isNameStart c = true ∧ before ≠ some '.'
  · have free : ∀ b ∈ before, isNamePart b = false ∧ b ≠ '.' := fun b member =>
      ⟨away b member, fun same => found.2 (by rw [Option.mem_def.mp member, same])⟩
    have ends_ := List.getLast?_eq_some_getLast (List.cons_ne_nil c part)
    have rest : text.length ≤ fewer := (List.sublist_append_right part text).length_le.trans left
    rw [findFrom_take (name_of_word found.1 others apart free), ← List.cons_append, Text.lastBefore_append, ends_,
      later fewer _ (parts _ (List.getLast_mem _)) rest, found.1, beq_eq_false_iff_ne.mpr found.2]
    rfl
  · have nothing : (isNameStart c && !(before == some '.')) = false := by
      rw [Bool.eq_false_iff, ne_eq, Bool.and_eq_true, Bool.not_eq_true', beq_eq_false_iff_ne]
      exact found
    have passed : name before (c :: (part ++ text)) = none := by
      rw [not_and_or, not_not] at found
      rcases found with other | rfl
      · exact name_of_not_start (Bool.eq_false_iff.mpr other)
      · exact name_of_point
    rw [findFrom_pass passed, findFrom_inside later part others fewer c isPart left, nothing]
    rfl

theorem findFrom_of_spells {text : List Char} {pieces : List Piece} (spells : Spells text pieces) : ∀ steps before,
    (blanked pieces).length ≤ steps → (∀ b ∈ before, isNamePart b = true → ∀ d ∈ text.head?, isNamePart d = false) →
      findFrom name steps before (blanked pieces) = used (before == some '.') pieces := by
  induction spells with
  | nil =>
    intro steps before _ _
    cases steps <;> rfl
  | @word c part text pieces parts apart rest ih =>
    intro steps before enough clear
    have later (steps : Nat) (b : Char) (isPart : isNamePart b = true) (enough : (blanked pieces).length ≤ steps) :
        findFrom name steps (some b) (blanked pieces) = used false pieces := by
      have noPoint : (some b == some '.') = false := beq_eq_false_iff_ne.mpr fun same => ne_point isPart (Option.some.inj same)
      rw [ih steps (some b) enough fun _ _ _ => apart, noPoint]
    have away : ∀ b ∈ before, isNamePart b = false := fun b member => by
      by_contra inside
      exact absurd (clear b member (Bool.not_eq_false _ ▸ inside) c rfl) (by rw [parts c List.mem_cons_self]; decide)
    exact findFrom_word parts (head?_blanked rest apart) away later enough
  | @quoted mark body text pieces isMark quotes rest ih =>
    intro steps before enough _
    obtain ⟨more, rfl, second⟩ := exists_fewer enough
    obtain ⟨fewer, rfl, left⟩ := exists_fewer second
    have bare : isNameStart '\'' = false := by decide
    rw [blanked, findFrom_pass (name_of_not_start bare), findFrom_pass (name_of_not_start bare)]
    rw [ih _ _ left]
    · rfl
    · intro b member isPart
      cases member
      exact absurd isPart (by decide +kernel)
  | @other c text pieces bare unclosed rest ih =>
    intro steps before enough _
    obtain ⟨fewer, rfl, left⟩ := exists_fewer enough
    have noStart : isNameStart c = false := by
      by_contra start
      exact absurd (isNamePart_of_isNameStart (Bool.not_eq_false _ ▸ start)) (by rw [bare]; decide)
    rw [blanked, findFrom_pass (name_of_not_start noStart), ih _ _ left]
    · rfl
    · intro b member isPart
      cases member
      exact absurd isPart (by rw [bare]; decide)

/-- However a text is read, the names in it are found, in their order. -/
theorem names_of_spells {source : String} {pieces : List Piece} (spells : Spells source.toList pieces) :
    names source = used false pieces := by
  have blank : (Text.replaceEach quoted source.toList).1 = blanked pieces :=
    replaceFrom_of_spells spells source.toList.length none (Nat.le_refl _)
  rw [names, blank, Text.findEach]
  exact findFrom_of_spells spells (blanked pieces).length none (Nat.le_refl _) nofun

/-- The names that are found in an expression are those that it uses. -/
theorem mem_names_iff {source name : String} : name ∈ names source ↔ Uses source name := by
  constructor
  · intro found
    obtain ⟨pieces, spells⟩ := exists_spells source.toList
    rw [names_of_spells spells, mem_used_iff] at found
    obtain ⟨before, after, rfl, start, -, last⟩ := found
    exact ⟨before, after, spells, start, last⟩
  · rintro ⟨before, after, spells, start, last⟩
    rw [names_of_spells spells, mem_used_iff]
    exact ⟨before, after, rfl, start, fun _ => rfl, last⟩

-- a template is left out with all that is filled into it, and the last point of three counts as one
example : names "\x60$\x7bw\x7dpx\x60" = [] ∧ names "\x7b ...base, x: w \x7d" = ["x", "w"] := by decide +kernel

end References

/-! ### Expressions in values -/

/-- An expression at some depth of a value. -/
inductive Value.Holds : Value → String → Prop
  | code (source : String) : Holds (.code source) source
  | guarded {inner : Value} {source : String} (inside : Holds inner source) : Holds (.guarded inner) source
  | object {fields : List (String × Value)} {name : String} {value : Value} {source : String}
      (member : (name, value) ∈ fields) (inside : Holds value source) : Holds (.object fields) source
  | list {items : List Value} {item : Value} {source : String} (member : item ∈ items) (inside : Holds item source) :
      Holds (.list items) source

namespace References

theorem mem_expressionsOfItems_iff {source : String} (items : List Value) :
    source ∈ expressionsOfItems items ↔ ∃ item ∈ items, source ∈ expressions item := by
  induction items with
  | nil => simp [expressionsOfItems]
  | cons item rest ih => simp [expressionsOfItems, ih]

theorem mem_expressionsOfFields_iff {source : String} (fields : List (String × Value)) :
    source ∈ expressionsOfFields fields ↔ ∃ field ∈ fields, source ∈ expressions field.2 := by
  induction fields with
  | nil => simp [expressionsOfFields]
  | cons field rest ih => simp [expressionsOfFields, ih]

theorem mem_expressions_of_holds {value : Value} {source : String} (holds : value.Holds source) : source ∈ expressions value := by
  induction holds with
  | code source => exact List.mem_singleton_self source
  | guarded _ ih => exact ih
  | object member _ ih => exact (mem_expressionsOfFields_iff _).mpr ⟨_, member, ih⟩
  | list member _ ih => exact (mem_expressionsOfItems_iff _).mpr ⟨_, member, ih⟩

mutual

theorem holds_of_mem_expressions {source : String} : (value : Value) → source ∈ expressions value → value.Holds source
  | .code _, member => List.mem_singleton.mp member ▸ .code _
  | .guarded inner, member => .guarded (holds_of_mem_expressions inner member)
  | .object fields, member =>
    have ⟨_, known, inside⟩ := holds_of_mem_expressionsOfFields fields member
    .object known inside
  | .list items, member =>
    have ⟨_, known, inside⟩ := holds_of_mem_expressionsOfItems items member
    .list known inside

theorem holds_of_mem_expressionsOfItems {source : String} : (items : List Value) → source ∈ expressionsOfItems items →
    ∃ item ∈ items, item.Holds source
  | [], member => nomatch member
  | item :: rest, member => by
    rcases List.mem_append.mp member with here | there
    · exact ⟨item, List.mem_cons_self, holds_of_mem_expressions item here⟩
    · obtain ⟨other, known, inside⟩ := holds_of_mem_expressionsOfItems rest there
      exact ⟨other, List.mem_cons_of_mem _ known, inside⟩

theorem holds_of_mem_expressionsOfFields {source : String} : (fields : List (String × Value)) →
    source ∈ expressionsOfFields fields → ∃ field ∈ fields, field.2.Holds source
  | [], member => nomatch member
  | (name, value) :: rest, member => by
    rcases List.mem_append.mp member with here | there
    · exact ⟨(name, value), List.mem_cons_self, holds_of_mem_expressions value here⟩
    · obtain ⟨other, known, inside⟩ := holds_of_mem_expressionsOfFields rest there
      exact ⟨other, List.mem_cons_of_mem _ known, inside⟩

end

/-- The expressions of a value are those at any depth of it. -/
theorem mem_expressions_iff {value : Value} {source : String} : source ∈ expressions value ↔ value.Holds source :=
  ⟨holds_of_mem_expressions value, mem_expressions_of_holds⟩

/-! ### What is reported -/

/-- The bound names that the expressions in a value use. -/
def Lists (bindings : List String) (value : Value) (used : List String) : Prop :=
  ∀ name, name ∈ used ↔ name ∈ bindings ∧ ∃ source, value.Holds source ∧ Uses source name

/-- What is said of an attribute or a phase that uses some names. -/
def message (target : Framework) (field : String) (used : List String) : String :=
  "'" ++ field ++ "' references " ++ ", ".intercalate (used.map fun name => "'" ++ name ++ "'") ++ ", which " ++
    (if used.length = 1 then "is" else "are") ++ " not carried over to " ++ target.label

theorem lists_boundNames (bindings : List String) (value : Value) : Lists bindings value (boundNames bindings value) := by
  intro name
  rw [boundNames, List.mem_eraseDups, List.mem_flatMap]
  constructor
  · rintro ⟨source, inside, member⟩
    obtain ⟨found, bound⟩ := List.mem_filter.mp member
    exact ⟨List.contains_iff_mem.mp bound, source, mem_expressions_iff.mp inside, mem_names_iff.mp found⟩
  · rintro ⟨bound, source, holds, uses⟩
    exact ⟨source, mem_expressions_iff.mpr holds,
      List.mem_filter.mpr ⟨mem_names_iff.mpr uses, List.contains_iff_mem.mpr bound⟩⟩

/-- An attribute or a phase that uses bound names is remarked with all of them. -/
theorem mem_remarks {target : Framework} {bindings : List String} {motion : Motion} {field : String × Value}
    (member : field ∈ motion.attributes ++ motion.phases) {name : String} (known : name ∈ boundNames bindings field.2) :
    .limitation ⟨field.1, message target field.1 (boundNames bindings field.2), motion.location?⟩ ∈
      remarks target bindings motion := by
  refine List.mem_filterMap.mpr ⟨field, member, ?_⟩
  unfold remark?
  split
  · rename_i nothing
    rw [nothing] at known
    cases known
  · rfl

end References

namespace Component

open References (Uses Lists)

variable {component converted : Component} {account told : Account} {context : Context} {thresholds : Fields Value}

/-- **Every name that is used and lost is listed.** Where an attribute or a phase of a component that was converted uses a
name, at any depth of its value, that the script had bound, it is reported at the place of its element with a list of all such
names. -/
theorem lists_revise (away : context.framework ≠ component.framework)
    (done : component.revise account context thresholds = .ok (converted, told)) :
    ∀ motion ∈ converted.elements.motions, ∀ field ∈ motion.attributes ++ motion.phases, ∀ source name,
      field.2.Holds source → Uses source name → name ∈ component.bindings →
        ∃ used, Lists component.bindings field.2 used ∧ name ∈ used ∧
          ⟨field.1, References.message context.framework field.1 used, motion.location?⟩ ∈ told.limitations := by
  obtain ⟨middle, between, first, ⟨stay, -⟩ | ⟨-, last, made, rfl⟩⟩ := revise_eq_ok done
  · exact absurd stay away
  · have bindings : middle.bindings = component.bindings := by rw [optimize_elements first]
    obtain ⟨staggered, -, after, remarks⟩ := exists_carried made
    rw [bindings] at after remarks
    intro motion member field known source name holds uses bound
    have lists := References.lists_boundNames component.bindings field.2
    have listed := (lists name).mpr ⟨bound, source, holds, uses⟩
    refine ⟨_, lists, listed, ?_⟩
    dsimp only at member
    rw [after, carried, Forest.motions_map] at member
    obtain ⟨before, inside, rfl⟩ := List.mem_map.mp member
    exact remarks before inside _ (List.mem_append_right _ (References.mem_remarks known listed))

/-- A box whose width is a name of the script, as is what its height is read from. -/
def sizedBox : Component :=
  { Component.ofForest .react false "Box"
      [⟨{ Motion.ofTag "div" with
          phases := [("animate", .object [("width", .code "w + 1"), ("height", .list [.int 0, .code "sizes.h"])])] }, []⟩] with
    bindings := ["w", "h", "sizes"] }

/-- Both names are listed, and the property after the point is not. -/
theorem lists_revise_sizedBox : ∃ converted told,
    sizedBox.revise (Account.start .react) ⟨.vue, false, "Box", Focus.none⟩ [] = .ok (converted, told) ∧
    told.limitations = [⟨"animate", "'animate' references 'w', 'sizes', which are not carried over to vue", none⟩] ∧
    ∀ motion ∈ converted.elements.motions, ∀ field ∈ motion.attributes ++ motion.phases, ∀ source name,
      field.2.Holds source → Uses source name → name ∈ sizedBox.bindings →
        ∃ used, Lists sizedBox.bindings field.2 used ∧ name ∈ used ∧
          ⟨field.1, References.message .vue field.1 used, motion.location?⟩ ∈ told.limitations := by
  have shown : ((sizedBox.revise (Account.start .react) ⟨.vue, false, "Box", Focus.none⟩ []).map
      fun result => result.2.limitations).toOption =
        some [⟨"animate", "'animate' references 'w', 'sizes', which are not carried over to vue", none⟩] := by decide +kernel
  cases done : sizedBox.revise (Account.start .react) ⟨.vue, false, "Box", Focus.none⟩ [] with
  | error failure =>
    rw [done] at shown
    cases shown
  | ok result =>
    rw [done] at shown
    exact ⟨result.1, result.2, rfl, Option.some.inj shown, lists_revise (by decide) done⟩

end Component

end AnimationCode
