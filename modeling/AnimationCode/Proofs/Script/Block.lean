/-
**Statements between braces.**

Every statement stands on a line of its own, behind a line break and an indentation. A statement is read
before any text that no `else` begins, so that statements follow one another.

* `IsStatement`: a text that is read as a statement, and what holds of its tree;
* `repeats_lines`: statements on lines of their own;
* `takes_block`: such lines between braces;
* `readable_callback`: a function without parameters around a block.
-/

import AnimationCode.Proofs.Script.Call

namespace AnimationCode

namespace Script

open Reader Expression Binding

/-! ### Names and strings alone -/

/-- A name, as an item among others. -/
def nameItem (name : List Char) : Item := tokenItem .identifier name

theorem readable_name {d : Dialect} {name : List Char} (isIdentifier : IsIdentifier name) (depth : Nat) (ends : Bool) :
    Readable (rule (depth + 1) (.expression ends)) d (nameItem name) := readable_token (.name isIdentifier) depth ends

/-- A string, as an item among others. -/
def stringItem (content : List Char) : Item := tokenItem .string (Text.quote content)

theorem readable_string {d : Dialect} {content : List Char} (noNull : '\x00' ∉ content) (depth : Nat) (ends : Bool) :
    Readable (rule (depth + 1) (.expression ends)) d (stringItem content) := readable_token (.string noNull) depth ends

/-- Arguments of which each is an expression that no three points begin. -/
theorem isReadable_arguments {depth : Nat} {d : Dialect} {items : List Item}
    (readable : ∀ item ∈ items,
      StartsPlain item.text ∧ Readable (rule depth (.expression false)) d item) :
    (Suffix.arguments items).IsReadable (rule depth) d :=
  ⟨fun item member => readable_item (readable item member).1 (readable item member).2,
    fun rest => refuses_item (by decide) rest⟩

/-! ### What statements begin with -/

/-- A text that begins with a word, which another sign follows. -/
def OpensWith (word : String) (text : List Char) : Prop :=
  ∃ rest, text = word.toList ++ rest ∧ IsWord word.toList ∧ rest ≠ [] ∧ EndsName rest

/-- A text before which a statement is over: no `else` begins it. -/
def Ended (text : List Char) : Prop :=
  ∃ space rest, Blank space ∧ Solid rest ∧ wordOf rest ≠ "else" ∧ markupRemarkLength? rest = none ∧
    text = space ++ rest

namespace OpensWith

variable {word : String} {text : List Char}

theorem wordOf_eq (opens : OpensWith word text) (after : List Char) : wordOf (text ++ after) = word := by
  obtain ⟨rest, rfl, isWord, some_, ends_⟩ := opens
  rw [List.append_assoc, wordOf_append isWord, String.ofList_toList]
  cases rest with
  | nil => exact absurd rfl some_
  | cons c rest => exact ends_

theorem exists_first (opens : OpensWith word text) : ∃ c rest, text = c :: rest ∧ isNameRest c = true := by
  obtain ⟨rest, rfl, ⟨all, -, nonempty⟩, -⟩ := opens
  cases same : word.toList with
  | nil => exact absurd same nonempty
  | cons c more => exact ⟨c, more ++ rest, rfl, all c (by rw [same]; exact List.mem_cons_self)⟩

theorem solid (opens : OpensWith word text) (after : List Char) : Solid (text ++ after) := by
  obtain ⟨c, rest, rfl, part⟩ := opens.exists_first
  exact solid_of_isNameRest (rest ++ after) part

theorem markupRemarkLength?_eq (opens : OpensWith word text) (after : List Char) :
    markupRemarkLength? (text ++ after) = none := by
  obtain ⟨c, rest, rfl, part⟩ := opens.exists_first
  have signs : isNameRest '<' = false ∧ isNameRest '-' = false := by decide
  have noOpening : '<' ≠ c := by
    rintro rfl
    rw [signs.1] at part
    cases part
  have noClosing : '-' ≠ c := by
    rintro rfl
    rw [signs.2] at part
    cases part
  rw [List.cons_append, markupRemarkLength?, if_neg]
  rw [show "<!--".toList = '<' :: "!--".toList from rfl, show "-->".toList = '-' :: "->".toList from rfl,
    startsWith_cons_of_ne _ _ noOpening, startsWith_cons_of_ne _ _ noClosing]
  exact Bool.false_ne_true

theorem ended (opens : OpensWith word text) (other : word ≠ "else") {space : List Char}
    (blank : Blank space) (after : List Char) : Ended (space ++ (text ++ after)) :=
  ⟨space, text ++ after, blank, opens.solid after, by rwa [opens.wordOf_eq after],
    opens.markupRemarkLength?_eq after, rfl⟩

end OpensWith

variable {d : Dialect} {space text after : List Char}

theorem sees_markupRemarks (blank : Blank space) (solid : Solid text)
    (none_ : markupRemarkLength? text = none) : Sees markupRemarks d (space ++ text) () := by
  refine Sees.discard (Refuses.many (Refuses.blanks blank solid (sees_rest.refuses_bind ?_)))
  rw [none_]
  exact refuses_failure

/-! ### Where no statement begins -/

theorem refuses_single_nil {rule : Grammar} {ends : Bool} : Refuses (single rule ends) d [] := by
  have ahead : Sees upcoming d [] [] := sees_upcoming (s := []) blank_nil solid_nil
  have next : Sees nextWord d [] "" := sees_nextWord (s := []) blank_nil solid_nil
  have primary_ : Refuses (primary rule ends) d [] := ahead.refuses_bind refuses_failure
  have operand_ : Refuses (operand rule ends) d [] :=
    ahead.refuses_bind (next.refuses_bind primary_.bind)
  exact ahead.refuses_bind (next.refuses_bind operand_.bind.bind.bind)

/-- A text that a closing brace begins, or none. -/
def IsClosed (text : List Char) : Prop := text = [] ∨ ∃ rest, text = '\x7d' :: rest

theorem IsClosed.solid (closed : IsClosed text) : Solid text := by
  rcases closed with rfl | ⟨rest, rfl⟩
  · exact solid_nil
  · exact solid_cons rest (by decide) (by decide)

theorem IsClosed.wordOf_eq (closed : IsClosed text) : wordOf text = "" := by
  rcases closed with rfl | ⟨rest, rfl⟩
  · rfl
  · exact wordOf_of_first rest (Or.inl (by decide))

theorem IsClosed.markupRemarkLength?_eq (closed : IsClosed text) : markupRemarkLength? text = none := by
  rcases closed with rfl | ⟨rest, rfl⟩ <;> rfl

theorem IsClosed.ended (closed : IsClosed text) (blank : Blank space) : Ended (space ++ text) :=
  ⟨space, text, blank, closed.solid, by rw [closed.wordOf_eq]; decide, closed.markupRemarkLength?_eq, rfl⟩

theorem refuses_sequence {depth : Nat} (closed : IsClosed text) :
    Refuses (rule depth (.sequence true)) d text := by
  cases depth with
  | zero => exact refuses_failure
  | succ depth =>
    refine Refuses.bind ?_
    cases depth with
    | zero => exact refuses_failure
    | succ depth =>
      rcases closed with rfl | ⟨rest, rfl⟩
      · exact refuses_single_nil
      · exact refuses_single (stops_of_closer (by decide) rest)

/-- No statement of an expression begins where no expression does. -/
theorem refuses_expressionStatement {rule : Grammar} (blank : Blank space) (solid : Solid text)
    (refuses : Refuses (rule (.sequence true)) d text) :
    Refuses (Statement.expressionStatement rule) d (space ++ text) := by
  refine Refuses.construct ?_ .expressionStatement blank solid
  have next := sees_nextWord (s := []) (d := d) blank_nil solid
  exact sees_typed.refuses_bind (next.refuses_bind (refuses_guarded_bind refuses.bind))

/-- No statement begins where a block or a script ends. -/
theorem refuses_statement {depth : Nat} (blank : Blank space) (closed : IsClosed text) :
    Refuses (rule depth .statement) d (space ++ text) := by
  cases depth with
  | zero => exact refuses_failure
  | succ depth =>
    have next := sees_nextWord (d := d) blank closed.solid
    have expression_ : Refuses (Statement.expressionStatement (rule depth)) d (space ++ text) :=
      refuses_expressionStatement blank closed.solid (refuses_sequence closed)
    rw [closed.wordOf_eq] at next
    refine (sees_upcoming blank closed.solid).refuses_bind ?_
    rcases closed with rfl | ⟨rest, rfl⟩
    · exact next.refuses_bind expression_
    · exact next.refuses_bind expression_

/-! ### Statements on lines of their own -/

/-- A text is a statement that begins with a word, before any text at which it is over. -/
def IsStatement (depth : Nat) (d : Dialect) (item : Item) : Prop :=
  (∃ word, OpensWith word item.text ∧ word ≠ "else") ∧
    ∀ space after, Blank space → Ended after →
      ∃ tree, item.Fits tree ∧
        Takes (rule depth .statement) d (space ++ item.text) after fun n => tree (n + space.length)

/-- The text of statements, each behind a line break and an indentation. -/
def lineText (pad : List Char) (items : List Item) : List Char := items.flatMap fun item => pad ++ item.text

/-- The nodes of statements on lines of their own, for the offset of the first line. -/
def LaysLines (pad : List Char) : List Item → (Nat → List Node) → Prop
  | [], nodes => nodes = fun _ => []
  | item :: rest, nodes => ∃ tree others, item.Fits tree ∧ LaysLines pad rest others ∧
    nodes = fun n => tree (n + pad.length) :: others (n + (pad ++ item.text).length)

theorem ended_lines {depth : Nat} {pad : List Char} (blank : Blank pad) {items : List Item}
    (statements : ∀ item ∈ items, IsStatement depth d item) (ended : Ended after) :
    Ended (lineText pad items ++ after) := by
  cases items with
  | nil => exact ended
  | cons item rest =>
    obtain ⟨⟨word, opens, other⟩, -⟩ := statements item List.mem_cons_self
    rw [lineText, List.flatMap_cons, List.append_assoc, List.append_assoc]
    exact opens.ended other blank _

theorem repeats_lines {depth : Nat} {pad : List Char} (blank : Blank pad) {items : List Item}
    (statements : ∀ item ∈ items, IsStatement depth d item) (ended : Ended after)
    (refuses : Refuses (markupRemarks *> rule depth .statement) d after) :
    ∃ nodes, LaysLines pad items nodes ∧
      Repeats (markupRemarks *> rule depth .statement) d (lineText pad items) after nodes := by
  induction items with
  | nil => exact ⟨_, rfl, Refuses.repeats refuses⟩
  | cons item rest ih =>
    have later : ∀ other ∈ rest, IsStatement depth d other := fun other member =>
      statements other (List.mem_cons_of_mem _ member)
    obtain ⟨others, laid, repeats⟩ := ih later
    obtain ⟨⟨word, opens, -⟩, reads⟩ := statements item List.mem_cons_self
    obtain ⟨tree, fits, takes⟩ := reads pad _ blank (ended_lines blank later ended)
    have remarks : Sees markupRemarks d (pad ++ item.text ++ (lineText pad rest ++ after)) () := by
      rw [List.append_assoc]
      exact sees_markupRemarks blank (opens.solid _) (opens.markupRemarkLength?_eq _)
    have first : Takes (markupRemarks *> rule depth .statement) d (pad ++ item.text)
        (lineText pad rest ++ after) fun n => tree (n + pad.length) := remarks.takes_bind takes
    have moves : pad ++ item.text ≠ [] := by
      obtain ⟨c, more, text, -⟩ := opens.exists_first
      rw [text]
      exact List.append_ne_nil_of_right_ne_nil pad (List.cons_ne_nil c more)
    exact ⟨_, ⟨tree, others, fits, laid, rfl⟩, first.follows.repeats moves repeats⟩

/-! ### Blocks -/

/-- The text of lines between braces. -/
def blockText (pad close : List Char) (items : List Item) : List Char :=
  '\x7b' :: (lineText pad items ++ (close ++ ['\x7d']))

/-- The node of lines between braces. -/
def blockNode (start length : Nat) (nodes : Nat → List Node) : Node :=
  .mk .block .plain ⟨start, start + length⟩ (nodes (start + 1))

theorem takes_block {depth : Nat} {pad close : List Char} (blankPad : Blank pad) (blankClose : Blank close)
    {items : List Item} (statements : ∀ item ∈ items, IsStatement depth d item) (blank : Blank space)
    (after : List Char) :
    ∃ nodes, LaysLines pad items nodes ∧
      Takes (block (rule depth)) d (space ++ blockText pad close items) after fun n =>
        blockNode (n + space.length) (blockText pad close items).length nodes := by
  have closed : IsClosed ('\x7d' :: after) := Or.inr ⟨after, rfl⟩
  have solid : ∀ rest, Solid ('\x7b' :: rest) := fun rest => solid_cons rest (by decide) (by decide)
  obtain ⟨nodes, laid, repeats⟩ := repeats_lines blankPad statements (closed.ended blankClose)
    ((sees_markupRemarks blankClose closed.solid closed.markupRemarkLength?_eq).refuses_bind
      (refuses_statement blankClose closed))
  refine ⟨nodes, laid, ?_⟩
  have open_ : Takes (sign "\x7b") d ([] ++ ['\x7b']) (lineText pad items ++ (close ++ ['\x7d']) ++ after)
      fun _ => () := takes_sign "\x7b" blank_nil (solid _)
  have close_ : Takes (sign "\x7d") d (close ++ ['\x7d']) after fun _ => () :=
    takes_sign "\x7d" blankClose closed.solid
  have after_ : close ++ '\x7d' :: after = close ++ ['\x7d'] ++ after := by
    rw [List.append_assoc]
    rfl
  have remarks := sees_markupRemarks (d := d) blankClose closed.solid closed.markupRemarkLength?_eq
  rw [after_] at repeats remarks
  have lines : Follows (Binding.statements (rule depth)) d (lineText pad items) (close ++ ['\x7d'] ++ after)
      nodes :=
    (repeats.many.bind (m := []) (b := fun n _ => nodes n) fun n =>
      (remarks.bind (sees_pure (nodes n))).follows).congr (List.append_nil _) fun _ => rfl
  have inside : Follows (Binding.statements (rule depth) >>= fun found => do
      sign "\x7d"
      return found) d (lineText pad items ++ (close ++ ['\x7d'])) after nodes :=
    lines.bind (b := fun n _ => nodes n) fun n => (close_.map fun _ => nodes n).follows
  exact (open_.bind (b := fun _ m => nodes m) fun _ => inside).construct .block blank (solid _)

/-! ### Functions without parameters -/

/-- The signs with which patterns begin. -/
def patternMarks : List (String × String) := [("\x7b", ""), ("[", "")]

/-- The signs with which parameters begin. -/
def parameterMarks : List (String × String) := ("...", "") :: ("@", "") :: patternMarks

theorem refuses_place {g : Grammar} (refuses : Refuses (anyName .identifier >>= fun _ => signBut "." "." <|> sign "[") d text) :
    Refuses (place g) d text := by
  intro cursor dialect same
  have never : (would (anyName .identifier *> (signBut "." "." <|> sign "["))) cursor = some (false, cursor) := by
    rw [would, show (anyName .identifier *> (signBut "." "." <|> sign "[")) cursor = none from refuses cursor dialect same]
    rfl
  rw [place, bind_of_some never]
  exact Refuses.bind (refuses_guarded rfl) cursor dialect same

/-- A word begins neither an object nor a list. -/
theorem refuses_bracketPatterns {g : Grammar} {name : List Char} (isWord : IsWord name) (blank : Blank space) (after : List Char) :
    Refuses (objectPattern g) d (space ++ name ++ after) ∧ Refuses (listPattern g) d (space ++ name ++ after) := by
  have brace : Refuses (sign "\x7b") d ([] ++ name ++ after) := refuses_signBefore isWord rfl (by decide) blank_nil after
  have bracket : Refuses (sign "[") d ([] ++ name ++ after) := refuses_signBefore isWord rfl (by decide) blank_nil after
  rw [List.append_assoc]
  exact ⟨Refuses.construct brace.bind _ blank (isWord.solid after), Refuses.construct bracket.bind _ blank (isWord.solid after)⟩

theorem refuses_pattern (depth : Nat) (lacks : Lacks patternMarks text) :
    Refuses (rule depth .pattern) d text := by
  cases depth with
  | zero => exact refuses_failure
  | succ depth =>
    refine Refuses.firstOf (lacks.refuses_construct _ "\x7b" (by decide) fun _ refuses => refuses.bind) ?_
    refine Refuses.firstOf (lacks.refuses_construct _ "[" (by decide) fun _ refuses => refuses.bind) ?_
    exact (refuses_place (lacks.refuses_anyName .identifier).bind).firstOf (lacks.refuses_name .identifier).last

theorem Lacks.of_subset {marks fewer : List (String × String)} (lacks : Lacks marks text)
    (subset : fewer ⊆ marks) : Lacks fewer text := by
  obtain ⟨space, rest, blank, solid, ends, rfl, none_⟩ := lacks
  exact ⟨space, rest, blank, solid, ends, rfl, fun mark member => none_ mark (subset member)⟩

theorem refuses_parameter (depth : Nat) (lacks : Lacks parameterMarks text) :
    Refuses (parameter (rule depth)) d text := by
  have rest_ : Refuses (restPattern (rule depth)) d text :=
    lacks.refuses_construct _ "..." (by decide) fun _ refuses => refuses.bind
  have pattern_ : Refuses (rule depth .pattern) d text :=
    refuses_pattern depth (lacks.of_subset (by decide))
  have decorator_ : Refuses (decorator (rule depth)) d text :=
    lacks.refuses_construct _ "@" (by decide) fun _ refuses => refuses.bind
  have modifier_ : Refuses parameterModifier d text :=
    lacks.sees_nextWord.refuses_bind (Refuses.bind (refuses_guarded (by decide)))
  refine sees_typed.refuses_bind ?_
  split
  · refine decorator_.many.refuses_bind (modifier_.many.discard.refuses_bind (Refuses.bind ?_))
    refine rest_.firstOf (pattern_.firstOf (Refuses.last ?_))
    obtain ⟨space, rest, blank, solid, ends, rfl, -⟩ := lacks
    refine Refuses.construct (Refuses.seqRight ?_) _ blank solid
    exact refuses_word (s := []) blank_nil solid (by rw [wordOf_of_ends ends]; decide)
  · exact rest_.bind.firstOf pattern_.bind.last

/-- No parameter begins where the parentheses of parameters close. -/
theorem Stops.parameter (stops : Stops text) : Lacks parameterMarks text := stops.lacks (by decide)

/-- What may be left out around parameters. -/
theorem takes_callSignature {rule : Grammar} {nodes : Nat → List Node}
    (starts : ∃ rest, text = '(' :: rest) (noType : Refuses (sign ":") d after)
    (takes : Takes (parameters rule) d text after nodes) :
    Takes (callSignature rule) d text after nodes := by
  obtain ⟨rest, rfl⟩ := starts
  have angle : Refuses (Typing.parameters rule) d ('(' :: rest ++ after) :=
    Refuses.bind (refuses_sign (s := []) blank_nil (solid_cons _ (by decide) (by decide)) rfl)
  refine sees_typed.takes_bind ?_
  split
  · refine angle.opt.discard.takes_bind ?_
    refine (takes.bind (m := []) (b := fun n _ => nodes n) fun n => ?_).congr (List.append_nil _)
      fun _ => rfl
    exact (noType.bind.opt.discard.bind (sees_pure (nodes n))).follows
  · exact takes

theorem takes_noParameters (depth : Nat) (after : List Char) :
    Takes (parameters (rule depth)) d ['(', ')'] after fun _ => [] := by
  have none_ : Sees (opt (commaList1 (parameter (rule depth)))) d ([')'] ++ after) none :=
    (refuses_parameter depth (stops_of_closer (by decide) after).parameter).bind.opt
  have close : Takes (sign ")") d ([] ++ [')']) after fun _ => () :=
    takes_sign ")" blank_nil (solid_cons _ (by decide) (by decide))
  have inside : Takes (do
      let items ← opt (commaList1 (parameter (rule depth)))
      if items.isSome then discard (opt (sign ","))
      sign ")"
      return items.getD []) d [')'] after fun _ => [] :=
    none_.takes_bind (close.map fun _ => [])
  have open_ : Takes (sign "(") d ([] ++ ['(']) ([')'] ++ after) fun _ => () :=
    takes_sign "(" blank_nil (solid_cons _ (by decide) (by decide))
  exact open_.bind (b := fun _ _ => []) fun _ => inside.follows

/-- The text of a function without parameters. -/
def callbackText (pad close : List Char) (items : List Item) : List Char :=
  "() => ".toList ++ blockText pad close items

/-- The node of a function without parameters. -/
def callbackNode (start length : Nat) (nodes : Nat → List Node) : Node :=
  .mk .arrowFunction .plain ⟨start, start + 6 + length⟩ [(blockNode (start + 6) length nodes).as .body]

/-- A function without parameters, as an item among others. -/
def callbackItem (pad close : List Char) (items : List Item) : Item where
  text := callbackText pad close items
  Fits := fun tree => ∃ nodes, LaysLines pad items nodes ∧
    tree = fun n => callbackNode n (blockText pad close items).length nodes

theorem readable_callback {depth : Nat} {pad close : List Char} (blankPad : Blank pad)
    (blankClose : Blank close) {items : List Item} (statements : ∀ item ∈ items, IsStatement depth d item) :
    Readable (rule (depth + 1) (.expression false)) d (callbackItem pad close items) := by
  intro space after blank stops
  obtain ⟨nodes, laid, takes⟩ := @takes_block d [' '] depth pad close blankPad blankClose items statements blank_space after
  refine ⟨_, ⟨nodes, laid, rfl⟩, ?_⟩
  have arrow : Takes (sign "=>") d ([' '] ++ ['=', '>']) ([' '] ++ blockText pad close items ++ after)
      fun _ => () := takes_sign "=>" blank_space (solid_cons _ (by decide) (by decide))
  have body : Takes (arrowBody (rule depth) false) d ([' '] ++ blockText pad close items) after fun n =>
      blockNode (n + 1) (blockText pad close items).length nodes :=
    Sees.takes_bind (sees_upcoming (s := [' ']) blank_space
      (solid_cons (c := '\x7b') _ (by decide) (by decide))) (takes.firstOf _)
  have noType : Refuses (sign ":") d ([' ', '=', '>'] ++ ([' '] ++ blockText pad close items) ++ after) :=
    refuses_sign (s := [' ']) blank_space (solid_cons (c := '=') _ (by decide) (by decide)) rfl
  have signature_ : Takes (callSignature (rule depth)) d ['(', ')']
      ([' ', '=', '>'] ++ ([' '] ++ blockText pad close items) ++ after) fun _ => [] :=
    takes_callSignature ⟨_, rfl⟩ noType (takes_noParameters depth _)
  have whole : Takes (do
      let items ← callSignature (rule depth)
      sign "=>"
      return items ++ [(← arrowBody (rule depth) false).as .body]) d
      (['(', ')'] ++ ([' ', '=', '>'] ++ ([' '] ++ blockText pad close items))) after fun n =>
        [(blockNode (n + 6) (blockText pad close items).length nodes).as .body] :=
    signature_.bind (b := fun _ m => [(blockNode (m + 4) (blockText pad close items).length nodes).as .body])
      fun _ => (arrow.bind
        (b := fun _ m => [(blockNode (m + 1) (blockText pad close items).length nodes).as .body])
        fun _ => (body.map fun node => [node.as .body]).follows).follows
  have solid : ∀ rest, Solid ('(' :: rest) := fun rest => solid_cons rest (by decide) (by decide)
  have ahead : Sees upcoming d (space ++ callbackText pad close items ++ after)
      (callbackText pad close items ++ after) := by
    rw [List.append_assoc]
    exact sees_upcoming blank (solid _)
  have primary_ : Takes (primary (rule depth) false) d (space ++ callbackText pad close items) after
      fun n => callbackNode (n + space.length) (blockText pad close items).length nodes := by
    refine ahead.takes_bind (Takes.firstOf ?_ _)
    refine (whole.construct .arrowFunction blank (solid _)).congr rfl fun n => ?_
    have stop : n + space.length + (callbackText pad close items).length =
        n + space.length + 6 + (blockText pad close items).length := by
      rw [callbackText, List.length_append, ← Nat.add_assoc]
      rfl
    rw [callbackNode, ← stop]
    rfl
  exact takes_single_of_primary blank ⟨Or.inl (by decide), by decide, by decide⟩ primary_ stops

end Script

end AnimationCode
