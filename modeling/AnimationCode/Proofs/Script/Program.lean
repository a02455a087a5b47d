/-
**Statements one after another.**

A part of a script is a statement with the blanks before it. Parts one after another are read as long as each
begins with a word, since a statement is then over before the next.

* `Part.IsRead`: a part is a statement whose node fits;
* `yields_statements`, `yields_block`: parts up to the end of a block or a script;
* `exists_parse?`: a whole script.
-/

import AnimationCode.Proofs.Script.Statement
import AnimationCode.Proofs.Script.Tree
import AnimationCode.Proofs.Script.Yield

namespace AnimationCode

namespace Script

open Reader Binding

variable {depth : Nat} {d : Dialect} {space text after : List Char}

/-- A statement is what is looked for where its word stands. -/
theorem yields_statement {word : String} {Fits : Nat → Node → Prop} (opens : OpensWith word text)
    (blank : Blank space)
    (yields : Yields (statementOf (rule depth) word) d (space ++ text) after Fits) :
    Yields (rule (depth + 1) .statement) d (space ++ text) after Fits := by
  intro c dialect same
  rw [statement_of_word opens blank same]
  exact yields c dialect same

/-! ### Parts -/

/-- The text of a statement with the blanks before it, and what holds of its node at an offset. -/
structure Part where
  space : List Char
  text : List Char
  Fits : Nat → Node → Prop

namespace Part

/-- The blanks and the statement. -/
def whole (part : Part) : List Char := part.space ++ part.text

/-- The text of a part is a statement that begins with a word, before any text at which it is over. -/
structure IsRead (depth : Nat) (d : Dialect) (part : Part) : Prop where
  blank : Blank part.space
  opens : ∃ word, OpensWith word part.text ∧ word ≠ "else"
  yields : ∀ after, Ended after → Yields (rule depth .statement) d part.whole after fun n =>
    part.Fits (n + part.space.length)

/-- A statement that has a tree of its own. -/
def ofItem (space : List Char) (item : Item) : Part :=
  ⟨space, item.text, fun n node => ∃ tree, item.Fits tree ∧ node = tree n⟩

theorem IsRead.moves {part : Part} (isRead : part.IsRead depth d) : part.whole ≠ [] := by
  obtain ⟨word, opens, -⟩ := isRead.opens
  obtain ⟨c, rest, text, -⟩ := opens.exists_first
  rw [whole, text]
  exact List.append_ne_nil_of_right_ne_nil _ (List.cons_ne_nil c rest)

end Part

theorem IsStatement.isRead {item : Item} (isStatement : IsStatement depth d item) (blank : Blank space) :
    (Part.ofItem space item).IsRead depth d where
  blank := blank
  opens := isStatement.1
  yields := by
    intro after ended
    obtain ⟨word, opens, -⟩ := isStatement.1
    obtain ⟨c, rest, text, -⟩ := opens.exists_first
    obtain ⟨tree, fits, takes⟩ := isStatement.2 space after blank ended
    refine takes.yields ?_ fun n => ⟨tree, fits, rfl⟩
    rw [text]
    exact List.append_ne_nil_of_right_ne_nil _ (List.cons_ne_nil c rest)

/-- The text of parts one after another. -/
def partsText (parts : List Part) : List Char := parts.flatMap Part.whole

/-- Each node fits the part at its place. -/
def Along : List Part → Nat → List Node → Prop
  | [], _, nodes => nodes = []
  | part :: rest, n, nodes => ∃ node others, nodes = node :: others ∧
    part.Fits (n + part.space.length) node ∧ Along rest (n + part.whole.length) others

theorem ended_parts {parts : List Part} (read : ∀ part ∈ parts, part.IsRead depth d)
    (ended : Ended after) : Ended (partsText parts ++ after) := by
  cases parts with
  | nil => exact ended
  | cons part rest =>
    have isRead := read part List.mem_cons_self
    obtain ⟨word, opens, other⟩ := isRead.opens
    rw [partsText, List.flatMap_cons, Part.whole, List.append_assoc, List.append_assoc]
    exact opens.ended other isRead.blank _

theorem iterates_parts {parts : List Part} (read : ∀ part ∈ parts, part.IsRead depth d)
    (ended : Ended after) (refuses : Refuses (markupRemarks *> rule depth .statement) d after) :
    Iterates (markupRemarks *> rule depth .statement) d (partsText parts) after (Along parts) := by
  induction parts with
  | nil => exact Refuses.iterates refuses fun _ => rfl
  | cons part rest ih =>
    have later : ∀ other ∈ rest, other.IsRead depth d := fun other member =>
      read other (List.mem_cons_of_mem _ member)
    have isRead := read part List.mem_cons_self
    obtain ⟨word, opens, -⟩ := isRead.opens
    have remarks : Sees markupRemarks d (part.whole ++ (partsText rest ++ after)) () := by
      rw [Part.whole, List.append_assoc]
      exact sees_markupRemarks isRead.blank (opens.solid _) (opens.markupRemarkLength?_eq _)
    have first : Yields (markupRemarks *> rule depth .statement) d part.whole (partsText rest ++ after)
        fun n => part.Fits (n + part.space.length) :=
      remarks.yields_bind (isRead.yields _ (ended_parts later ended))
    intro c steps dialect rest_ enough
    obtain ⟨found, takes, node, others, same, fits, along⟩ :=
      first.iterates isRead.moves (ih later) c steps dialect rest_ enough
    exact ⟨found, takes, node, others, same, fits, along⟩

/-! ### The end of parts -/

/-- Parts up to what is no statement. -/
theorem yields_statements_of_refused {parts : List Part} (read : ∀ part ∈ parts, part.IsRead depth d)
    (ended : Ended after) (remarks : Sees markupRemarks d after ()) (refuses : Refuses (rule depth .statement) d after) :
    Yields (statements (rule depth)) d (partsText parts) after (Along parts) := by
  have lines := (iterates_parts read ended (remarks.refuses_bind refuses)).many
  refine (lines.bind (m := []) (Q := Along parts) fun n found along => ?_).congr (List.append_nil _)
  exact (remarks.bind (sees_pure found)).yields fun _ _ => along

/-- Parts up to a closing brace or the end of a script. -/
theorem yields_statements {parts : List Part} (read : ∀ part ∈ parts, part.IsRead depth d)
    (blank : Blank space) (closed : IsClosed after) :
    Yields (statements (rule depth)) d (partsText parts) (space ++ after) (Along parts) :=
  yields_statements_of_refused read (closed.ended blank)
    (sees_markupRemarks blank closed.solid closed.markupRemarkLength?_eq) (refuses_statement blank closed)

theorem partsText_lines (pad : List Char) (items : List Item) :
    partsText (items.map (Part.ofItem pad)) = lineText pad items := List.flatMap_map ..

/-- Statements on lines of their own are parts one after another. -/
theorem LaysLines.along {pad : List Char} {items : List Item} {nodes : Nat → List Node} (lays : LaysLines pad items nodes)
    (n : Nat) : Along (items.map (Part.ofItem pad)) n (nodes n) := by
  induction items generalizing nodes n with
  | nil =>
    obtain rfl : nodes = fun _ => [] := lays
    rfl
  | cons item rest ih =>
    obtain ⟨tree, others, fits, lays, rfl⟩ := lays
    exact ⟨_, _, rfl, ⟨tree, fits, rfl⟩, ih lays _⟩

/-- The text of parts between braces. -/
def bracedText (parts : List Part) (close : List Char) : List Char :=
  ['\x7b'] ++ (partsText parts ++ (close ++ ['\x7d']))

theorem yields_block {parts : List Part} (read : ∀ part ∈ parts, part.IsRead depth d) (blank : Blank space)
    {close : List Char} (blankClose : Blank close) (after : List Char) :
    Yields (block (rule depth)) d (space ++ bracedText parts close) after fun n =>
      Covers .block (bracedText parts close) (fun n => Along parts (n + 1)) (n + space.length) := by
  have closed : IsClosed ('\x7d' :: after) := Or.inr ⟨after, rfl⟩
  have solid : ∀ rest, Solid ('\x7b' :: rest) := fun rest => solid_cons rest (by decide) (by decide)
  have open_ : Yields (sign "\x7b") d ([] ++ ['\x7b']) (partsText parts ++ (close ++ ['\x7d']) ++ after)
      Anything := yields_sign "\x7b" blank_nil (solid _) (by simp)
  have close_ : Yields (sign "\x7d") d (close ++ ['\x7d']) after Anything :=
    yields_sign "\x7d" blankClose closed.solid (by simp)
  have lines := yields_statements read blankClose closed
  rw [← List.singleton_append, ← List.append_assoc] at lines
  have inside : Yields (statements (rule depth) >>= fun found => do
      sign "\x7d"
      return found) d (partsText parts ++ (close ++ ['\x7d'])) after (Along parts) :=
    lines.bind fun n found along => close_.map (fun _ => found) fun _ _ _ _ => along
  refine Yields.construct ?_ .block blank (solid _) (List.cons_ne_nil _ _)
  exact open_.then inside fun n found along => along

/-! ### Scripts -/

theorem sees_interpreterLine (other : Text.startsWith "#!".toList text = false) :
    Sees Statement.interpreterLine d text [] := by
  refine sees_rest.bind ?_
  rw [other, if_neg Bool.false_ne_true]
  exact sees_pure []

/-- The text of a whole script. -/
def scriptText (parts : List Part) (close : List Char) : List Char := partsText parts ++ close

/-- Parts and blanks after them are a script. -/
theorem exists_parse? {parts : List Part} {close : List Char} (blankClose : Blank close)
    (noInterpreter : Text.startsWith "#!".toList (scriptText parts close) = false)
    (read : ∀ part ∈ parts, part.IsRead (8 * (scriptText parts close).length + 16) d) :
    ∃ nodes, parse? d (scriptText parts close) =
        some (.mk .program .plain ⟨0, (scriptText parts close).length⟩ nodes) ∧ Along parts 0 nodes := by
  have closed : IsClosed [] := Or.inl rfl
  have lines := yields_statements read blankClose closed
  obtain ⟨nodes, takes, along⟩ := lines (Cursor.atStart d (scriptText parts close)) rfl
    (by rw [List.append_nil]; rfl)
  have first := sees_interpreterLine (d := d) noInterpreter (Cursor.atStart d (scriptText parts close)) rfl rfl
  have rest : ((Cursor.atStart d (scriptText parts close)).past (partsText parts)).rest = close ++ [] := by
    rw [List.append_nil]
    exact Cursor.rest_past rfl
  have passed := blanks_skip blankClose closed.solid rest
  have left : (((Cursor.atStart d (scriptText parts close)).past (partsText parts)).skip close.length).rest = [] :=
    Cursor.rest_skip rest
  have remarks : (((Cursor.atStart d (scriptText parts close)).past (partsText parts)).skip
      close.length).remarks = [] := by
    rw [Cursor.past]
    split <;> rfl
  refine ⟨nodes, ?_, along⟩
  have program_ : Statement.program (rule (8 * (scriptText parts close).length + 16))
      (Cursor.atStart d (scriptText parts close)) = some (nodes,
        ((Cursor.atStart d (scriptText parts close)).past (partsText parts)).skip close.length) := by
    rw [Statement.program, bind_of_some first, bind_of_some takes, bind_of_some passed,
      bind_of_some (sees_rest _ rfl rfl), left]
    rfl
  rw [parse?]
  dsimp only
  rw [program_, Option.map_some]
  dsimp only
  rw [remarks, List.reverse_nil, Node.insertRemarks_nil]

/-- Parts and what is no statement are no script. -/
theorem parse?_of_refused {parts : List Part} (blank : Blank space) (some_ : text ≠ []) (solid : Solid text)
    (noRemark : markupRemarkLength? text = none) (noElse : wordOf text ≠ "else")
    (noInterpreter : Text.startsWith "#!".toList (partsText parts ++ (space ++ text)) = false)
    (read : ∀ part ∈ parts, part.IsRead (8 * (partsText parts ++ (space ++ text)).length + 16) d)
    (refuses : Refuses (rule (8 * (partsText parts ++ (space ++ text)).length + 16) .statement) d
      (space ++ text)) :
    parse? d (partsText parts ++ (space ++ text)) = none := by
  have ended : Ended (space ++ text) := ⟨space, _, blank, solid, noElse, noRemark, rfl⟩
  have lines := yields_statements_of_refused read ended (sees_markupRemarks blank solid noRemark) refuses
  obtain ⟨nodes, takes, -⟩ := lines (Cursor.atStart d _) rfl rfl
  have first := sees_interpreterLine (d := d) noInterpreter (Cursor.atStart d _) rfl rfl
  have rest : ((Cursor.atStart d (partsText parts ++ (space ++ text))).past (partsText parts)).rest =
      space ++ text := Cursor.rest_past rfl
  have passed := blanks_skip blank solid rest
  have left : (((Cursor.atStart d (partsText parts ++ (space ++ text))).past (partsText parts)).skip
      space.length).rest = text := Cursor.rest_skip rest
  have program_ : Statement.program (rule (8 * (partsText parts ++ (space ++ text)).length + 16))
      (Cursor.atStart d (partsText parts ++ (space ++ text))) = none := by
    rw [Statement.program, bind_of_some first, bind_of_some takes, bind_of_some passed,
      bind_of_some (sees_rest _ rfl rfl), left, List.isEmpty_eq_false_iff.mpr some_]
    rfl
  rw [parse?]
  dsimp only
  rw [program_]
  rfl

end Script

end AnimationCode
