/-
**Where expressions end.**

An expression goes on with suffixes, operators, a conditional or an assignment. Before a text that lacks
the signs of these it ends, and each level of the grammar yields what the level below yields.

* `Stops`: a text that ends every expression;
* `takes_operand`, `takes_conditional`, `takes_single`: the levels, from the operand to the expression.
-/

import AnimationCode.Proofs.Script.Token
import AnimationCode.Script.Grammar.Statement

namespace AnimationCode

namespace Script

open Reader

/-- Whether a sign that certain characters may not follow begins a text. -/
def begins (mark : String × String) (text : List Char) : Bool :=
  Text.startsWith mark.1.toList text &&
    !((text.drop mark.1.length).head?.any fun c => mark.2.toList.contains c)

/-- A text that begins with blanks and a sign that is none of some. -/
def Lacks (marks : List (String × String)) (text : List Char) : Prop :=
  ∃ space rest, Blank space ∧ Solid rest ∧ EndsName rest ∧ text = space ++ rest ∧
    ∀ mark ∈ marks, begins mark rest = false

theorem lacks_of_all {marks : List (String × String)} {s rest : List Char} (blank : Blank s)
    (solid : Solid rest) (ends : EndsName rest)
    (none_ : (marks.all fun mark => !begins mark rest) = true) : Lacks marks (s ++ rest) :=
  ⟨s, rest, blank, solid, ends, rfl, fun mark member => by
    simpa using List.all_eq_true.mp none_ mark member⟩

/-- The signs after which an expression is over. -/
def closers : List Char := [')', ']', '\x7d', ',', ':', ';']

/-- A text that begins with blanks and a sign after which an expression is over. -/
def Stops (text : List Char) : Prop :=
  ∃ space c rest, Blank space ∧ c ∈ closers ∧ text = space ++ c :: rest

/-- The signs with which an operand goes on. -/
def suffixMarks : List (String × String) :=
  [(".", "."), ("(", ""), ("?.", ""), ("[", ""), ("\x60", ""), ("<", ""), ("!", "="), ("++", ""),
    ("--", "")]

/-- The signs of assignments. -/
def assignmentMarks : List (String × String) :=
  ("=", "=>") :: Expression.updateSigns.map fun mark => (mark, "")

theorem closer_facts :
    ∀ c ∈ closers, isSpace c = false ∧ c ≠ '/' ∧ isNameRest c = false ∧ c ≠ '\\' ∧ c ≠ '.' := by
  decide

theorem endsName_closer {c : Char} (closer : c ∈ closers) (rest : List Char) : EndsName (c :: rest) := by
  rintro e ⟨⟩
  exact ⟨(closer_facts c closer).2.2.1, (closer_facts c closer).2.2.2.1⟩

theorem solid_closer {c : Char} (closer : c ∈ closers) (rest : List Char) : Solid (c :: rest) :=
  solid_cons rest (closer_facts c closer).1 (closer_facts c closer).2.1

theorem startsWith_closer {mark : String} {c : Char} (closer : c ∈ closers) (rest : List Char)
    (other : mark.toList.head?.any (!closers.contains ·) = true) :
    Text.startsWith mark.toList (c :: rest) = false := by
  cases same : mark.toList with
  | nil =>
    rw [same] at other
    cases other
  | cons m more =>
    rw [same] at other
    refine startsWith_cons_of_ne more rest ?_
    rintro rfl
    rw [List.head?_cons, Option.any_some, List.contains_iff_mem.mpr closer] at other
    cases other

theorem isNameRest_of_isSpace {c : Char} (space : isSpace c = true) :
    isNameRest c = false ∧ c ≠ '\\' ∧ c ≠ '.' := by
  refine ⟨?_, ?_, ?_⟩
  · rw [isNameRest, space, Bool.or_true, Bool.true_or, Bool.not_true]
  · rintro rfl
    cases space
  · rintro rfl
    cases space

namespace Stops

variable {text : List Char}

theorem first (stops : Stops text) {c : Char} (head : text.head? = some c) :
    isNameRest c = false ∧ c ≠ '\\' ∧ c ≠ '.' := by
  obtain ⟨space, e, rest, blank, closer, rfl⟩ := stops
  cases space with
  | nil =>
    obtain rfl := Option.some.inj head
    exact (closer_facts e closer).2.2
  | cons b space =>
    obtain rfl := Option.some.inj head
    exact isNameRest_of_isSpace (blank b List.mem_cons_self)

theorem endsName (stops : Stops text) : EndsName text := fun _ head =>
  ⟨(stops.first head).1, (stops.first head).2.1⟩

theorem endsNumber (stops : Stops text) : EndsNumber text := fun _ head =>
  ⟨(stops.first head).1, (stops.first head).2.2⟩

theorem lacks (stops : Stops text) {marks : List (String × String)}
    (others : (marks.all fun mark => mark.1.toList.head?.any (!closers.contains ·)) = true) : Lacks marks text := by
  obtain ⟨space, c, rest, blank, closer, rfl⟩ := stops
  refine ⟨space, c :: rest, blank, solid_closer closer rest, endsName_closer closer rest, rfl, ?_⟩
  intro mark member
  rw [begins, startsWith_closer closer rest (List.all_eq_true.mp others mark member)]
  rfl

theorem suffix (stops : Stops text) : Lacks suffixMarks text := stops.lacks (by decide)

theorem operator (stops : Stops text) : Lacks Expression.binarySigns text := stops.lacks (by decide)

theorem question (stops : Stops text) : Lacks [("?", "?")] text := stops.lacks (by decide)

theorem arrow (stops : Stops text) : Lacks [("=>", "")] text := stops.lacks (by decide)

theorem assignment (stops : Stops text) : Lacks assignmentMarks text := stops.lacks (by decide)

end Stops

theorem eq_append_of_startsWith {start text : List Char} (starts : Text.startsWith start text = true) :
    text = start ++ text.drop start.length := by
  induction start generalizing text with
  | nil => rfl
  | cons c start ih =>
    cases text with
    | nil => cases starts
    | cons e text =>
      rw [Text.startsWith, Text.stripStart?] at starts
      split at starts
      · rename_i same
        rw [same, List.cons_append, List.length_cons, List.drop_succ_cons, ← ih starts]
      · cases starts

namespace Lacks

variable {marks : List (String × String)} {d : Dialect} {text : List Char}

theorem refuses_signBut (lacks : Lacks marks text) {mark excluded : String}
    (member : (mark, excluded) ∈ marks) : Refuses (signBut mark excluded) d text := by
  obtain ⟨space, rest, blank, solid, -, rfl, none_⟩ := lacks
  have refused := none_ _ member
  cases starts : Text.startsWith mark.toList rest with
  | false => exact Reader.refuses_signBut blank solid starts
  | true =>
    have parts := eq_append_of_startsWith starts
    rw [begins, starts, Bool.true_and, Bool.not_eq_false', ← String.length_toList] at refused
    rw [parts, ← List.append_assoc]
    rw [parts] at solid
    refine (takes_sign mark blank solid).refuses_bind fun _ => sees_rest.refuses_bind ?_
    exact refuses_guarded (by rw [refused]; rfl)

theorem refuses_sign (lacks : Lacks marks text) {mark : String} (member : (mark, "") ∈ marks) :
    Refuses (sign mark) d text := by
  obtain ⟨space, rest, blank, solid, -, rfl, none_⟩ := lacks
  refine Reader.refuses_sign blank solid ?_
  have refused := none_ _ member
  have free : ((rest.drop mark.length).head?.any fun c => "".toList.contains c) = false := by
    cases (rest.drop mark.length).head? <;> rfl
  rwa [begins, free, Bool.not_false, Bool.and_true] at refused

theorem sees_nextWord (lacks : Lacks marks text) : Sees nextWord d text "" := by
  obtain ⟨space, rest, blank, solid, ends, rfl, -⟩ := lacks
  rw [← wordOf_of_ends ends]
  exact Reader.sees_nextWord blank solid

theorem refuses_word (lacks : Lacks marks text) {expected : String} (some_ : expected ≠ "") :
    Refuses (word expected) d text := by
  obtain ⟨space, rest, blank, solid, ends, rfl, -⟩ := lacks
  refine Reader.refuses_word blank solid ?_
  rw [wordOf_of_ends ends]
  exact some_.symm

theorem refuses_anyName (lacks : Lacks marks text) (kind : Kind) : Refuses (anyName kind) d text := by
  obtain ⟨space, rest, blank, solid, ends, rfl, -⟩ := lacks
  exact Reader.refuses_anyName blank solid ends

theorem refuses_name (lacks : Lacks marks text) (kind : Kind) : Refuses (name kind) d text := by
  obtain ⟨space, rest, blank, solid, ends, rfl, -⟩ := lacks
  exact Reader.refuses_name blank solid (Or.inr ends)

theorem refuses_construct (lacks : Lacks marks text) {reader : Reader (List Node)} (kind : Kind)
    (mark : String) (member : (mark, "") ∈ marks)
    (refuses : ∀ rest, Refuses (sign mark) d rest → Refuses reader d rest) :
    Refuses (construct kind reader) d text := by
  obtain ⟨space, rest, blank, solid, ends, rfl, none_⟩ := lacks
  refine Refuses.construct (refuses rest ?_) kind blank solid
  exact refuses_sign ⟨[], rest, blank_nil, solid, ends, rfl, none_⟩ member

end Lacks

/-! ### Suffixes and operators -/

namespace Expression

variable {rule : Grammar} {d : Dialect} {ends : Bool} {text more after : List Char}

theorem refuses_arguments (lacks : Lacks suffixMarks text) : Refuses (arguments rule) d text :=
  lacks.refuses_construct .arguments "(" (by decide) fun _ refuses => refuses.bind

theorem refuses_typeArguments (lacks : Lacks suffixMarks text) :
    Refuses (Typing.arguments rule) d text := (lacks.refuses_sign (show ("<", "") ∈ suffixMarks by decide)).bind

/-- What is read unless a statement may end. -/
theorem refuses_unlessEnded {α : Type} {next : Unit → Reader α} (refuses : Refuses (next ()) d text) :
    Refuses (if ends = true then (do
      let ended ← endsHere true
      let passed ← guarded !ended
      next passed) else next ()) d text := by
  split
  · exact (sees_endsHere true).refuses_bind (refuses_guarded_bind refuses)
  · exact refuses

theorem follows_unlessEnded {α : Type} {next : Unit → Reader α} {a : Nat → α}
    (goesOn : ends = true → statementEnds d.typed true (text ++ after) = false)
    (follows : Follows (next ()) d text after a) :
    Follows (if ends = true then (do
      let ended ← endsHere true
      let passed ← guarded !ended
      next passed) else next ()) d text after a := by
  split
  · rename_i may
    refine (sees_endsHere true).follows_bind (Sees.follows_bind (sees_guarded ?_) follows)
    rw [goesOn may]
    rfl
  · exact follows

theorem refuses_suffix (lacks : Lacks suffixMarks text) (base : Node) :
    Refuses (suffix rule ends base) d text := by
  unfold suffix
  refine refuses_unlessEnded (Refuses.firstOf ?_ (Refuses.firstOf ?_ (Refuses.firstOf ?_
    (Refuses.firstOf ?_ (Refuses.firstOf ?_ (Refuses.firstOf ?_ (Refuses.firstOf ?_
    (Refuses.last ?_))))))))
  · exact (lacks.refuses_signBut (by decide)).bind
  · exact (refuses_arguments lacks).bind
  · exact (lacks.refuses_sign (by decide)).bind
  · exact (lacks.refuses_sign (by decide)).bind
  · refine Refuses.bind (lacks.refuses_construct .template "\x60" (by decide) ?_)
    exact fun _ refuses => refuses.bind
  · exact sees_typed.refuses_bind (refuses_guarded_bind (refuses_typeArguments lacks).bind)
  · exact sees_typed.refuses_bind (refuses_guarded_bind (refuses_typeArguments lacks).bind)
  · exact sees_typed.refuses_bind (refuses_guarded_bind (lacks.refuses_signBut (by decide)).bind)

theorem refuses_counting (lacks : Lacks suffixMarks text) (base : Node) :
    Refuses (counting ends base) d text := by
  unfold counting
  refine refuses_unlessEnded (Refuses.bind ?_)
  exact (lacks.refuses_sign (by decide)).firstOf (lacks.refuses_sign (by decide)).last

theorem refuses_chainSuffix (lacks : Lacks binarySigns text) (chain : Node) :
    Refuses (chainSuffix rule ends chain) d text := by
  unfold chainSuffix
  refine refuses_unlessEnded (Refuses.firstOf ?_ (Refuses.firstOf ?_ (Refuses.last ?_)))
  · refine Refuses.bind (lacks.sees_nextWord.refuses_bind (refuses_firstOf ?_))
    intro reader member
    obtain ⟨⟨mark, excluded⟩, known, rfl⟩ := List.mem_map.mp member
    exact lacks.refuses_signBut known
  · exact sees_typed.refuses_bind (refuses_guarded_bind (lacks.refuses_word (by decide)).bind)
  · exact sees_typed.refuses_bind (refuses_guarded_bind (lacks.refuses_word (by decide)).bind)

/-! ### The levels of an expression -/

theorem takes_suffixed {base : Nat → Node} {tree : Nat → Nat → Node}
    (takes : Takes (primary rule ends) d text (more ++ after) base)
    (plain : ∀ n, (base n).kind ≠ .arrowFunction)
    (grows : ∀ n, Grows (suffix rule ends) d more after (base n) (tree n))
    (lacks : Lacks suffixMarks after) :
    Takes (suffixed rule ends) d (text ++ more) after fun n => tree n (n + text.length) := by
  refine takes.bind fun n => ?_
  rw [if_neg (by simpa using plain n)]
  refine ((grows n).grow.bind (m := []) (b := fun m _ => tree n m) fun m => ?_).congr
    (List.append_nil more) fun _ => rfl
  exact (refuses_counting lacks (tree n m)).grow.follows

/-- Nothing goes on with a primary operand. -/
theorem sees_suffixes (lacks : Lacks suffixMarks after) (base : Node) :
    Sees (do
      if base.kind == .arrowFunction then return base
      grow (counting ends) (← grow (suffix rule ends) base)) d after base := by
  split
  · exact sees_pure base
  · exact (refuses_suffix lacks base).grow.bind (refuses_counting lacks base).grow

/-- A primary operand that nothing goes on with. -/
theorem takes_suffixed_of_primary {tree : Nat → Node}
    (takes : Takes (primary rule ends) d text after tree) (lacks : Lacks suffixMarks after) :
    Takes (suffixed rule ends) d text after tree := takes.seen (sees_suffixes lacks)

/-- A text that begins an operand without a prefix. -/
structure IsPlain (text : List Char) : Prop where
  solid : Solid text
  sign : ∀ c, text.head? = some c → c ∉ ['!', '~', '+', '-']
  word : wordOf text ∉ ["typeof", "void", "delete", "await"]

theorem operand_of_plain {cursor : Cursor} {space : List Char} (blank : Blank space)
    (isPlain : IsPlain text) (same : cursor.rest = space ++ text) :
    operand rule ends cursor = suffixed rule ends cursor := by
  obtain ⟨solid, sign, word⟩ := isPlain
  have ahead := sees_upcoming (d := cursor.dialect) blank solid cursor rfl same
  have next := sees_nextWord (d := cursor.dialect) blank solid cursor rfl same
  simp only [List.mem_cons, List.not_mem_nil, or_false, not_or] at word sign
  obtain ⟨typeof_, void_, delete_, await_⟩ := word
  unfold operand
  dsimp only
  rw [bind_of_some ahead]
  split
  · exact absurd rfl (sign _ rfl).1
  · exact absurd rfl (sign _ rfl).2.1
  · exact absurd rfl (sign _ rfl).2.2.1
  · exact absurd rfl (sign _ rfl).2.2.2
  · exact absurd rfl (sign _ rfl).2.2.1
  · exact absurd rfl (sign _ rfl).2.2.2
  · rw [bind_of_some next]
    refine congrFun ?_ cursor
    split
    · contradiction
    · contradiction
    · contradiction
    · contradiction
    · rfl

theorem takes_operand {space : List Char} {tree : Nat → Node} (blank : Blank space)
    (isPlain : IsPlain (text ++ after))
    (takes : Takes (suffixed rule ends) d (space ++ text) after tree) :
    Takes (operand rule ends) d (space ++ text) after tree := by
  intro cursor dialect same
  rw [operand_of_plain blank isPlain (by rw [same, List.append_assoc])]
  exact takes cursor dialect same

/-- No operator follows an operand. -/
theorem sees_operators (lacks : Lacks binarySigns after) (first : Node) :
    Sees (do
      if first.kind == .arrowFunction then return first
      grow (chainSuffix rule ends) first) d after first := by
  split
  · exact sees_pure first
  · exact (refuses_chainSuffix lacks first).grow

theorem takes_chain {tree : Nat → Node} (takes : Takes (operand rule ends) d text after tree)
    (lacks : Lacks binarySigns after) : Takes (chain rule ends) d text after tree :=
  takes.seen (sees_operators lacks)

theorem refuses_questionMark (lacks : Lacks [("?", "?")] text) : Refuses questionMark d text :=
  (lacks.refuses_signBut (by decide)).bind

/-- Reads the branches of a conditional. -/
def branches (rule : Grammar) (ends : Bool) : Reader (List Node) := do
  questionMark
  let consequence ← rule (.expression false)
  sign ":"
  let alternative ← rule (.expression ends)
  return [consequence.as .consequence, alternative.as .alternative]

theorem refuses_branches (lacks : Lacks [("?", "?")] text) : Refuses (branches rule ends) d text :=
  (refuses_questionMark lacks).bind

/-- No branches follow a chain. -/
theorem sees_branches (refuses : Refuses (branches rule ends) d after) (condition : Node) :
    Sees (do
      if condition.kind == .arrowFunction then return condition
      if ends && (← endsHere true) then return condition
      match ← opt (branches rule ends) with
      | some branches => extend .ternary condition (condition.as .condition :: branches)
      | none => return condition) d after condition := by
  split
  · exact sees_pure condition
  · refine Sees.bind (sees_endsHere true) ?_
    split
    · exact sees_pure condition
    · exact refuses.opt.bind (sees_pure condition)

theorem takes_conditional {tree : Nat → Node} (takes : Takes (chain rule ends) d text after tree)
    (lacks : Lacks [("?", "?")] after) : Takes (conditional rule ends) d text after tree :=
  takes.seen (sees_branches (refuses_branches lacks))

theorem sees_assignmentTo (lacks : Lacks assignmentMarks after) (target : Node) :
    Sees (assignmentTo rule ends target) d after target := by
  unfold assignmentTo
  split
  · exact sees_pure target
  · refine Sees.bind (sees_endsHere true) ?_
    split
    · exact sees_pure target
    · refine Refuses.opt ?_ |>.bind (sees_pure target)
      refine sees_typed.refuses_bind (refuses_guarded_bind (Refuses.bind ?_))
      refine (lacks.refuses_signBut (by decide)).firstOf (refuses_firstOf ?_)
      intro reader member
      obtain ⟨mark, known, rfl⟩ := List.mem_map.mp member
      refine lacks.refuses_sign (List.mem_cons_of_mem _ ?_)
      exact List.mem_map_of_mem known

theorem takes_single {space : List Char} {tree : Nat → Node} (blank : Blank space)
    (solid : Solid (text ++ after)) (word : wordOf (text ++ after) ≠ "yield")
    (takes : Takes (conditional rule ends) d (space ++ text) after tree)
    (lacks : Lacks assignmentMarks after) : Takes (single rule ends) d (space ++ text) after tree := by
  have ahead := sees_upcoming (d := d) blank solid
  have next := sees_nextWord (d := d) blank solid
  rw [← List.append_assoc] at ahead next
  have value : Takes (do assignmentTo rule ends (← conditional rule ends)) d (space ++ text) after
      tree := takes.seen (sees_assignmentTo lacks)
  have unassigned (assignment : Reader Node) : Takes (unlessAssigned (do
      assignmentTo rule ends (← conditional rule ends)) assignment) d (space ++ text) after tree := by
    intro c dialect rest
    have refused : signBut "=" "=>" (c.advance (space ++ text).length) = none :=
      lacks.refuses_signBut (by decide) _ dialect (Cursor.rest_advance rest)
    rw [unlessAssigned, value c dialect rest]
    dsimp only
    rw [refused]
    rfl
  unfold single
  refine ahead.takes_bind ?_
  split
  · exact unassigned _
  · exact unassigned _
  · refine next.takes_bind ?_
    rw [if_neg (by simpa using word)]
    exact value

end Expression

end Script

end AnimationCode
