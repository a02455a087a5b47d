/-
**What tokens take.**

A token is read after the blanks before it, so each fact here is about blanks, a token, and what comes
after. A text is solid if neither a blank nor a remark begins it: there the blanks end.

* `takes_sign`, `takes_word`, `takes_lexeme`, `takes_name`: the tokens;
* `Takes.construct`: a node of what a reader takes;
* `takes_semicolon`: a written end of a statement;
* `Takes.commaList`: items with commas between them.
-/

import AnimationCode.Proofs.Script.Lexeme
import AnimationCode.Proofs.Script.Reading
import AnimationCode.Script.Token

namespace AnimationCode

namespace Script

/-- A text of blanks. -/
def Blank (text : List Char) : Prop := ∀ c ∈ text, isSpace c = true

/-- A text that neither a blank nor a remark begins. -/
def Solid (text : List Char) : Prop :=
  (text.takeWhile isSpace = []) ∧ remarkLength? text = none

theorem blank_nil : Blank [] := List.forall_mem_nil _

theorem blank_of_all {text : List Char} (all : text.all isSpace = true) : Blank text :=
  List.all_eq_true.mp all

theorem blank_space : Blank [' '] := blank_of_all rfl

theorem Blank.append {first second : List Char} (left : Blank first) (right : Blank second) :
    Blank (first ++ second) := by
  intro c member
  rcases List.mem_append.mp member with here | there
  · exact left c here
  · exact right c there

theorem remarkLength?_of_ne {c : Char} (rest : List Char) (slash : c ≠ '/') :
    remarkLength? (c :: rest) = none := by
  rw [remarkLength?]
  · intro cs same
    exact absurd (List.cons.inj same).1 slash
  · intro cs same
    exact absurd (List.cons.inj same).1 slash

theorem solid_cons {c : Char} (rest : List Char) (plain : isSpace c = false) (slash : c ≠ '/') :
    Solid (c :: rest) := by
  refine ⟨?_, remarkLength?_of_ne rest slash⟩
  rw [List.takeWhile_cons, plain]
  rfl

theorem solid_nil : Solid [] := ⟨rfl, rfl⟩

theorem solid_of_isNameRest {c : Char} (rest : List Char) (part : isNameRest c = true) :
    Solid (c :: rest) := by
  obtain ⟨-, plain, sign⟩ := isNameRest_iff.mp part
  refine solid_cons rest plain ?_
  rintro rfl
  exact sign (by decide)

/-- A word: characters of names, no digit first. -/
structure IsWord (name : List Char) : Prop where
  all : ∀ c ∈ name, isNameRest c = true
  first : ∀ c, name.head? = some c → c.isDigit = false
  nonempty : name ≠ []

/-- A word that may name a variable. -/
structure IsName (name : List Char) : Prop extends IsWord name where
  free : String.ofList name ∉ reservedWords

theorem isWord_of_check {c : Char} {rest : List Char}
    (check : (!c.isDigit && (c :: rest).all isNameRest) = true) : IsWord (c :: rest) := by
  rw [Bool.and_eq_true, Bool.not_eq_true'] at check
  refine ⟨List.all_eq_true.mp check.2, ?_, List.cons_ne_nil c rest⟩
  rintro d ⟨⟩
  exact check.1

namespace IsWord

variable {name after : List Char}

theorem solid (isWord : IsWord name) (after : List Char) : Solid (name ++ after) := by
  obtain ⟨all, -, nonempty⟩ := isWord
  cases name with
  | nil => exact absurd rfl nonempty
  | cons c rest => exact solid_of_isNameRest (rest ++ after) (all c List.mem_cons_self)

theorem length (isWord : IsWord name) (ends : EndsName after) :
    nameLength (name ++ after) = name.length :=
  nameLength_append isWord.all isWord.first isWord.nonempty ends

end IsWord

/-- The cursor after some characters were passed. -/
def Cursor.skip (c : Cursor) (count : Nat) : Cursor :=
  { c with rest := c.rest.drop count, offset := c.offset + count }

namespace Cursor

theorem skip_advance (c : Cursor) (count more : Nat) :
    (c.skip count).advance more = c.advance (count + more) := by
  simp [skip, advance, Nat.add_assoc]

theorem rest_skip {c : Cursor} {text after : List Char} (rest : c.rest = text ++ after) :
    (c.skip text.length).rest = after := by
  rw [skip, rest]
  exact List.drop_left

end Cursor

namespace Reader

variable {α β : Type} {d : Dialect} {s text more after : List Char}

/-! ### Blanks -/

theorem takeWhile_space (blank : Blank s) (solid : Solid text) :
    (s ++ text).takeWhile isSpace = s := by
  rw [List.takeWhile_append_of_pos blank, solid.1, List.append_nil]

theorem blanks_skip {c : Cursor} (blank : Blank s) (solid : Solid text)
    (rest : c.rest = s ++ text) : blanks c = some ((), c.skip s.length) := by
  show blanksUpTo (c.rest.length + 1) c = _
  have passed : (c.rest.takeWhile isSpace).length = s.length := by
    rw [rest, takeWhile_space blank solid]
  have none_ : remarkLength? (c.rest.drop (c.rest.takeWhile isSpace).length) = none := by
    rw [passed, rest, List.drop_left]
    exact solid.2
  rw [blanksUpTo]
  rw [bind_of_some (show Reader.rest c = some (c.rest, c) from rfl)]
  rw [bind_of_some (show pass (c.rest.takeWhile isSpace).length c = some ((), c.skip _) from rfl)]
  rw [none_, passed]
  rfl

theorem Takes.blanks {next : Unit → Reader α} {a : Nat → α} (blank : Blank s)
    (solid : Solid (text ++ after)) (takes : Takes (next ()) d text after a) :
    Takes (blanks >>= next) d (s ++ text) after fun n => a (n + s.length) := by
  intro c dialect rest
  rw [List.append_assoc] at rest
  rw [bind_of_some (blanks_skip blank solid rest), takes (c.skip s.length) dialect
    (Cursor.rest_skip rest), Cursor.skip_advance, List.length_append]
  rfl

theorem Refuses.blanks {next : Unit → Reader α} (blank : Blank s) (solid : Solid text)
    (refuses : Refuses (next ()) d text) : Refuses (blanks >>= next) d (s ++ text) := by
  intro c dialect rest
  rw [bind_of_some (blanks_skip blank solid rest)]
  exact refuses (c.skip s.length) dialect (Cursor.rest_skip rest)

theorem sees_upcoming (blank : Blank s) (solid : Solid text) :
    Sees upcoming d (s ++ text) text := by
  intro c _ rest
  show ((Reader.blanks >>= fun _ => Reader.rest) c).map (fun found => (found.1, c)) = _
  rw [bind_of_some (blanks_skip blank solid rest)]
  show some ((c.skip s.length).rest, c) = _
  rw [Cursor.rest_skip rest]

/-- The word at the beginning of a text. -/
def wordOf (text : List Char) : String := String.ofList (text.take (nameLength text))

theorem sees_nextWord (blank : Blank s) (solid : Solid text) :
    Sees nextWord d (s ++ text) (wordOf text) :=
  (sees_upcoming blank solid).bind (sees_pure _)

theorem wordOf_append {name : List Char} (isWord : IsWord name) (ends : EndsName after) :
    wordOf (name ++ after) = String.ofList name := by
  rw [wordOf, isWord.length ends, List.take_left]

theorem wordOf_of_ends (ends : EndsName after) : wordOf after = "" := by
  rw [wordOf, nameLength_of_ends ends]
  rfl

/-! ### Signs and words -/

theorem startsWith_append (start rest : List Char) : Text.startsWith start (start ++ rest) = true := by
  rw [Text.startsWith]
  induction start with
  | nil => rfl
  | cons c start ih =>
    rw [List.cons_append, Text.stripStart?, if_pos rfl]
    exact ih

theorem startsWith_cons_of_ne {c d : Char} (start rest : List Char) (differ : c ≠ d) :
    Text.startsWith (c :: start) (d :: rest) = false := by
  rw [Text.startsWith, Text.stripStart?, if_neg differ]
  rfl

theorem takes_take (text after : List Char) : Takes (take text.length) d text after fun _ => () :=
  fun _ _ _ => rfl

theorem takes_sign (mark : String) (blank : Blank s) (solid : Solid (mark.toList ++ after)) :
    Takes (sign mark) d (s ++ mark.toList) after fun _ => () := by
  refine Takes.blanks (a := fun _ => ()) blank solid ?_
  refine sees_rest.takes_bind (Sees.takes_bind (sees_guarded (startsWith_append _ _)) ?_)
  rw [← String.length_toList]
  exact takes_take _ _

theorem refuses_sign {mark : String} (blank : Blank s) (solid : Solid text)
    (other : Text.startsWith mark.toList text = false) : Refuses (sign mark) d (s ++ text) := by
  refine Refuses.blanks blank solid ?_
  exact sees_rest.refuses_bind (Refuses.bind (refuses_guarded other))

theorem takes_signBut (mark excluded : String) (blank : Blank s)
    (solid : Solid (mark.toList ++ after))
    (free : (after.head?.any fun c => excluded.toList.contains c) = false) :
    Takes (signBut mark excluded) d (s ++ mark.toList) after fun _ => () := by
  have second : Sees (do guarded !((← rest).head?.any fun c => excluded.toList.contains c)) d after () :=
    sees_rest.bind (sees_guarded (by rw [free]; rfl))
  refine (Takes.bind (m := []) (takes_sign mark blank solid) fun _ => second.follows).congr ?_ ?_
  · exact List.append_nil _
  · exact fun _ => rfl

theorem refuses_signBut {mark excluded : String} (blank : Blank s) (solid : Solid text)
    (other : Text.startsWith mark.toList text = false) :
    Refuses (signBut mark excluded) d (s ++ text) := (refuses_sign blank solid other).bind

theorem takes_word (expected : String) (blank : Blank s) (isWord : IsWord expected.toList)
    (ends : EndsName after) : Takes (word expected) d (s ++ expected.toList) after fun _ => () := by
  refine Takes.blanks (a := fun _ => ()) blank (isWord.solid after) ?_
  refine sees_rest.takes_bind ?_
  dsimp only
  rw [isWord.length ends]
  refine sees_rest.takes_bind (Sees.takes_bind (sees_guarded ?_) (takes_take _ _))
  simpa using isWord.nonempty

theorem refuses_word {expected : String} (blank : Blank s) (solid : Solid text)
    (other : wordOf text ≠ expected) : Refuses (word expected) d (s ++ text) := by
  refine Refuses.blanks blank solid (sees_rest.refuses_bind ?_)
  have differ : text.take (nameLength text) ≠ expected.toList := fun same => other (by
    rw [wordOf, same, String.ofList_toList])
  exact sees_rest.refuses_bind (Refuses.bind (refuses_guarded (by simp [differ])))

/-- No word begins with a sign. -/
theorem refuses_signBefore {name : List Char} (isWord : IsWord name) {mark : String} {c : Char} {rest : List Char}
    (mark_ : mark.toList = c :: rest) (sign_ : isNameRest c = false) (blank : Blank s) (after : List Char) :
    Refuses (sign mark) d (s ++ name ++ after) := by
  rw [List.append_assoc]
  refine refuses_sign blank (isWord.solid after) ?_
  obtain ⟨e, letters, rfl⟩ := List.exists_cons_of_ne_nil isWord.nonempty
  rw [mark_]
  refine startsWith_cons_of_ne _ _ ?_
  rintro rfl
  rw [isWord.all c List.mem_cons_self] at sign_
  cases sign_

/-- A word is no other word. -/
theorem refuses_otherWord {name : List Char} {expected : String} (blank : Blank s) (isWord : IsWord name)
    (ends : EndsName after) (differs : String.ofList name ≠ expected) :
    Refuses (word expected) d (s ++ name ++ after) := by
  rw [List.append_assoc]
  refine refuses_word blank (isWord.solid after) ?_
  rwa [wordOf_append isWord ends]

/-! ### Nodes -/

/-- A childless node of some characters from an offset on. -/
def leaf (kind : Kind) (start length : Nat) : Node := .mk kind .plain ⟨start, start + length⟩ []

theorem start_skip {c : Cursor} (blank : Blank s) (solid : Solid text)
    (rest : c.rest = s ++ text) :
    start c = some (c.offset + s.length, c.skip s.length) := by
  rw [start, bind_of_some (blanks_skip blank solid rest)]
  rfl

/-- What begins at the offset of its first token. -/
theorem Takes.start {next : Nat → Reader α} {a : Nat → Nat → α} (blank : Blank s)
    (solid : Solid (text ++ after)) (takes : ∀ first, Takes (next first) d text after (a first)) :
    Takes (start >>= next) d (s ++ text) after fun n => a (n + s.length) (n + s.length) := by
  intro c dialect rest
  rw [List.append_assoc] at rest
  rw [bind_of_some (start_skip blank solid rest), takes _ (c.skip s.length) dialect
    (Cursor.rest_skip rest), Cursor.skip_advance, List.length_append]
  rfl

theorem Refuses.start {next : Nat → Reader α} (blank : Blank s) (solid : Solid text)
    (refuses : ∀ first, Refuses (next first) d text) : Refuses (start >>= next) d (s ++ text) := by
  intro c dialect rest
  rw [bind_of_some (start_skip blank solid rest)]
  exact refuses _ (c.skip s.length) dialect (Cursor.rest_skip rest)

theorem Takes.construct {reader : Reader (List Node)} {children : Nat → List Node}
    (takes : Takes reader d text after children) (kind : Kind) (blank : Blank s)
    (solid : Solid (text ++ after)) :
    Takes (construct kind reader) d (s ++ text) after fun n =>
      .mk kind .plain ⟨n + s.length, n + s.length + text.length⟩
        (children (n + s.length)) := by
  intro c dialect rest
  rw [List.append_assoc] at rest
  rw [Reader.construct, bind_of_some (start_skip blank solid rest),
    bind_of_some (takes (c.skip s.length) dialect (Cursor.rest_skip rest)), Cursor.skip_advance,
    List.length_append]
  show some (Node.mk kind .plain ⟨c.offset + s.length, c.offset + (s.length + text.length)⟩
    (children (c.offset + s.length)), _) = _
  rw [← Nat.add_assoc]

theorem Refuses.construct {reader : Reader (List Node)} (refuses : Refuses reader d text)
    (kind : Kind) (blank : Blank s) (solid : Solid text) :
    Refuses (construct kind reader) d (s ++ text) := by
  intro c dialect rest
  rw [Reader.construct, bind_of_some (start_skip blank solid rest)]
  exact bind_of_none (refuses (c.skip s.length) dialect (Cursor.rest_skip rest))

theorem follows_extend (kind : Kind) (first : Node) (children : List Node) :
    Follows (extend kind first children) d [] after fun n =>
      .mk kind .plain ⟨first.span.start, n⟩ children := by
  intro c settled _ _
  show some (Node.mk kind .plain ⟨first.span.start, c.last⟩ children, c) = _
  rw [show c.last = c.offset from settled]
  exact congrArg (fun c' => some (Node.mk kind .plain ⟨first.span.start, c.offset⟩ children, c'))
    (Cursor.advance_zero settled).symm

theorem takes_lexeme {length? : List Char → Option Nat} (kind : Kind) (blank : Blank s)
    (solid : Solid (text ++ after)) (length : length? (text ++ after) = some text.length) :
    Takes (lexeme kind length?) d (s ++ text) after fun n =>
      leaf kind (n + s.length) text.length := by
  refine Takes.construct (?_ : Takes _ d text after fun _ => []) kind blank solid
  refine sees_rest.takes_bind ?_
  rw [length]
  exact fun _ _ _ => rfl

theorem refuses_lexeme {length? : List Char → Option Nat} {kind : Kind} (blank : Blank s)
    (solid : Solid text) (none_ : length? text = none) :
    Refuses (lexeme kind length?) d (s ++ text) := by
  refine Refuses.construct ?_ kind blank solid
  refine sees_rest.refuses_bind ?_
  rw [none_]
  exact refuses_failure

theorem takes_anyName {name : List Char} (kind : Kind) (blank : Blank s) (isWord : IsWord name)
    (ends : EndsName after) :
    Takes (anyName kind) d (s ++ name) after fun n =>
      leaf kind (n + s.length) name.length := by
  refine takes_lexeme kind blank (isWord.solid after) ?_
  rw [isWord.length ends, if_neg]
  exact fun none_ => isWord.nonempty (List.length_eq_zero_iff.mp none_)

theorem refuses_anyName {kind : Kind} (blank : Blank s) (solid : Solid text)
    (ends : EndsName text) : Refuses (anyName kind) d (s ++ text) := by
  refine refuses_lexeme blank solid ?_
  rw [nameLength_of_ends ends, if_pos rfl]

theorem takes_name {name : List Char} (kind : Kind) (blank : Blank s) (isName : IsName name)
    (ends : EndsName after) :
    Takes (Reader.name kind) d (s ++ name) after fun n =>
      leaf kind (n + s.length) name.length := by
  have next := sees_nextWord (d := d) blank (isName.solid after)
  rw [wordOf_append isName.toIsWord ends, ← List.append_assoc] at next
  refine next.takes_bind (Sees.takes_bind (sees_guarded ?_) ?_)
  · simpa using isName.free
  · exact takes_anyName kind blank isName.toIsWord ends

/-- No name of a variable is read where a reserved word or none stands. -/
theorem refuses_name {kind : Kind} (blank : Blank s) (solid : Solid text)
    (taken : wordOf text ∈ reservedWords ∨ EndsName text) :
    Refuses (Reader.name kind) d (s ++ text) := by
  refine (sees_nextWord blank solid).refuses_bind ?_
  rcases taken with reserved | ends
  · refine Refuses.bind (refuses_guarded ?_)
    simpa using reserved
  · rw [wordOf_of_ends ends]
    exact Sees.refuses_bind (sees_guarded (by decide)) (refuses_anyName blank solid ends)

/-- The node of a token that is kept in a role. -/
theorem Takes.mark {token : Reader Unit} (takes : Takes token d text after fun _ => ()) (kind : Kind)
    (role : Role) (blank : Blank s) (solid : Solid (text ++ after)) :
    Takes (mark kind role token) d (s ++ text) after fun n =>
      (leaf kind (n + s.length) text.length).as role :=
  Takes.map ((takes.map fun _ => []).construct kind blank solid) (Node.as · role)

/-! ### Ends of statements -/

theorem sees_endsHere (afterOperand : Bool) :
    Sees (endsHere afterOperand) d text (statementEnds d.typed afterOperand text) :=
  sees_typed.bind (sees_rest.bind (sees_pure _))

theorem takes_semicolon {afterOperand : Bool}
    (goesOn : statementEnds d.typed afterOperand (';' :: after) = false) :
    Takes (semicolon afterOperand) d [';'] after fun _ => () := by
  intro c dialect rest
  have onward := sees_endsHere afterOperand c dialect rest
  rw [List.singleton_append, goesOn] at onward
  have spaces : (c.rest.takeWhile isSpace).length = 0 := by
    rw [rest]
    rfl
  have still : pass 0 c = some ((), c) := rfl
  have remark : remarkLength? c.rest = none := by
    rw [rest]
    exact remarkLength?_of_ne after (by decide)
  show semicolonUpTo afterOperand (c.rest.length + 1) c = _
  rw [semicolonUpTo, bind_of_some onward, if_neg Bool.false_ne_true]
  rw [bind_of_some (show Reader.rest c = some (c.rest, c) from rfl), spaces]
  dsimp only
  rw [bind_of_some still, bind_of_some (show Reader.rest c = some (c.rest, c) from rfl), remark]
  exact takes_sign (s := []) ";" blank_nil (solid_cons after (by decide) (by decide)) c dialect rest

/-! ### Lists -/

theorem Takes.commaList {item : Reader (List Node)} {a : Nat → List Node} {b : Nat → List (List Node)}
    (first : Takes item d text (more ++ after) a)
    (others : Repeats (do sign ","; return (← Reader.opt item).getD []) d more after b) :
    Takes (commaList item) d (text ++ more) after fun n =>
      a n ++ (b (n + text.length)).flatten := by
  exact first.opt.bind (b := fun n m => a n ++ (b m).flatten) fun n =>
    (others.many.map List.flatten).map fun rest => a n ++ rest

/-- No items, where none can begin. -/
theorem sees_commaList {item : Reader (List Node)} (refuses : Refuses item d text)
    (noComma : Refuses (sign ",") d text) : Sees (commaList item) d text [] := by
  refine refuses.opt.bind (Sees.bind (a := []) ?_ (sees_pure _))
  exact Sees.bind (Refuses.many noComma.bind) (sees_pure _)

/-- One item that no comma follows. -/
theorem Takes.commaList1 {item : Reader (List Node)} {a : Nat → List Node}
    (takes : Takes item d text after a) (noComma : Refuses (sign ",") d after) :
    Takes (commaList1 item) d text after a := by
  have others : Sees (manyNodes do sign ","; item) d after [] := noComma.bind.many.bind (sees_pure _)
  refine (takes.bind (m := []) (b := fun n _ => a n) fun n => ?_).congr (List.append_nil _) fun _ => rfl
  refine (others.bind ?_).follows
  rw [List.append_nil]
  exact sees_pure (a n)

/-- One more item after a comma. -/
theorem Takes.commaItem {item : Reader (List Node)} {a : Nat → List Node}
    (takes : Takes item d text after a) (solid : Solid (',' :: (text ++ after))) :
    Takes (do sign ","; return (← Reader.opt item).getD []) d (',' :: text) after fun n =>
      a (n + 1) :=
  Takes.bind (b := fun _ m => a m) (takes_sign (s := []) "," blank_nil solid) fun _ =>
    (takes.opt.map fun found => found.getD []).follows

end Reader

end Script

end AnimationCode
