/-
**Tokens.**

A token is read after the blanks and comments before it. A reader that fails leaves the cursor where
it was.

* `sign`, `word`, `name`: a punctuation mark, a given word, the name of a variable;
* `construct`: a node from its first token to its last;
* `semicolon`: the end of a statement, written or implied.
-/

import AnimationCode.Script.Cursor
import AnimationCode.Script.Lexeme

namespace AnimationCode

namespace Script

namespace Reader

/-- Passes blanks and comments, at most a number of times. -/
def blanksUpTo : Nat → Reader Unit
  | 0 => pure ()
  | steps + 1 => do
    let text ← rest
    let spaces := (text.takeWhile isSpace).length
    pass spaces
    match remarkLength? (text.drop spaces) with
    | some length =>
      passRemark .comment length
      blanksUpTo steps
    | none => pure ()

/-- Passes blanks and comments. -/
def blanks : Reader Unit := fun c => blanksUpTo (c.rest.length + 1) c

/-- The offset of the next token. -/
def start : Reader Nat := do
  blanks
  fun c => some (c.offset, c)

/-- The end of the last token. -/
def last : Reader Nat := fun c => some (c.last, c)

/-- A node of the tokens that a reader takes. -/
def construct (kind : Kind) (reader : Reader (List Node)) : Reader Node := do
  let first ← start
  let children ← reader
  return .mk kind .plain ⟨first, ← last⟩ children

/-- A node from the beginning of another to the last token. -/
def extend (kind : Kind) (first : Node) (children : List Node) : Reader Node := do
  return .mk kind .plain ⟨first.span.start, ← last⟩ children

/-- A childless node of the token whose length a function finds. -/
def lexeme (kind : Kind) (length? : List Char → Option Nat) : Reader Node :=
  construct kind do
    match length? (← rest) with
    | some length =>
      take length
      return []
    | none => failure

/-- What is left after the blanks here. -/
def upcoming : Reader (List Char) := ahead do
  blanks
  rest

/-- A punctuation mark. -/
def sign (mark : String) : Reader Unit := do
  blanks
  guarded (Text.startsWith mark.toList (← rest))
  take mark.length

/-- A punctuation mark that none of some characters follows. -/
def signBut (mark : String) (excluded : String) : Reader Unit := do
  sign mark
  guarded !((← rest).head?.any fun c => excluded.toList.contains c)

/-- Whether a punctuation mark follows. -/
def nextSign (mark : String) : Reader Bool := would (sign mark)

/-- A given word. -/
def word (text : String) : Reader Unit := do
  blanks
  let length := nameLength (← rest)
  guarded ((← rest).take length == text.toList && length != 0)
  take length

/-- Any word as a name. -/
def anyName (kind : Kind) : Reader Node :=
  lexeme kind fun cs => if nameLength cs = 0 then none else some (nameLength cs)

/-- The word that follows, empty if there is none. -/
def nextWord : Reader String := do
  let text ← upcoming
  return String.ofList (text.take (nameLength text))

/-- A word that may name a variable. -/
def name (kind : Kind) : Reader Node := do
  guarded !(reservedWords.contains (← nextWord))
  anyName kind

/-- A token kept in the tree in a role. -/
def mark (kind : Kind) (role : Role) (token : Reader Unit) : Reader Node := do
  return (← construct kind (token *> pure [])).as role

/-- Whether a line ends between the last token and the next. -/
def lineBreakAhead : Reader Bool := do
  let text ← rest
  let after ← upcoming
  return (text.take (text.length - after.length)).any isLineEnd

/-- Whether the statement ends here without a semicolon. -/
def endsHere (afterOperand : Bool) : Reader Bool := do
  return statementEnds (← typed) afterOperand (← rest)

/-- The end of a statement, at most a number of comments away. -/
def semicolonUpTo (afterOperand : Bool) : Nat → Reader Unit
  | 0 => failure
  | steps + 1 => do
    if ← endsHere afterOperand then
      take 0
    else
      let spaces := ((← rest).takeWhile isSpace).length
      pass spaces
      match remarkLength? (← rest) with
      | some length =>
        passRemark .comment length
        semicolonUpTo afterOperand steps
      | none => sign ";"

/-- The end of a statement: a semicolon, or a place where one is implied. -/
def semicolon (afterOperand : Bool) : Reader Unit := fun c =>
  semicolonUpTo afterOperand (c.rest.length + 1) c

/-- Items with commas between them; an item may be missing. -/
def commaList (item : Reader (List Node)) : Reader (List Node) := do
  let first ← opt item
  let others ← manyNodes do
    sign ","
    return (← opt item).getD []
  return first.getD [] ++ others

/-- One item or more with commas between them. -/
def commaList1 (item : Reader (List Node)) : Reader (List Node) := do
  let first ← item
  let others ← manyNodes do
    sign ","
    item
  return first ++ others

/-- Items with commas between them and perhaps one after the last; there may be no items. -/
def commaListOpen (item : Reader (List Node)) : Reader (List Node) := do
  let items ← opt (commaList1 item)
  discard (opt (sign ","))
  return items.getD []

end Reader

/-- The parts of a script that contain one another. -/
inductive Goal where
  /-- An expression without commas; after an open one a statement may end. -/
  | expression (ends : Bool)
  /-- Expressions with commas between them. -/
  | sequence (ends : Bool)
  /-- The operand of an operator. -/
  | operand (ends : Bool)
  /-- An operand without prefixes and suffixes. -/
  | primary (ends : Bool)
  | statement
  | typing
  | pattern
  | element
deriving DecidableEq, Repr, Inhabited

/-- How each part of a script is read. -/
abbrev Grammar := Goal → Reader Node

end Script

end AnimationCode
