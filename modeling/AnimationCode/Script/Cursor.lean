/-
**Reading a script from left to right.**

A reader takes a cursor and yields a result with the cursor after it, or fails. The cursor keeps what
is left of the source, its offset, the end of the last token, and the comments passed so far.

* `many`: repetition that ends where the reader fails or stands still;
* `construct`: a node from its first token to its last.
-/

import AnimationCode.Script.Node

namespace AnimationCode

namespace Script

/-- A place in the source. -/
structure Cursor where
  dialect : Dialect
  rest : List Char
  offset : Nat
  /-- The end of the last token. -/
  last : Nat
  /-- The comments passed, the latest first. -/
  remarks : List (Kind × Span)
deriving Repr, Inhabited

/-- A reader of part of a script. -/
abbrev Reader := StateT Cursor Option

namespace Reader

/-- What is left of the source. -/
def rest : Reader (List Char) := fun c => some (c.rest, c)

/-- Whether types are read. -/
def typed : Reader Bool := fun c => some (c.dialect.typed, c)

/-- Whether markup is read. -/
def markup : Reader Bool := fun c => some (c.dialect.markup, c)

/-- Fails unless a condition holds. -/
def guarded (condition : Bool) : Reader Unit := if condition then pure () else failure

/-- Passes characters without making a token of them. -/
def pass (count : Nat) : Reader Unit := fun c =>
  some ((), { c with rest := c.rest.drop count, offset := c.offset + count })

/-- Takes characters as a token, or as the end of one. -/
def take (count : Nat) : Reader Unit := fun c =>
  some ((), { c with
    rest := c.rest.drop count, offset := c.offset + count, last := c.offset + count })

/-- Passes characters as a remark. -/
def passRemark (kind : Kind) (count : Nat) : Reader Unit := fun c =>
  some ((), { c with
    rest := c.rest.drop count, offset := c.offset + count,
    remarks := (kind, ⟨c.offset, c.offset + count⟩) :: c.remarks })

/-- The result of a reader without moving the cursor. -/
def ahead {α : Type} (reader : Reader α) : Reader α := fun c =>
  (reader c).map fun (a, _) => (a, c)

/-- Whether a reader would succeed here. -/
def would {α : Type} (reader : Reader α) : Reader Bool := fun c =>
  some ((reader c).isSome, c)

/-- The result of a reader if it succeeds. -/
def opt {α : Type} (reader : Reader α) : Reader (Option α) := fun c =>
  match reader c with
  | some (a, c') => some (some a, c')
  | none => some (none, c)

/-- The node of a reader if it succeeds, as a list. -/
def maybe (reader : Reader Node) : Reader (List Node) := fun c =>
  match reader c with
  | some (a, c') => some ([a], c')
  | none => some ([], c)

/-- Fails if the reader succeeds. -/
def absent {α : Type} (reader : Reader α) : Reader Unit := fun c =>
  match reader c with
  | some _ => none
  | none => some ((), c)

/-- Repeats a reader at most a number of times, as long as it succeeds and moves. -/
def manyUpTo {α : Type} (reader : Reader α) : Nat → Reader (List α)
  | 0 => pure []
  | steps + 1 => fun c =>
    match reader c with
    | none => some ([], c)
    | some (a, c') =>
      if c'.offset ≤ c.offset then some ([], c)
      else (manyUpTo reader steps c').map fun (as, c'') => (a :: as, c'')

/-- Repeats a reader as long as it succeeds and moves. -/
def many {α : Type} (reader : Reader α) : Reader (List α) := fun c =>
  manyUpTo reader c.rest.length c

/-- Repeats a reader of nodes and joins what it yields. -/
def manyNodes (reader : Reader (List Node)) : Reader (List Node) := do
  return (← many reader).flatten

/-- Builds on a node at most a number of times, as long as the builder succeeds and moves. -/
def growUpTo (grow : Node → Reader Node) : Nat → Node → Reader Node
  | 0, node => pure node
  | steps + 1, node => fun c =>
    match grow node c with
    | none => some (node, c)
    | some (node', c') => if c'.offset ≤ c.offset then some (node, c) else growUpTo grow steps node' c'

/-- Builds on a node as long as the builder succeeds and moves. -/
def grow (builder : Node → Reader Node) (node : Node) : Reader Node := fun c =>
  growUpTo builder c.rest.length node c

/-- Yields the first of several readers that succeeds. -/
def firstOf {α : Type} : List (Reader α) → Reader α
  | [] => failure
  | reader :: others => fun c =>
    match reader c with
    | some result => some result
    | none => firstOf others c

end Reader

end Script

end AnimationCode
