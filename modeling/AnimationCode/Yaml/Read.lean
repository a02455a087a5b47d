/-
**Data written by indentation.**

Maps and sequences are laid out by their columns, or written in brackets; their leaves are scalars. A
text holds one document. What is in no such form cannot be read.

* `Yaml.read?`: the value that a text writes.
-/

import AnimationCode.Yaml.Scalar

namespace AnimationCode

namespace Yaml

/-- Whether an entry of a sequence begins here. -/
def beginsEntry : List Char → Bool
  | '-' :: rest => beginsGap rest
  | _ => false

/-! ### Collections in brackets -/

mutual

/-- The value at a spot inside brackets. -/
def bracketed : Nat → Spot → Option (Value × Spot)
  | 0, _ => none
  | fuel + 1, s =>
    match s.rest with
    | '[' :: _ => do
      let (items, stop) ← bracketedItems fuel s.next.skip
      return (.list items, stop)
    | '{' :: _ => do
      let (fields, stop) ← bracketedFields fuel s.next.skip
      return (.object (Fields.ofPairs fields), stop)
    | _ => do
      let scalar ← Scalar.read? true 0 s
      return (scalar.value, scalar.stop)

/-- What stands after the colon of a key inside brackets; nothing if the entry ends there. -/
def bracketedValue : Nat → Spot → Option (Value × Spot)
  | 0, _ => none
  | fuel + 1, s =>
    match s.skip.rest with
    | [] => none
    | c :: _ => if [',', ']', '}'].contains c then some (.null, s) else bracketed fuel s.skip

/-- The items of a sequence up to its closing bracket. A key with its value is a map of one field. -/
def bracketedItems : Nat → Spot → Option (List Value × Spot)
  | 0, _ => none
  | fuel + 1, s =>
    if s.rest.head? = some ']' then some ([], s.next)
    else do
      let key? := (Scalar.read? true 0 s).bind fun key => (key.colon? true).map fun after => (key, after)
      let (item, stop) ←
        match key? with
        | some (key, after) => do
          let (value, stop) ← bracketedValue fuel after
          pure (Value.object [(key.name, value)], stop)
        | none => bracketed fuel s
      let next := stop.skip
      match next.rest with
      | ',' :: _ => do
        let (items, stop) ← bracketedItems fuel next.next.skip
        return (item :: items, stop)
      | ']' :: _ => return ([item], next.next)
      | _ => none

/-- The fields of a map up to its closing bracket. A key alone has no value. -/
def bracketedFields : Nat → Spot → Option (List (String × Value) × Spot)
  | 0, _ => none
  | fuel + 1, s =>
    if s.rest.head? = some '}' then some ([], s.next)
    else do
      let key ← Scalar.read? true 0 s
      let (value, stop) ←
        match key.colon? true with
        | some after => bracketedValue fuel after
        | none => pure (Value.null, key.stop)
      let next := stop.skip
      match next.rest with
      | ',' :: _ => do
        let (fields, stop) ← bracketedFields fuel next.next.skip
        return ((key.name, value) :: fields, stop)
      | '}' :: _ => return ([(key.name, value)], next.next)
      | _ => none

end

/-! ### Collections by column -/

/-- What comes after an entry that ends at a spot: another entry in its column, or the end of the
collection. An entry that goes on in its line, or deeper, is malformed. -/
inductive Continuation where
  | entry (at_ : Spot)
  | finished
  | malformed
deriving DecidableEq, Repr, Inhabited

/-- What comes after an entry of a column. -/
def continuation (column : Nat) (stop : Spot) : Continuation :=
  let next := stop.skip
  if next.rest.isEmpty then .finished
  else if next.line ≤ stop.line then .malformed
  else if next.column = column then .entry next
  else if next.column < column then .finished
  else .malformed

mutual

/-- The value at a spot. The entries of a collection may begin at a spot that is `fresh`: at the start of
its line, or after the mark of an entry. -/
def block (fresh : Bool) (parent : Option Nat) : Nat → Spot → Option (Value × Spot)
  | 0, _ => none
  | fuel + 1, s =>
    match s.rest with
    | [] => none
    | c :: _ =>
      if c = '[' ∨ c = '{' then bracketed (2 * s.rest.length) s
      else if beginsEntry s.rest then
        if fresh then do
          let (items, stop) ← blockItems false s.column fuel s
          return (.list items, stop)
        else none
      else do
        let scalar ← Scalar.read? false ((parent.map (· + 1)).getD 0) s
        match scalar.colon? false with
        | some _ =>
          if fresh then do
            let (fields, stop) ← blockFields s.column fuel s
            return (.object (Fields.ofPairs fields), stop)
          else none
        | none => return (scalar.value, scalar.stop)

/-- The items of a sequence in a column. A sequence that is the value of a key in the same column ends
where the next key begins. -/
def blockItems (underKey : Bool) (column : Nat) : Nat → Spot → Option (List Value × Spot)
  | 0, _ => none
  | fuel + 1, s =>
    if beginsEntry s.rest then do
      let after := s.next
      let inner := after.skip
      let (item, stop) ←
        if inner.rest.isEmpty || inner.column ≤ column then pure (Value.null, after)
        else block true (some column) fuel inner
      match continuation column stop with
      | .entry next =>
        if underKey && !beginsEntry next.rest then return ([item], stop)
        else
          let (items, stop) ← blockItems underKey column fuel next
          return (item :: items, stop)
      | .finished => return ([item], stop)
      | .malformed => none
    else none

/-- The fields of a map in a column. -/
def blockFields (column : Nat) : Nat → Spot → Option (List (String × Value) × Spot)
  | 0, _ => none
  | fuel + 1, s => do
    let key ← Scalar.read? false (column + 1) s
    let after ← key.colon? false
    let inner := after.skip
    let (value, stop) ←
      if inner.rest.isEmpty then pure (Value.null, after)
      else if inner.column = column ∧ beginsEntry inner.rest then do
        let (items, stop) ← blockItems true column fuel inner
        pure (Value.list items, stop)
      else if inner.column ≤ column then pure (Value.null, after)
      else block (inner.line != after.line) (some column) fuel inner
    match continuation column stop with
    | .entry next =>
      let (fields, stop) ← blockFields column fuel next
      return ((key.name, value) :: fields, stop)
    | .finished => return ([(key.name, value)], stop)
    | .malformed => none

end

/-! ### Documents -/

/-- A text with every kind of line break as one. -/
def plainBreaks : List Char → List Char
  | '\r' :: '\n' :: rest => '\n' :: plainBreaks rest
  | '\r' :: rest => '\n' :: plainBreaks rest
  | c :: rest => c :: plainBreaks rest
  | [] => []

/-- A character that a text may hold. -/
def isAllowed (c : Char) : Bool :=
  let n := c.toNat
  n == 9 || n == 10 || 32 ≤ n && n ≤ 126 || n == 133 || 160 ≤ n && n ≤ 65533 || 65536 ≤ n

/-- Whether a line is a mark between documents. -/
def isMark (mark : String) (line : List Char) : Bool :=
  match Text.stripStart? mark.toList line with
  | some rest => beginsGap rest
  | none => false

/-- Whether a line begins or ends a document. -/
def isBoundary (line : List Char) : Bool := isMark "---" line || isMark "..." line

/-- Whether lines say nothing. -/
def saysNothing (lines : List (List Char)) : Bool :=
  (Spot.skip ⟨0, 0, List.intercalate ['\n'] lines⟩).rest.isEmpty

/-- The lines of the one document, up to its end. -/
def upToEnd? (lines : List (List Char)) : Option (List (List Char)) :=
  match lines.dropWhile (!isBoundary ·) with
  | [] => some lines
  | line :: rest =>
    if isMark "..." line && saysNothing rest then some (lines.takeWhile (!isBoundary ·)) else none

/-- The lines of the one document of a text. -/
def document? (lines : List (List Char)) : Option (List (List Char)) :=
  match lines.dropWhile (!isBoundary ·) with
  | line :: rest =>
    if isMark "---" line && saysNothing (lines.takeWhile (!isBoundary ·)) then
      -- the mark leaves as many spaces, so that columns stay
      (upToEnd? rest).map (([' ', ' ', ' '] ++ line.drop 3) :: ·)
    else upToEnd? lines
  | [] => some lines

/-- The value that a text writes. -/
def read? (text : String) : Option Value := do
  let cs := plainBreaks text.toList
  let cs := if cs.head? = some '\uFEFF' then cs.drop 1 else cs
  if !cs.all isAllowed then none
  else
    let body := List.intercalate ['\n'] (← document? (Text.lines cs))
    let start := Spot.skip ⟨0, 0, body⟩
    if start.rest.isEmpty then return .null
    else
      let (value, stop) ← block true none (2 * body.length) start
      if stop.skip.rest.isEmpty then return value else none

end Yaml

end AnimationCode
