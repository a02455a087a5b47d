/-
**Lines and columns.**

Lines end at line feeds; lines and columns count from one.

* `Location.counted`: the place of an offset, by counting line feeds before it;
* `LineIndex.location`: the same place, found by bisection among the starts of the lines;
* `Location.inBytes`: the column in UTF-8 bytes instead of characters.
-/

namespace AnimationCode

/-- A line and a column, both from one. -/
structure Location where
  line : Nat
  column : Nat
deriving DecidableEq, Repr, Inhabited

namespace Text

/-- The number of line feeds. -/
def lineFeeds (cs : List Char) : Nat := cs.count '\n'

/-- The characters after the last line feed. -/
def lastLine (cs : List Char) : List Char := (cs.reverse.takeWhile (· != '\n')).reverse

/-- The length of a text in UTF-8 bytes. -/
def utf8Length (cs : List Char) : Nat := cs.foldl (fun n c => n + c.utf8Size) 0

end Text

/-- The place of an offset: one more than the line feeds before it, and the distance from the last
of them. -/
def Location.counted (text : List Char) (offset : Nat) : Location :=
  let before := text.take offset
  ⟨Text.lineFeeds before + 1, (Text.lastLine before).length + 1⟩

/-- The place of an offset with its column in UTF-8 bytes. -/
def Location.inBytes (text : List Char) (offset : Nat) : Location :=
  let before := text.take offset
  ⟨Text.lineFeeds before + 1, Text.utf8Length (Text.lastLine before) + 1⟩

/-- The offsets at which the lines of a text begin, in increasing order. -/
structure LineIndex where
  starts : Array Nat
deriving Repr, Inhabited

namespace LineIndex

/-- The offsets just after the line feeds of a text that begins at an offset. -/
def startsFrom (offset : Nat) : List Char → List Nat
  | [] => []
  | c :: cs => if c = '\n' then (offset + 1) :: startsFrom (offset + 1) cs else startsFrom (offset + 1) cs

/-- The line starts of a text. -/
def ofText (text : List Char) : LineIndex := ⟨(0 :: startsFrom 0 text).toArray⟩

/-- The number of starts at or before an offset, by halving the interval that may hold it. -/
def bisect (starts : Array Nat) (offset low high : Nat) : Nat :=
  if h : low < high then
    let middle := (low + high) / 2
    if offset < starts.getD middle 0 then bisect starts offset low middle
    else bisect starts offset (middle + 1) high
  else low
termination_by high - low

/-- The place of an offset. -/
def location (index : LineIndex) (offset : Nat) : Location :=
  let row := bisect index.starts offset 0 index.starts.size - 1
  ⟨row + 1, offset - index.starts.getD row 0 + 1⟩

end LineIndex

end AnimationCode
