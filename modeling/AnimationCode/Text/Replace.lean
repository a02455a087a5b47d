/-
**Replacing what a text holds.**

A finder looks at a place of a text, with the character before it, and yields what to write there and
what is left of the text after the place. The text is gone through from left to right, and what has
been found is not looked at again.

* `Text.replaceEach`: the text with every find replaced, and the number of finds;
* `Text.findEach`: what a finder yields at each of its finds.
-/

namespace AnimationCode

namespace Text

/-- What a finder yields at a place: a result, and the rest of the text. -/
abbrev Finder (α : Type) := Option Char → List Char → Option (α × List Char)

/-- The last character of the part of a text before its rest. -/
def lastBefore (cs rest : List Char) : Option Char := (cs.take (cs.length - rest.length)).getLast?

/-- The finds of a text, at most one character for every step. -/
def findFrom {α : Type} (find : Finder α) : Nat → Option Char → List Char → List α
  | 0, _, _ => []
  | _ + 1, _, [] => []
  | steps + 1, before, c :: cs =>
    match find before (c :: cs) with
    | some (found, rest) => found :: findFrom find steps (lastBefore (c :: cs) rest) rest
    | none => findFrom find steps (some c) cs

/-- The finds of a text from left to right. -/
def findEach {α : Type} (find : Finder α) (text : List Char) : List α :=
  findFrom find text.length none text

/-- The text with its finds replaced and their number, at most one character for every step. -/
def replaceFrom (find : Finder (List Char)) : Nat → Option Char → List Char → List Char × Nat
  | 0, _, cs => (cs, 0)
  | _ + 1, _, [] => ([], 0)
  | steps + 1, before, c :: cs =>
    match find before (c :: cs) with
    | some (written, rest) =>
      let (text, count) := replaceFrom find steps (lastBefore (c :: cs) rest) rest
      (written ++ text, count + 1)
    | none =>
      let (text, count) := replaceFrom find steps (some c) cs
      (c :: text, count)

/-- The text with every find replaced, and the number of finds. -/
def replaceEach (find : Finder (List Char)) (text : List Char) : List Char × Nat :=
  replaceFrom find text.length none text

end Text

end AnimationCode
