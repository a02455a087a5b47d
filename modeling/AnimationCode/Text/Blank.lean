/-
**Blank characters, trimming and words.**

* `isBlank`: the white space of a text, twenty-nine characters;
* `trim`, `trimLeft`, `trimRight`: a text without the blanks at its ends;
* `words`: the maximal runs without a blank.
-/

namespace AnimationCode

namespace Text

/-- White space: the ASCII blanks and separators, and the spaces of Unicode. -/
def isBlank (c : Char) : Bool :=
  let n := c.toNat
  (9 ≤ n && n ≤ 13) || (28 ≤ n && n ≤ 32) || n == 0x85 || n == 0xa0 || n == 0x1680 ||
    (0x2000 ≤ n && n ≤ 0x200a) || n == 0x2028 || n == 0x2029 || n == 0x202f || n == 0x205f ||
    n == 0x3000

/-- The text from its first character that is not blank. -/
def trimLeft (cs : List Char) : List Char := cs.dropWhile isBlank

/-- The text without the last characters of a class. -/
def dropLastWhile (p : Char → Bool) (cs : List Char) : List Char :=
  (cs.reverse.dropWhile p).reverse

/-- The text up to its last character that is not blank. -/
def trimRight (cs : List Char) : List Char := dropLastWhile isBlank cs

/-- The text without blanks at its ends. -/
def trim (cs : List Char) : List Char := trimRight (trimLeft cs)

/-- The words of a text, given the word that ends where the text begins. -/
def wordsFrom (pending : List Char) : List Char → List (List Char)
  | [] => if pending = [] then [] else [pending]
  | c :: cs =>
    if isBlank c then
      if pending = [] then wordsFrom [] cs else pending :: wordsFrom [] cs
    else wordsFrom (pending ++ [c]) cs

/-- The maximal runs of characters that are not blank. -/
def words (cs : List Char) : List (List Char) := wordsFrom [] cs

/-- The words of a text with single spaces between them. -/
def squeeze (cs : List Char) : List Char := List.intercalate [' '] (words cs)

/-- Whether a text has only blanks. -/
def isBlankText (cs : List Char) : Bool := cs.all isBlank

/-- The text without a leading run of a character. -/
def dropLeading (c : Char) (cs : List Char) : List Char := cs.dropWhile (· == c)

/-- The text without a final run of a character. -/
def dropTrailing (c : Char) (cs : List Char) : List Char := dropLastWhile (· == c) cs

/-- The pieces of a text between the occurrences of a character. -/
def splitAt (sep : Char) : List Char → List (List Char)
  | [] => [[]]
  | c :: cs =>
    if c = sep then [] :: splitAt sep cs
    else match splitAt sep cs with
      | piece :: rest => (c :: piece) :: rest
      | [] => [[c]]

/-- The lines of a text; line feeds separate them. -/
def lines (cs : List Char) : List (List Char) := splitAt '\n' cs

/-- What follows a given beginning of a text, if the text begins so. -/
def stripStart? : List Char → List Char → Option (List Char)
  | [], rest => some rest
  | _ :: _, [] => none
  | c :: cs, d :: ds => if c = d then stripStart? cs ds else none

/-- Whether a text begins with another. -/
def startsWith (start text : List Char) : Bool := (stripStart? start text).isSome

/-- Whether a text ends with another. -/
def endsWith (ending text : List Char) : Bool := startsWith ending.reverse text.reverse

/-- Whether a text holds another. -/
def holds (needle : List Char) : List Char → Bool
  | [] => needle.isEmpty
  | c :: cs => startsWith needle (c :: cs) || holds needle cs

/-- The text before the first occurrence of another and the text after it. -/
def cut? (needle : List Char) : List Char → Option (List Char × List Char)
  | [] => if needle = [] then some ([], []) else none
  | c :: cs =>
    match stripStart? needle (c :: cs) with
    | some rest => some ([], rest)
    | none => (cut? needle cs).map fun (before, rest) => (c :: before, rest)

/-- A text with every occurrence of a character replaced. -/
def replaceChar (c : Char) (by_ : List Char) (cs : List Char) : List Char :=
  cs.flatMap fun d => if d = c then by_ else [d]

/-- Whether a text, or the text before its final line feed, is of a form. -/
def isLineOf (form : List Char → Bool) (cs : List Char) : Bool :=
  form cs || (cs.getLast? == some '\n' && form cs.dropLast)

/-- Whether some ending of a text satisfies a test, which also sees the character before it. -/
def anySuffix (test : Option Char → List Char → Bool) : Option Char → List Char → Bool
  | before, [] => test before []
  | before, c :: cs => test before (c :: cs) || anySuffix test (some c) cs

/-- The pieces of a text between the occurrences of another text. -/
def splitOnText (needle : List Char) (cs : List Char) : List (List Char) :=
  go cs.length [] cs
where
  /-- The pieces, given the piece that ends where the text begins. -/
  go : Nat → List Char → List Char → List (List Char)
    | _, pending, [] => [pending]
    | 0, pending, cs => [pending ++ cs]
    | fuel + 1, pending, c :: cs =>
      match (if needle = [] then none else stripStart? needle (c :: cs)) with
      | some rest => pending :: go fuel [] rest
      | none => go fuel (pending ++ [c]) cs

end Text

end AnimationCode
