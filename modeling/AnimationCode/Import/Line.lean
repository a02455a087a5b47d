/-
**Import lines of a text.**

An import line begins a line, binds a default, a namespace or names from a source, or nothing at all,
and ends a line. The lines are found in the text itself, so they are found in scripts and in the
script blocks of components alike.

* `ImportLine.readAll`: the import lines of a text with their places;
* `ImportLine.render`: an import line written out;
* `ImportLine.localName`: the name that a specifier binds.
-/

import AnimationCode.Text.Blank
import AnimationCode.Text.Word

namespace AnimationCode

/-- An import line with the interval of the text that it takes. -/
structure ImportLine where
  start : Nat
  stop : Nat
  source : String
  /-- The default that is bound, or a namespace `* as name`. -/
  default? : Option String
  /-- The specifiers between the braces. -/
  named : List String
  typeOnly : Bool
deriving DecidableEq, Repr, Inhabited

namespace ImportLine

open Text (isBlank isWord stripStart? startsWith)

/-- A specifier's text after its last ` as `, blanks at the ends aside. -/
def localName (specifier : String) : String :=
  let pieces := Text.splitOnText " as ".toList specifier.toList
  String.ofList (Text.trim (pieces.getLast?.getD []))

/-- What is written between `import` and `from`. -/
def clauseText (line : ImportLine) : String :=
  let braced :=
    if line.named.isEmpty then [] else ["\x7b " ++ ", ".intercalate line.named ++ " \x7d"]
  let parts := match line.default? with
    | some name => if name = "" then braced else name :: braced
    | none => braced
  ", ".intercalate parts

/-- Whether the line binds something. -/
def binds (line : ImportLine) : Bool :=
  !line.named.isEmpty || line.default?.any (· != "")

/-- The line written out. -/
def render (line : ImportLine) : String :=
  if line.binds then
    (if line.typeOnly then "import type " else "import ") ++ line.clauseText ++ " from '" ++
      line.source ++ "';"
  else "import '" ++ line.source ++ "';"

/-! ### Reading -/

/-- A space or a tab. -/
def isIndent (c : Char) : Bool := c == ' ' || c == '\t'

/-- A character that may stand in what is imported. -/
def isClausePart (c : Char) : Bool :=
  isWord c || c == '\x7b' || c == '\x7d' || c == '*' || c == ',' || isBlank c || c == '$'

/-- A quote of either kind. -/
def isQuote (c : Char) : Bool := c == '\'' || c == '"'

/-- The quoted source at the beginning of a text that ends its line, and the rest of the text. -/
def readSource? (cs : List Char) : Option (List Char × List Char) :=
  match cs with
  | mark :: rest =>
    let source := rest.takeWhile fun c => !isQuote c
    match rest.drop source.length with
    | _ :: after =>
      let after := match after with
        | ';' :: tail => tail
        | tail => tail
      let after := after.dropWhile isIndent
      if isQuote mark && source != [] && (after.head? == none || after.head? == some '\n') then
        some (source, after)
      else none
    | [] => none
  | [] => none

/-- The source after the word `from`, with the blanks around the word, and the rest of the text. -/
def readFrom? (cs : List Char) : Option (List Char × List Char) :=
  if cs.head?.any isBlank then
    match stripStart? "from".toList (cs.dropWhile isBlank) with
    | some rest => if rest.head?.any isBlank then readSource? (rest.dropWhile isBlank) else none
    | none => none
  else none

/-- The shortest clause, at least a character long, that a source follows. -/
def readClause? (clause : List Char) : List Char → Option (List Char × List Char × List Char)
  | [] => none
  | c :: cs =>
    match (if clause = [] then none else readFrom? (c :: cs)) with
    | some (source, rest) => some (clause, source, rest)
    | none => if isClausePart c then readClause? (clause ++ [c]) cs else none

/-- The texts that are left after passing blanks: all of them first, at least one of them last. -/
def afterBlanks : Nat → List Char → List (List Char)
  | 0, _ => []
  | count + 1, cs => cs.drop (count + 1) :: afterBlanks count cs

/-- What an import line says after the word `import`: the mark of types, the clause, the source, and
the rest of the text. -/
def readBody? (cs : List Char) : Option (Bool × List Char × List Char × List Char) :=
  let blanks := (cs.takeWhile isBlank).length
  let typed : List (Option (List Char × List Char × List Char)) :=
    match stripStart? "type".toList (cs.drop blanks) with
    | some rest =>
      (afterBlanks (rest.takeWhile isBlank).length rest).map fun text => readClause? [] text
    | none => []
  let plain := (afterBlanks blanks cs).map fun text => readClause? [] text
  if blanks = 0 then none
  else
    match typed.findSome? id with
    | some (clause, source, rest) => some (true, clause, source, rest)
    | none =>
      match plain.findSome? id with
      | some (clause, source, rest) => some (false, clause, source, rest)
      | none => (readSource? (cs.drop blanks)).map fun (source, rest) => (false, [], source, rest)

/-- The names between the first braces of a clause, and the clause without them. -/
def bracedNames (clause : List Char) : List String × List Char :=
  let before := clause.takeWhile (· != '\x7b')
  match clause.drop before.length with
  | _ :: rest =>
    let inside := rest.takeWhile (· != '\x7d')
    match rest.drop inside.length with
    | _ :: after =>
      let names := (Text.splitAt ',' inside).filterMap fun piece =>
        if Text.isBlankText piece then none else some (String.ofList (Text.squeeze piece))
      (names, before ++ after)
    | [] => ([], clause)
  | [] => ([], clause)

/-- The default or the namespace of a clause without its braces. -/
def defaultOf (clause : List Char) : Option String :=
  let name := Text.trim (Text.replaceChar ',' [' '] clause)
  if name = [] then none
  else some (String.ofList (if name.head? = some '*' then Text.squeeze name else name))

/-- The import line at the beginning of a line of the text, with the rest of the text. -/
def readAt? (start : Nat) (cs : List Char) : Option (ImportLine × List Char) :=
  match stripStart? "import".toList (cs.dropWhile isIndent) with
  | none => none
  | some body =>
    (readBody? body).map fun (typeOnly, clause, source, rest) =>
      let (named, others) := bracedNames clause
      (⟨start, start + (cs.length - rest.length), String.ofList source, defaultOf others, named,
        typeOnly⟩, rest)

/-- The import lines of a text from an offset on, at most one character for every step. -/
def readFrom (atLineStart : Bool) : Nat → Nat → List Char → List ImportLine
  | 0, _, _ => []
  | _ + 1, _, [] => []
  | steps + 1, offset, c :: cs =>
    match (if atLineStart then readAt? offset (c :: cs) else none) with
    | some (line, rest) => line :: readFrom false steps line.stop rest
    | none => readFrom (c == '\n') steps (offset + 1) cs

/-- The import lines of a text. -/
def readAll (text : List Char) : List ImportLine := readFrom true text.length 0 text

end ImportLine

end AnimationCode
