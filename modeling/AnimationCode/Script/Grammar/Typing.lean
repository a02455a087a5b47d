/-
**Types.**

Types carry no values, so a type is a node without children. `Typing.full` reads a type with its
unions, intersections and conditions; `Typing.ascription` reads one after a colon.
-/

import AnimationCode.Script.Token

namespace AnimationCode

namespace Script

namespace Typing

open Reader

/-- Reads without keeping a node. -/
def quietly {α : Type} (reader : Reader α) : Reader Unit := discard reader

/-- A type. -/
def anyType (rule : Grammar) : Reader Unit := quietly (rule .typing)

/-- Types between angle brackets. -/
def arguments (rule : Grammar) : Reader Unit := do
  sign "<"
  quietly (commaList1 (anyType rule *> pure []))
  quietly (opt (sign ","))
  sign ">"

/-- The parameters of a generic declaration. -/
def parameters (rule : Grammar) : Reader Unit := do
  sign "<"
  quietly <| commaList1 do
    quietly (opt (word "const"))
    quietly (name .typeExpression)
    quietly (opt (word "extends" *> anyType rule))
    quietly (opt (signBut "=" "=>" *> anyType rule))
    return []
  quietly (opt (sign ","))
  sign ">"

/-- What a colon gives: a type, a type test, or an assertion. -/
def ascription (rule : Grammar) : Reader Unit := do
  sign ":"
  quietly (opt (word "asserts" <* absent (word "is")))
  firstOf [
    quietly (anyName .typeExpression *> word "is" *> anyType rule),
    anyType rule]

/-- A parameter of a function type. -/
def parameter (rule : Grammar) : Reader Unit := do
  quietly (opt (sign "..."))
  quietly (rule .pattern) <|> word "this"
  quietly (opt (sign "?"))
  quietly (opt (ascription rule))

/-- The parameters of a function type. -/
def functionParameters (rule : Grammar) : Reader Unit := do
  sign "("
  quietly (opt (commaList1 (parameter rule *> pure [])))
  quietly (opt (sign ","))
  sign ")"

/-- What a function type yields. -/
def result (rule : Grammar) : Reader Unit :=
  firstOf [
    quietly (opt (word "asserts" <* absent (word "is")) *> anyName .typeExpression *>
      word "is" *> anyType rule),
    anyType rule]

/-- A function type. -/
def functionType (rule : Grammar) : Reader Unit := do
  quietly (opt (opt (word "abstract") *> word "new"))
  quietly (opt (parameters rule))
  functionParameters rule
  sign "=>"
  result rule

/-- The name of a member of an object type. -/
def memberName (rule : Grammar) : Reader Unit :=
  firstOf [
    quietly (anyName .propertyName),
    quietly (lexeme .string stringLength?),
    quietly (lexeme .number numberLength?),
    sign "[" *> quietly (rule (.expression false)) *> sign "]"]

/-- A signature of a method. -/
def signature (rule : Grammar) : Reader Unit := do
  quietly (opt (parameters rule))
  functionParameters rule
  quietly (opt (ascription rule))

/-- The key of a mapped or an indexed member. -/
def indexKey (rule : Grammar) : Reader Unit := do
  quietly (opt ((sign "+" <|> sign "-") *> pure ()) )
  quietly (opt (word "readonly"))
  sign "["
  quietly (name .typeExpression)
  firstOf [
    sign ":" *> anyType rule,
    word "in" *> anyType rule *> quietly (opt (word "as" *> anyType rule))]
  sign "]"
  quietly (opt (sign "+" <|> sign "-"))
  quietly (opt (sign "?"))
  quietly (opt (ascription rule))

/-- A member of an object type. -/
def member (rule : Grammar) : Reader Unit :=
  firstOf [
    indexKey rule,
    quietly (opt (word "new")) *> signature rule,
    do
      firstOf [
        (word "readonly" <|> word "get" <|> word "set") *> memberName rule,
        memberName rule]
      quietly (opt (sign "?"))
      firstOf [signature rule, quietly (opt (ascription rule))]]

/-- An object type. -/
def objectType (rule : Grammar) : Reader Unit := do
  sign "\x7b"
  quietly (opt (sign "|"))
  quietly <| many do
    firstOf [
      sign ";" <|> sign ",",
      member rule *> firstOf [sign ",", semicolon false]]
  quietly (opt (sign "|"))
  sign "\x7d"

/-- An element of a tuple type. -/
def tupleElement (rule : Grammar) : Reader Unit := do
  quietly (opt (sign "..."))
  quietly (opt (name .typeExpression *> opt (sign "?") *> signBut ":" ":"))
  anyType rule
  quietly (opt (sign "?"))

/-- A name with its qualifiers and arguments. -/
def reference (rule : Grammar) : Reader Unit := do
  quietly (anyName .typeExpression)
  quietly (many (sign "." *> anyName .typeExpression))
  quietly (opt (arguments rule))

/-- The part of a template type up to its closing quote, at most a number of parts. -/
def templateRest (rule : Grammar) : Nat → Reader Unit
  | 0 => failure
  | steps + 1 => do
    match ← rest with
    | '\x60' :: _ => take 1
    | '$' :: '\x7b' :: _ =>
      take 2
      anyType rule
      sign "\x7d"
      templateRest rule steps
    | '\\' :: _ :: _ =>
      take 2
      templateRest rule steps
    | _ :: _ =>
      take 1
      templateRest rule steps
    | [] => failure

/-- A type without suffixes. -/
def primary (rule : Grammar) : Reader Unit := do
  let text ← upcoming
  match text with
  | '(' :: _ =>
    firstOf [functionType rule, sign "(" *> anyType rule *> sign ")"]
  | '<' :: _ => functionType rule
  | '\x7b' :: _ => objectType rule
  | '[' :: _ =>
    sign "["
    quietly (opt (commaList1 (tupleElement rule *> pure [])))
    quietly (opt (sign ","))
    sign "]"
  | '"' :: _ => quietly (lexeme .string stringLength?)
  | '\'' :: _ => quietly (lexeme .string stringLength?)
  | '-' :: _ => sign "-" *> quietly (lexeme .number numberLength?)
  | '\x60' :: rest =>
    sign "\x60"
    templateRest rule (rest.length + 1)
  | c :: _ =>
    if c.isDigit then quietly (lexeme .number numberLength?)
    else
      match ← nextWord with
      | "new" => functionType rule
      | "abstract" => firstOf [functionType rule, reference rule]
      | "typeof" =>
        word "typeof"
        firstOf [
          word "import" *> sign "(" *> anyType rule *> sign ")" *>
            quietly (many (sign "." *> anyName .typeExpression)),
          reference rule]
      | "import" =>
        word "import" *> sign "(" *> anyType rule *> sign ")" *>
          quietly (many (sign "." *> anyName .typeExpression)) *>
          quietly (opt (arguments rule))
      | _ => reference rule
  | [] => failure

/-- A type with its prefixes and its brackets. -/
def suffixed (rule : Grammar) : Reader Unit := do
  quietly <| many <| firstOf [
    word "keyof" *> absent (sign "," <|> sign ">" <|> sign ";" <|> sign ")"),
    word "unique" *> absent (sign "," <|> sign ">" <|> sign ";" <|> sign ")"),
    word "readonly" *> absent (sign "," <|> sign ">" <|> sign ";" <|> sign ")"),
    word "infer" *> absent (sign "," <|> sign ">" <|> sign ";" <|> sign ")")]
  primary rule
  quietly <| many do
    guarded !(← lineBreakAhead)
    sign "["
    quietly (opt (anyType rule))
    sign "]"

/-- Types joined by a mark, which may also stand first. -/
def joined (mark : String) (part : Reader Unit) : Reader Unit := do
  quietly (opt (sign mark))
  part
  quietly (many (sign mark *> part))

/-- A type with unions, intersections and a condition. -/
def full (rule : Grammar) : Reader Unit := do
  joined "|" (joined "&" (suffixed rule))
  quietly <| opt do
    word "extends"
    joined "|" (joined "&" (suffixed rule))
    sign "?"
    anyType rule
    sign ":"
    anyType rule

/-- A type as a node. -/
def node (rule : Grammar) : Reader Node := construct .typeExpression (full rule *> pure [])

end Typing

end Script

end AnimationCode
