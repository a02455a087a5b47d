/-
**Expressions.**

Chains of binary operators are kept flat, since no reading asks how they nest. All else has the shape
that the precedences give it.

* `Expression.operand`: an operand with its prefixes and suffixes;
* `Expression.conditional`: operators and the conditional;
* `Expression.single`, `Expression.sequence`: an expression without and with commas.
-/

import AnimationCode.Script.Grammar.Class
import AnimationCode.Script.Grammar.Markup

namespace AnimationCode

namespace Script

namespace Expression

open Reader Binding

/-! ### Functions without a name of their own -/

/-- The body of an arrow function: a block or an expression. -/
def arrowBody (rule : Grammar) (ends : Bool) : Reader Node := do
  match ← upcoming with
  | '\x7b' :: _ => firstOf [block rule, rule (.expression ends)]
  | _ => rule (.expression ends)

/-- An arrow function with one parameter and no brackets. -/
def plainArrow (rule : Grammar) (ends : Bool) : Reader Node :=
  construct .arrowFunction do
    let parameter ← name .identifier
    sign "=>"
    return [parameter, (← arrowBody rule ends).as .body]

/-- An arrow function with its parameters in brackets. -/
def fullArrow (rule : Grammar) (ends : Bool) : Reader Node :=
  construct .arrowFunction do
    let items ← callSignature rule
    sign "=>"
    return items ++ [(← arrowBody rule ends).as .body]

/-- An arrow function after the word `async`. -/
def asyncArrow (rule : Grammar) (ends : Bool) : Reader Node :=
  construct .arrowFunction do
    word "async"
    let arrow ← firstOf [plainArrow rule ends, fullArrow rule ends]
    return arrow.children

/-! ### Literals -/

/-- A string. -/
def string : Reader Node := lexeme .string stringLength?

/-- A number. -/
def number : Reader Node := lexeme .number numberLength?

/-- The inside of a template up to its closing quote, at most a number of parts. -/
def templateRest (rule : Grammar) : Nat → Reader (List Node)
  | 0 => failure
  | steps + 1 => do
    match ← rest with
    | '\x60' :: _ =>
      take 1
      return []
    | '$' :: '\x7b' :: _ =>
      let first ← start
      take 2
      let inside ← rule (.sequence false)
      sign "\x7d"
      let part : Node := .mk .substitution .plain ⟨first, ← last⟩ [inside]
      return part :: (← templateRest rule steps)
    | '\\' :: after =>
      match escapeLength? after with
      | some length =>
        take (length + 1)
        templateRest rule steps
      | none => failure
    | _ :: _ =>
      take 1
      templateRest rule steps
    | [] => failure

/-- A template. -/
def template (rule : Grammar) : Reader Node :=
  construct .template do
    sign "\x60"
    templateRest rule ((← rest).length + 1)

/-- An item spread into a list, an object or arguments. -/
def spread (rule : Grammar) : Reader Node :=
  construct .otherExpression do
    sign "..."
    return [← rule (.expression false)]

/-- A list. -/
def array (rule : Grammar) : Reader Node :=
  construct .array do
    sign "["
    let items ← commaList do
      return [← firstOf [spread rule, rule (.expression false)]]
    sign "]"
    return items

/-- An entry of an object. -/
def entry (rule : Grammar) : Reader Node :=
  firstOf [
    spread rule,
    construct .pair do
      let key ← propertyKey rule
      sign ":"
      let value ← rule (.expression false)
      return [key.as .key, value.as .value],
    Class.objectMethod rule,
    name .shorthand]

/-- An object. -/
def object (rule : Grammar) : Reader Node :=
  construct .object do
    sign "\x7b"
    let entries ← commaList do return [← entry rule]
    sign "\x7d"
    return entries

/-- An expression in parentheses. -/
def parenthesized (rule : Grammar) : Reader Node :=
  construct .parenthesized do
    sign "("
    let inside ← rule (.sequence false)
    if ← typed then discard (opt (Typing.ascription rule))
    sign ")"
    return [inside]

/-- The arguments of a call. -/
def arguments (rule : Grammar) : Reader Node :=
  construct .arguments do
    sign "("
    let items ← commaList do
      return [← firstOf [spread rule, rule (.expression false)]]
    sign ")"
    return items

/-! ### Operands -/

/-- A word that is an expression of a kind of its own. -/
def wordNode (kind : Kind) (text : String) : Reader Node :=
  construct kind (word text *> pure [])

/-- The suffix of what is created, which is no call. -/
def createdSuffix (rule : Grammar) (base : Node) : Reader Node :=
  firstOf [
    do
      signBut "." "."
      let property ← anyName .propertyName
      extend .member base [base.as .object, property.as .property],
    do
      sign "["
      let index ← rule (.sequence false)
      sign "]"
      extend .subscript base [base.as .object, index]]

/-- Whether a character may begin an operand that follows another expression. -/
def beginsOperand (cs : List Char) : Bool :=
  match cs with
  | [] => false
  | '!' :: rest => rest.head? != some '='
  | '.' :: rest => rest.head?.any Char.isDigit
  | c :: _ => nameLength cs != 0 || c.isDigit || "\"'[\x7b~@#".toList.contains c

/-- The words that stand between two operands. -/
def betweenOperands : List String := ["in", "instanceof", "as", "satisfies"]

/-- Whether an expression may end here, after its type arguments: the closing bracket of those is no
operator, as no operand follows it on its line. -/
def endsTypeArguments : Reader Bool := do
  let text ← upcoming
  let next ← nextWord
  let brokenLine ← lineBreakAhead
  let sticks := (← rest).head? == some '='
  return !sticks && !(text.head?.any fun c => "<>+-(\x60".toList.contains c) &&
    (brokenLine || betweenOperands.contains next || !beginsOperand text)

/-- An operand that begins with a word. -/
def wordOperand (rule : Grammar) (ends : Bool) : Reader Node := do
  match ← nextWord with
  | "function" => Class.function rule .functionExpression .otherExpression false
  | "async" =>
    firstOf [
      Class.function rule .functionExpression .otherExpression false,
      asyncArrow rule ends,
      plainArrow rule ends,
      name .identifier]
  | "class" => Class.definition rule .otherExpression false
  | "new" =>
    construct .otherExpression do
      word "new"
      firstOf [
        do
          sign "."
          word "target"
          return [],
        do
          let created ← grow (createdSuffix rule) (← rule (.primary false))
          if ← typed then
            discard <| opt do
              Typing.arguments rule
              guarded ((← nextSign "(") || (← endsTypeArguments))
          let items ← maybe (arguments rule)
          return created :: items]
  | "import" =>
    let base ← wordNode .otherExpression "import"
    firstOf [
      do
        sign "."
        word "meta"
        extend .otherExpression base [],
      do
        let items ← arguments rule
        extend .call base [base.as .callee, items.as .arguments]]
  | "this" => wordNode .otherExpression "this"
  | "super" => wordNode .otherExpression "super"
  | "true" => wordNode .trueLiteral "true"
  | "false" => wordNode .falseLiteral "false"
  | "null" => wordNode .nullLiteral "null"
  | "undefined" => firstOf [plainArrow rule ends, wordNode .undefinedName "undefined"]
  | _ => firstOf [plainArrow rule ends, name .identifier]

/-- An operand without prefixes and suffixes. -/
def primary (rule : Grammar) (ends : Bool) : Reader Node := do
  match ← upcoming with
  | '(' :: _ => firstOf [fullArrow rule ends, parenthesized rule]
  | '[' :: _ => array rule
  | '\x7b' :: _ => object rule
  | '"' :: _ => string
  | '\'' :: _ => string
  | '\x60' :: _ => template rule
  | '/' :: _ => lexeme .regex regexLength?
  | '<' :: _ =>
    let arrow : Reader Node := do
      guarded (← typed)
      fullArrow rule ends
    if ← markup then firstOf [arrow, rule .element]
    else
      firstOf [
        arrow,
        construct .otherExpression do
          guarded (← typed)
          Typing.arguments rule
          return [← rule (.operand ends)]]
  | '#' :: _ => construct .otherExpression (sign "#" *> anyName .propertyName *> pure [])
  | '@' :: _ => Class.definition rule .otherExpression false
  | c :: _ => if c.isDigit || c == '.' then number else wordOperand rule ends
  | [] => failure

/-- Whether an operand may be assigned to. -/
def isPlace (node : Node) : Bool :=
  [.identifier, .undefinedName, .member, .subscript, .parenthesized].contains node.kind

/-- A suffix of an operand: a property, a call, a template, or an assertion. -/
def suffix (rule : Grammar) (ends : Bool) (base : Node) : Reader Node := do
  if ends then guarded !(← endsHere true)
  firstOf [
    do
      signBut "." "."
      let property ← firstOf [
        anyName .propertyName,
        construct .propertyName (sign "#" *> anyName .propertyName *> pure [])]
      extend .member base [base.as .object, property.as .property],
    do
      let items ← arguments rule
      extend .call base [base.as .callee, items.as .arguments],
    do
      sign "?."
      guarded !((← rest).head?.any Char.isDigit)
      firstOf [
        do
          let property ← anyName .propertyName
          extend .member base [base.as .object, property.as .property],
        do
          sign "["
          let index ← rule (.sequence false)
          sign "]"
          extend .subscript base [base.as .object, index],
        do
          if ← typed then discard (opt (Typing.arguments rule))
          let items ← arguments rule
          extend .call base [base.as .callee, items.as .arguments]],
    do
      sign "["
      let index ← rule (.sequence false)
      sign "]"
      extend .subscript base [base.as .object, index],
    do
      let items ← template rule
      extend .call base [base.as .callee, items.as .arguments],
    do
      guarded (← typed)
      Typing.arguments rule
      let items ← arguments rule
      extend .call base [base.as .callee, items.as .arguments],
    do
      guarded (← typed)
      Typing.arguments rule
      guarded (← endsTypeArguments)
      extend .otherExpression base [base],
    do
      guarded (← typed)
      signBut "!" "="
      extend .otherExpression base [base]]

/-- The counting of an operand up or down. -/
def counting (ends : Bool) (base : Node) : Reader Node := do
  if ends then guarded !(← endsHere true)
  firstOf [sign "++", sign "--"]
  extend .otherExpression base [base]

/-- An operand with its suffixes. -/
def suffixed (rule : Grammar) (ends : Bool) : Reader Node := do
  let base ← primary rule ends
  if base.kind == .arrowFunction then return base
  grow (counting ends) (← grow (suffix rule ends) base)

/-- An operand with its prefixes and suffixes. -/
def operand (rule : Grammar) (ends : Bool) : Reader Node := do
  let prefixed (kind : Kind) (token : Reader Unit) : Reader Node :=
    construct kind do
      let op ← mark .token .operator token
      return [op, (← rule (.operand ends)).as .argument]
  match ← upcoming with
  | '!' :: _ => prefixed .unary (sign "!")
  | '~' :: _ => prefixed .unary (sign "~")
  | '+' :: '+' :: _ => prefixed .otherExpression (sign "++")
  | '-' :: '-' :: _ => prefixed .otherExpression (sign "--")
  | '+' :: _ => prefixed .unary (sign "+")
  | '-' :: _ => prefixed .unary (sign "-")
  | _ =>
    match ← nextWord with
    | "typeof" => prefixed .unary (word "typeof")
    | "void" => prefixed .unary (word "void")
    | "delete" => prefixed .unary (word "delete")
    | "await" =>
      firstOf [
        construct .awaiting do
          word "await"
          return [← rule (.operand ends)],
        suffixed rule ends]
    | _ => suffixed rule ends

/-! ### Operators -/

/-- The operators between two operands, those that begin with another first. -/
def binarySigns : List (String × String) := [
  ("===", ""), ("!==", ""), (">>>", "="), ("**", "="), ("==", ""), ("!=", ""), ("<=", ""),
  (">=", ""), ("<<", "="), (">>", "="), ("&&", "="), ("||", "="), ("??", "="), ("+", "=+"),
  ("-", "=-"), ("*", "=*"), ("/", "="), ("%", "="), ("<", "<="), (">", ">="), ("&", "&="),
  ("|", "|="), ("^", "=")]

/-- An operator between two operands. -/
def binaryOperator : Reader Unit := do
  match ← nextWord with
  | "in" => word "in"
  | "instanceof" => word "instanceof"
  | _ => firstOf (binarySigns.map fun (text, excluded) => signBut text excluded)

/-- One more operator with its operand, or a type that a chain of operands is given. -/
def chainSuffix (rule : Grammar) (ends : Bool) (chain : Node) : Reader Node := do
  if ends then guarded !(← endsHere true)
  firstOf [
    do
      binaryOperator
      let next ← rule (.operand ends)
      extend .otherExpression chain [chain, next],
    do
      guarded (← typed)
      word "as"
      let typing ← firstOf [construct .typeExpression (word "const" *> pure []), rule .typing]
      extend .asType chain [chain, typing],
    do
      guarded (← typed)
      word "satisfies"
      let typing ← rule .typing
      extend .satisfiesType chain [chain, typing]]

/-- Operands with operators between them. -/
def chain (rule : Grammar) (ends : Bool) : Reader Node := do
  let first ← operand rule ends
  if first.kind == .arrowFunction then return first
  grow (chainSuffix rule ends) first

/-- The mark of a conditional; the signs `??` and `?.` are none, unless a digit follows the point. -/
def questionMark : Reader Unit := do
  signBut "?" "?"
  match ← rest with
  | '.' :: after => guarded (after.head?.any Char.isDigit)
  | _ => pure ()

/-- A chain, or a conditional on one. -/
def conditional (rule : Grammar) (ends : Bool) : Reader Node := do
  let condition ← chain rule ends
  if condition.kind == .arrowFunction then return condition
  if ends && (← endsHere true) then return condition
  let branches ← opt do
    questionMark
    let consequence ← rule (.expression false)
    sign ":"
    let alternative ← rule (.expression ends)
    return [consequence.as .consequence, alternative.as .alternative]
  match branches with
  | some branches => extend .ternary condition (condition.as .condition :: branches)
  | none => return condition

/-- The signs of an assignment that also computes. -/
def updateSigns : List String := [
  ">>>=", "**=", "<<=", ">>=", "&&=", "||=", "??=", "+=", "-=", "*=", "/=", "%=", "&=", "|=", "^="]

/-- An assignment to the parts of a value. -/
def destructuring (rule : Grammar) (ends : Bool) : Reader Node :=
  construct .otherExpression do
    let target ← firstOf [objectPattern rule, listPattern rule]
    signBut "=" "=>"
    return [target, ← rule (.expression ends)]

/-- An assignment to a place that has been read, or the place itself. -/
def assignmentTo (rule : Grammar) (ends : Bool) (target : Node) : Reader Node := do
  if !(isPlace target || target.kind == .otherExpression) then return target
  if ends && (← endsHere true) then return target
  let value ← opt do
    guarded (isPlace target || ((← typed) && target.children.length == 1))
    firstOf (signBut "=" "=>" :: updateSigns.map sign)
    rule (.expression ends)
  match value with
  | some value => extend .otherExpression target [target, value]
  | none => return target

/-- What a generator yields. -/
def yielded (rule : Grammar) (ends : Bool) : Reader Node :=
  construct .otherExpression do
    word "yield"
    if ends && (← endsHere false) then return []
    firstOf [
      do
        sign "*"
        return [← rule (.expression ends)],
      maybe (rule (.expression ends))]

/-- A value, unless the sign of an assignment follows it and it names the parts that are assigned
to. -/
def unlessAssigned (value assignment : Reader Node) : Reader Node := fun c =>
  match value c with
  | some (node, c') =>
    if (signBut "=" "=>" c').isSome then (assignment c).orElse fun _ => some (node, c')
    else some (node, c')
  | none => assignment c

/-- An expression without commas. -/
def single (rule : Grammar) (ends : Bool) : Reader Node := do
  let plain : Reader Node := do
    assignmentTo rule ends (← conditional rule ends)
  match ← upcoming with
  | '[' :: _ => unlessAssigned plain (destructuring rule ends)
  | '\x7b' :: _ => unlessAssigned plain (destructuring rule ends)
  | _ =>
    if (← nextWord) == "yield" then firstOf [yielded rule ends, plain] else plain

/-- Expressions with commas between them. -/
def sequence (rule : Grammar) (ends : Bool) : Reader Node := do
  let first ← rule (.expression ends)
  let others ← many (sign "," *> rule (.expression ends))
  if others.isEmpty then return first
  extend .sequence first (first :: others)

end Expression

end Script

end AnimationCode
