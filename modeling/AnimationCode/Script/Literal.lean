/-
**Values of literal expressions.**

A literal has the value that it writes; any other expression stands for itself.

* `Script.evaluate`: the value of a node;
* `Script.evaluateText`: the value of a text that is one expression.

A string whose escape names no code point has no value, and neither has what contains it.
-/

import AnimationCode.Failure
import AnimationCode.Script.Grammar.Statement
import AnimationCode.Text.Quoted
import AnimationCode.Value

namespace AnimationCode

namespace Script

/-- The text that a quoted form stands for. -/
def unquoted (cs : List Char) : Outcome String :=
  match Text.unquote? cs with
  | some text => .ok (String.ofList text)
  | none => .error .unfitValue

/-- The value of a number; a big integer stays an expression. -/
def numberValue (cs : List Char) : Value :=
  let digits := cs.filter (· != '_')
  let asCode : Value := .code (String.ofList cs)
  let radix (base : Nat) (isDigit : Char → Bool) (rest : List Char) : Value :=
    if rest ≠ [] ∧ rest.all isDigit then .int (Text.numberOf base rest : Nat) else asCode
  match digits with
  | '0' :: 'x' :: rest => radix 16 Text.isHexDigit rest
  | '0' :: 'X' :: rest => radix 16 Text.isHexDigit rest
  | '0' :: 'o' :: rest => radix 8 (fun c => '0' ≤ c && c ≤ '7') rest
  | '0' :: 'O' :: rest => radix 8 (fun c => '0' ≤ c && c ≤ '7') rest
  | '0' :: 'b' :: rest => radix 2 (fun c => c == '0' || c == '1') rest
  | '0' :: 'B' :: rest => radix 2 (fun c => c == '0' || c == '1') rest
  | _ =>
    if digits.all Char.isDigit then
      if Decimal.digitLimit < digits.length then asCode else .int (Decimal.natOf digits : Nat)
    else match Decimal.read? digits with
      | some x => .real x
      | none => asCode

/-- The name that a property key writes; a computed key writes none. -/
def keyText (source : List Char) (key : Node) : Outcome (Option String) :=
  match key.kind with
  | .propertyName =>
    let text := key.text source
    .ok (if text.head? = some '#' then none else some (String.ofList text))
  | .identifier => .ok (some (String.ofList (key.text source)))
  | .string => some <$> unquoted (key.text source)
  | .number => .ok (some (String.ofList (key.text source)))
  | _ => .ok none

/-- The value of a sign before a number. -/
def signedValue (operator : List Char) (value raw : Value) : Value :=
  match value with
  | .int n => if operator = ['-'] then .int (-n) else if operator = ['+'] then value else raw
  | .real x => if operator = ['-'] then .real x.neg else if operator = ['+'] then value else raw
  | _ => raw

/-- A node with its value. -/
abbrev Valued := Node × Outcome Value

/-- The value of the first child in a role. -/
def valueIn? (role : Role) (children : List Valued) : Option (Outcome Value) :=
  (children.find? fun child => child.1.role == role).map Prod.snd

/-- The fields of an object, given those before; none if an entry is no name with a value. -/
def objectFields (source : List Char) (fields : Fields Value) :
    List (Node × List Valued) → Outcome (Option (Fields Value))
  | [] => .ok (some fields)
  | (entry, parts) :: rest =>
    if entry.kind ≠ .pair then .ok none
    else
      match entry.child? .key, valueIn? .value parts with
      | some key, some value => do
        match ← keyText source key with
        | none => return none
        | some name => objectFields source (fields.set name (← value)) rest
      | _, _ => .ok none

/-- The values of a list, in order. -/
def listValues : List Valued → Outcome (List Value)
  | [] => .ok []
  | (_, value) :: rest => do return (← value) :: (← listValues rest)

/-- The children that are constructs and no comments. -/
def solid {α : Type} (children : List (Node × α)) : List (Node × α) :=
  children.filter fun child => child.1.kind.isNamed && child.1.kind != .comment

mutual

/-- The value of a node. -/
def evaluate (source : List Char) : Node → Outcome Value
  | .mk kind role span children =>
    let node : Node := .mk kind role span children
    let raw : Value := .code (String.ofList (node.text source))
    let parts := evaluateEach source children
    match kind with
    | .parenthesized =>
      match solid parts with
      | [(_, value)] => value
      | _ => .ok raw
    | .asType | .satisfiesType =>
      match parts with
      | (_, value) :: _ => value
      | [] => .ok raw
    | .object => do
      match ← objectFields source [] (solid (evaluateEntries source children)) with
      | some fields => return .object fields
      | none => return raw
    | .array => .list <$> listValues (solid parts)
    | .string => .text <$> unquoted (node.text source)
    | .template =>
      if children.any (·.kind == .substitution) then .ok raw
      else .text <$> unquoted (node.text source)
    | .number => .ok (numberValue (node.text source))
    | .trueLiteral => .ok (.bool true)
    | .falseLiteral => .ok (.bool false)
    | .nullLiteral => .ok .null
    | .identifier =>
      .ok (if node.text source = "Infinity".toList then .real (.infinite false) else raw)
    | .unary =>
      match node.child? .operator, valueIn? .argument parts with
      | some operator, some value => do
        return signedValue (operator.text source) (← value) raw
      | _, _ => .ok raw
    | .ternary =>
      match node.child? .condition, valueIn? .consequence parts, valueIn? .alternative parts with
      | some condition, some consequence, some alternative =>
        if Text.trim (condition.text source) = "prefersReducedMotion".toList then do
          if (← consequence).isZeroDuration then return .guarded (← alternative)
          else return raw
        else .ok raw
      | _, _, _ => .ok raw
    | _ => .ok raw

/-- The nodes of a list with their values. -/
def evaluateEach (source : List Char) : List Node → List Valued
  | [] => []
  | node :: rest => (node, evaluate source node) :: evaluateEach source rest

/-- The nodes of a list with their children and the values of those. -/
def evaluateEntries (source : List Char) : List Node → List (Node × List Valued)
  | [] => []
  | .mk kind role span children :: rest =>
    (.mk kind role span children, evaluateEach source children) :: evaluateEntries source rest

end

/-- The form of the language in which single expressions are read. -/
def plainDialect : Dialect := ⟨false, true⟩

/-- The value of a text that is one expression. -/
def evaluateText (text : List Char) (parse : Parser := parse?) : Outcome Value :=
  let source := '(' :: text ++ ['\n', ')']
  match parse plainDialect source with
  | none => .error (.malformedExpression (String.ofList ((Text.trim text).take 60)))
  | some root =>
    match root.named.head?.bind fun first => first.named.head? with
    | some node => evaluate source node
    | none => .error .unfitValue

end Script

end AnimationCode
