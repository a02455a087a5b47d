/-
**Patterns, parameters and blocks.**

* `Binding.pattern`: what a variable, a parameter or a destructuring assignment binds;
* `Binding.parameters`: the parameters of a function;
* `Binding.block`: statements between braces.
-/

import AnimationCode.Script.Grammar.Typing

namespace AnimationCode

namespace Script

namespace Binding

open Reader

/-- A default value. -/
def initializer (rule : Grammar) (ends : Bool) : Reader Node := do
  signBut "=" "=>"
  rule (.expression ends)

/-- A pattern with its default value if it has one. -/
def withDefault (rule : Grammar) (kind : Kind) (target : Node) : Reader Node := do
  match ← opt (initializer rule false) with
  | some value => extend kind target [target.as .left, value]
  | none => return target

/-- The name of a property. -/
def propertyKey (rule : Grammar) : Reader Node :=
  firstOf [
    anyName .propertyName,
    lexeme .string stringLength?,
    lexeme .number numberLength?,
    construct .propertyName (sign "#" *> anyName .propertyName *> pure []),
    construct .otherExpression do
      sign "["
      let key ← rule (.expression false)
      sign "]"
      return [key]]

/-- What is left of a list or an object. -/
def restPattern (rule : Grammar) : Reader Node :=
  construct .otherPattern do
    sign "..."
    return [← rule .pattern]

/-- An entry of an object pattern. -/
def objectEntry (rule : Grammar) : Reader Node :=
  firstOf [
    restPattern rule,
    construct .pairPattern do
      let key ← propertyKey rule
      sign ":"
      let target ← rule .pattern
      let value ← withDefault rule .assignmentPattern target
      return [key.as .key, value.as .value],
    do
      let target ← name .shorthandPattern
      withDefault rule .objectAssignmentPattern target]

/-- An element of a list pattern. -/
def listEntry (rule : Grammar) : Reader Node :=
  firstOf [
    restPattern rule,
    do withDefault rule .assignmentPattern (← rule .pattern)]

/-- An object pattern. -/
def objectPattern (rule : Grammar) : Reader Node :=
  construct .otherPattern do
    sign "\x7b"
    let entries ← commaList do return [← objectEntry rule]
    sign "\x7d"
    return entries

/-- A list pattern. -/
def listPattern (rule : Grammar) : Reader Node :=
  construct .otherPattern do
    sign "["
    let entries ← commaList do return [← listEntry rule]
    sign "]"
    return entries

/-- A place that a property is kept in. -/
def place (rule : Grammar) : Reader Node := do
  guarded (← would (anyName .identifier *> (signBut "." "." <|> sign "[")))
  let target ← rule (.operand false)
  guarded (target.kind == .member || target.kind == .subscript)
  return target

/-- A pattern: a name, an object, a list, or a place that a property is kept in. -/
def pattern (rule : Grammar) : Reader Node :=
  firstOf [
    objectPattern rule,
    listPattern rule,
    place rule,
    name .identifier]

/-- A word that stands before a parameter. -/
def parameterModifier : Reader Unit := do
  let text ← nextWord
  guarded (["public", "private", "protected", "readonly", "override"].contains text)
  word text
  let after ← upcoming
  guarded (after.head?.any fun c => isNameFirst c || c == '\x7b' || c == '[')

/-- A decorator. -/
def decorator (rule : Grammar) : Reader Node :=
  construct .otherExpression do
    sign "@"
    return [← rule (.operand false)]

/-- A parameter of a function. -/
def parameter (rule : Grammar) : Reader (List Node) := do
  if ← typed then
    let decorators ← many (decorator rule)
    discard (many parameterModifier)
    let target ← firstOf [restPattern rule, rule .pattern, construct .identifier (word "this" *> pure [])]
    discard (opt (sign "?"))
    discard (opt (Typing.ascription rule))
    let value ← maybe (initializer rule false)
    return decorators ++ target :: value
  else
    firstOf [
      do return [← restPattern rule],
      do return [← withDefault rule .assignmentPattern (← rule .pattern)]]

/-- The parameters of a function. -/
def parameters (rule : Grammar) : Reader (List Node) := do
  sign "("
  let items ← opt (commaList1 (parameter rule))
  if items.isSome then discard (opt (sign ","))
  sign ")"
  return items.getD []

/-- The parameters of a function with the types around them. -/
def callSignature (rule : Grammar) : Reader (List Node) := do
  if ← typed then
    discard (opt (Typing.parameters rule))
    let items ← parameters rule
    discard (opt (Typing.ascription rule))
    return items
  else parameters rule

/-- Passes the markup comments before a statement. -/
def markupRemarks : Reader Unit :=
  discard <| many do
    blanks
    match markupRemarkLength? (← rest) with
    | some length => passRemark .markupComment length
    | none => failure

/-- Statements one after another. -/
def statements (rule : Grammar) : Reader (List Node) := do
  let items ← many (markupRemarks *> rule .statement)
  markupRemarks
  return items

/-- Statements between braces. -/
def block (rule : Grammar) : Reader Node :=
  construct .block do
    sign "\x7b"
    let items ← statements rule
    sign "\x7d"
    return items

end Binding

end Script

end AnimationCode
