/-
**Functions and classes.**

* `Class.function`: a function with its name, its parameters and its body;
* `Class.definition`: a class with its members.
-/

import AnimationCode.Script.Grammar.Binding

namespace AnimationCode

namespace Script

namespace Class

open Reader Binding

/-- A function from the word `function` on; a name is asked for or only allowed. -/
def function (rule : Grammar) (plain generator : Kind) (named : Bool) : Reader Node := do
  let first ← start
  discard (opt (word "async"))
  word "function"
  let star ← opt (sign "*")
  let title ← if named then (do return [(← name .identifier).as .name]) else
    (do return (← maybe (name .identifier)).map (·.as .name))
  let items ← callSignature rule
  let body ← block rule
  return .mk (if star.isSome then generator else plain) .plain ⟨first, ← last⟩
    (title ++ items ++ [body.as .body])

/-- A typed function that is announced without a body. -/
def announcedFunction (rule : Grammar) : Reader Node :=
  construct .otherStatement do
    guarded (← typed)
    discard (opt (word "async"))
    word "function"
    discard (opt (sign "*"))
    discard (name .identifier)
    let items ← callSignature rule
    semicolon false
    return items

/-- A word before the name of a member; it is the name itself when a member could end there. -/
def memberModifier (words : List String) : Reader Unit := do
  let text ← nextWord
  guarded (words.contains text)
  word text
  let after ← upcoming
  guarded !(after.head?.any fun c => "(=;\x7d:?!<,".toList.contains c)

/-- The words that say where a member belongs; the plain form of the language has one. -/
def placementWords (typed : Bool) : Reader Unit :=
  if typed then
    discard (many (memberModifier ["static", "public", "private", "protected", "readonly", "override",
      "abstract", "declare", "accessor"]))
  else discard (opt (memberModifier ["static"]))

/-- The words and the sign that say what kind of function a method is. -/
def methodMarks : Reader Unit := do
  discard (opt (memberModifier ["async"]))
  discard (opt (memberModifier ["get", "set"] <|> sign "*"))

/-- The method that a name begins, from its parameters on. -/
def methodRest (rule : Grammar) (key : Node) : Reader Node := do
  let items ← callSignature rule
  let body ← block rule
  extend .method key ([key.as .name] ++ items ++ [body.as .body])

/-- A method of an object. -/
def objectMethod (rule : Grammar) : Reader Node :=
  construct .method do
    placementWords false
    methodMarks
    let key ← propertyKey rule
    let method ← methodRest rule key
    return method.children

/-- A member of a class. -/
def member (rule : Grammar) : Reader (List Node) :=
  firstOf [
    do
      sign ";"
      return [],
    do
      word "static"
      return [← block rule],
    do
      let typed ← typed
      let decorators ← many (decorator rule)
      placementWords typed
      if typed then
        firstOf [
          do
            methodMarks
            let key ← propertyKey rule
            discard (opt (sign "?"))
            let method ← methodRest rule key
            discard (opt (sign ";"))
            return decorators ++ [method],
          do
            methodMarks
            discard (propertyKey rule)
            discard (opt (sign "?"))
            discard (callSignature rule)
            firstOf [sign ",", semicolon false]
            return decorators,
          do
            let key ← propertyKey rule
            discard (opt (signBut "?" "." <|> signBut "!" "="))
            discard (opt (Typing.ascription rule))
            let value ← maybe (initializer rule true)
            firstOf [sign ",", semicolon !value.isEmpty]
            return decorators ++ [← extend .otherStatement key (key :: value)],
          do
            Typing.indexKey rule
            firstOf [sign ",", semicolon false]
            return decorators]
      else
        firstOf [
          do
            methodMarks
            let key ← propertyKey rule
            let method ← methodRest rule key
            discard (opt (sign ";"))
            return decorators ++ [method],
          do
            let key ← propertyKey rule
            let value ← maybe (initializer rule true)
            semicolon !value.isEmpty
            return decorators ++ [← extend .otherStatement key (key :: value)]]]

/-- What a class extends and implements. -/
def heritage (rule : Grammar) : Reader (List Node) := do
  let base ← opt do
    word "extends"
    let base ← rule (.operand false)
    if ← typed then discard (opt (Typing.arguments rule))
    return base
  if ← typed then
    discard <| opt do
      word "implements"
      discard (commaList1 (Typing.anyType rule *> pure []))
  return base.toList

/-- The members of a class between braces. -/
def body (rule : Grammar) : Reader Node :=
  construct .otherStatement do
    sign "\x7b"
    let members ← manyNodes (member rule)
    sign "\x7d"
    return members

/-- A class from the word `class` on; a name is asked for or only allowed. -/
def definition (rule : Grammar) (kind : Kind) (named : Bool) : Reader Node :=
  construct kind do
    let decorators ← many (decorator rule)
    if ← typed then discard (opt (word "abstract"))
    word "class"
    let title ← if named then (do return [← name .identifier]) else
      (do
        let text ← nextWord
        if text == "extends" || text == "implements" then return [] else maybe (name .identifier))
    if ← typed then discard (opt (Typing.parameters rule))
    let bases ← heritage rule
    let members ← body rule
    return decorators ++ title.map (·.as .name) ++ bases ++ [members.as .body]

end Class

end Script

end AnimationCode
