/-
**Markup inside scripts.**

An element is an opening tag, its content and a closing tag, or one tag closed in itself. The names of
the two tags need not agree.

* `Markup.element`: an element or a fragment;
* `Markup.textLength?`: the extent of text between tags.
-/

import AnimationCode.Script.Token

namespace AnimationCode

namespace Script

namespace Markup

open Reader

/-- The length of a tag or attribute name, which may hold hyphens. -/
def hyphenatedLength? (cs : List Char) : Option Nat :=
  let plain := nameLength cs
  let ascii (c : Char) : Bool := c.isAlphanum || c == '_' || c == '$'
  let stem := (cs.takeWhile ascii).length
  let hyphenated :=
    if stem = 0 ∨ cs.head?.any Char.isDigit then 0
    else match cs.drop stem with
      | '-' :: rest => stem + 1 + (rest.takeWhile fun c => ascii c || c == '-').length
      | _ => 0
  let longest := max plain hyphenated
  if longest = 0 then none else some longest

/-- A name that may hold hyphens; a plain name may not be a reserved word. -/
def hyphenated (kind : Kind) : Reader Node := do
  let word ← nextWord
  let node ← lexeme kind hyphenatedLength?
  guarded (node.span.stop - node.span.start != word.length || !reservedWords.contains word)
  return node

/-- The name of a tag: a name with properties of it, or with a namespace before it. -/
def tagName : Reader Node :=
  firstOf [
    construct .propertyName (hyphenated .identifier *> sign ":" *> hyphenated .identifier *> pure []),
    construct .member do
      let base ← name .identifier
      let part := sign "." *> anyName .propertyName
      let first ← part
      let others ← many part
      return base :: first :: others,
    hyphenated .identifier]

/-- The expression between the braces of markup. -/
def container (rule : Grammar) : Reader Node :=
  construct .container do
    sign "\x7b"
    let content ← maybe <| firstOf [
      construct .otherExpression (do
        sign "..."
        return [← rule (.expression false)]),
      rule (.sequence false)]
    sign "\x7d"
    return content

/-- The value of an attribute. -/
def attributeValue (rule : Grammar) : Reader Node :=
  firstOf [
    lexeme .string markupStringLength?,
    container rule,
    rule .element]

/-- An attribute, or attributes spread from an expression. -/
def attributeNode (rule : Grammar) : Reader Node :=
  firstOf [
    container rule,
    construct .attribute do
      let title ← firstOf [
        construct .propertyName
          (hyphenated .identifier *> sign ":" *> hyphenated .identifier *> pure []),
        hyphenated .propertyName]
      let value ← maybe (sign "=" *> attributeValue rule)
      return title :: value]

/-- A tag from its angle bracket up to its end, the end not included. -/
def tagHead (rule : Grammar) : Reader (List Node) := do
  sign "<"
  match ← opt tagName with
  | none => return []
  | some title =>
    if ← typed then discard (opt (sign "<" *> rule .typing *> many (sign "," *> rule .typing) *> sign ">"))
    let attributes ← many (attributeNode rule)
    return title.as .name :: attributes

/-- Whether a character ends the text between tags. -/
def endsText (c : Char) : Bool :=
  c == '<' || c == '>' || c == '\x7b' || c == '\x7d' || c == '&'

/-- Whether the blanks and letters before a tag count as text: a line break and the blanks after it do
not. -/
def countsAsText (atLineStart : Bool) : List Char → Bool
  | [] => false
  | c :: cs =>
    if c = '\n' then countsAsText true cs
    else if atLineStart && isLineSpace c then countsAsText true cs
    else true

/-- The length of the text at the beginning of markup content, none if only line breaks are there. -/
def textLength? (cs : List Char) : Option Nat :=
  let run := cs.takeWhile fun c => !endsText c
  if countsAsText false run then some run.length else none

/-- The text between two tags, blanks included. -/
def textNode : Reader Node := do
  let text ← rest
  match textLength? text with
  | some length =>
    let first ← (fun c => some (c.offset, c) : Reader Nat)
    take length
    return .mk .markupText .plain ⟨first, first + length⟩ []
  | none => failure

/-- A markup comment between tags. -/
def contentRemark : Reader (List Node) := do
  blanks
  match markupRemarkLength? (← rest) with
  | some length =>
    passRemark .markupComment length
    return []
  | none => failure

/-- What stands between the tags of an element. -/
def content (rule : Grammar) : Reader (List Node) :=
  firstOf [
    do return [← textNode],
    contentRemark,
    do return [← lexeme .characterReference characterReferenceLength?],
    do return [← container rule],
    do
      absent (sign "</")
      return [← rule .element]]

/-- A closing tag. -/
def closingTag : Reader Node :=
  construct .closingTag do
    sign "</"
    let title ← maybe tagName
    sign ">"
    return title.map (·.as .name)

/-- An element with its content. -/
def element (rule : Grammar) : Reader Node := do
  let first ← start
  let head ← tagHead rule
  let closed ← opt (sign "/>")
  if closed.isSome then
    guarded (!head.isEmpty || (← typed))
    return .mk .selfClosingTag .plain ⟨first, ← last⟩ head
  else
    sign ">"
    let opening : Node := .mk .openingTag .openTag ⟨first, ← last⟩ head
    let inside ← manyNodes (content rule)
    let closing ← closingTag
    return .mk .element .plain ⟨first, ← last⟩ (opening :: inside ++ [closing])

end Markup

end Script

end AnimationCode
