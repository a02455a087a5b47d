/-
**Tags and texts of a template, and its tree.**

A template is a sequence of tags with texts between them; comments are passed over, and what looks like
a tag but is none is text. A closing tag closes the innermost open one, case aside; tags that close
themselves and tags without content are never open.

* `Template.tag?`: the tag that begins a text;
* `Template.pieces`: the texts and tags of a template in order, with their offsets;
* `Template.build`: the tree of the pieces of a template;
* `Template.scan`: the tree of a template.
-/

import AnimationCode.Failure
import AnimationCode.Text.Blank
import AnimationCode.Text.LetterCase
import AnimationCode.Text.Word

namespace AnimationCode

namespace Template

open Text (isBlank isWord stripStart?)

/-- An attribute with its value as it is written, quotes aside. -/
abbrev Attribute := String × Option String

/-- A tag. -/
inductive Tag where
  | opening (name : String) (attributes : List Attribute) (selfClosing : Bool)
  | closing (name : String)
deriving DecidableEq, Repr, Inhabited

/-- A text, or a tag with its interval. -/
inductive Piece where
  | text (content : String)
  | tag (tag : Tag) (start stop : Nat)
deriving DecidableEq, Repr, Inhabited

/-- A character inside the name of a tag. -/
def isTagPart (c : Char) : Bool := isWord c || c == '.' || c == ':' || c == '-'

/-- A character of the name of an attribute. -/
def isAttributePart (c : Char) : Bool :=
  !(isBlank c || c == '=' || c == '>' || c == '/' || c == '"' || c == '\'')

/-- A character of a value without quotes. -/
def isBarePart (c : Char) : Bool := !(isBlank c || c == '>' || c == '"' || c == '\'')

/-- The value at the beginning of a text, and what follows it. -/
def value? (cs : List Char) : Option (List Char × List Char) :=
  match cs with
  | [] => none
  | c :: rest =>
    if c = '"' ∨ c = '\'' then
      let inside := rest.takeWhile (· != c)
      match rest.drop inside.length with
      | _ :: after => some (inside, after)
      | [] => none
    else
      let bare := cs.takeWhile isBarePart
      if bare = [] then none else some (bare, cs.drop bare.length)

/-- The value after an equals sign, if one follows. An equals sign without a value is a fault. -/
def assigned? (cs : List Char) : Option (Option (List Char) × List Char) :=
  match cs.dropWhile isBlank with
  | '=' :: rest =>
    (value? (rest.dropWhile isBlank)).map fun (value, after) => (some value, after)
  | _ => some (none, cs)

/-- The attributes of a tag from the end of its name on, and what follows them; each takes at least a
step. -/
def attributes? : Nat → List Char → Option (List Attribute × List Char)
  | 0, cs => some ([], cs)
  | steps + 1, cs =>
    let next := cs.dropWhile isBlank
    let name := next.takeWhile isAttributePart
    if !cs.head?.any isBlank || name == [] then some ([], cs)
    else
      (assigned? (next.drop name.length)).bind fun (value, rest) =>
        (attributes? steps rest).map fun (others, rest) =>
          ((String.ofList name, value.map String.ofList) :: others, rest)

/-- The end of a tag: whether it closes itself, and what follows it. -/
def tagEnd? (cs : List Char) : Option (Bool × List Char) :=
  match cs.dropWhile isBlank with
  | '>' :: rest => some (false, rest)
  | '/' :: '>' :: rest => some (true, rest)
  | _ => none

/-- The tag at the beginning of a text, and what follows it. -/
def tag? (cs : List Char) : Option (Tag × List Char) :=
  match cs with
  | '<' :: rest =>
    let (closing, rest) := match rest with
      | '/' :: more => (true, more)
      | more => (false, more)
    if !rest.head?.any Char.isAlpha then none
    else
      let name := rest.takeWhile isTagPart
      (attributes? rest.length (rest.drop name.length)).bind fun (attributes, rest) =>
        (tagEnd? rest).map fun (selfClosing, rest) =>
          (if closing then .closing (String.ofList name)
            else .opening (String.ofList name) attributes selfClosing, rest)
  | _ => none

/-- What follows the comment at the beginning of a text. -/
def comment? (cs : List Char) : Option (List Char) :=
  (stripStart? "<!--".toList cs).bind fun rest =>
    (Text.cut? "-->".toList rest).map fun (_, after) => after

/-- The pieces of a template from an offset on, given the text that ends there; at most one character
for every step. -/
def piecesFrom (pending : List Char) : Nat → Nat → List Char → List Piece
  | 0, _, cs => [.text (String.ofList (pending.reverse ++ cs))]
  | _ + 1, _, [] => [.text (String.ofList pending.reverse)]
  | steps + 1, offset, c :: cs =>
    match comment? (c :: cs) with
    | some rest =>
      .text (String.ofList pending.reverse) ::
        piecesFrom [] steps (offset + ((c :: cs).length - rest.length)) rest
    | none =>
      match tag? (c :: cs) with
      | some (tag, rest) =>
        let stop := offset + ((c :: cs).length - rest.length)
        .text (String.ofList pending.reverse) :: .tag tag offset stop ::
          piecesFrom [] steps stop rest
      | none => piecesFrom (c :: pending) steps (offset + 1) cs

/-- The texts and tags of a template that begins at an offset. -/
def pieces (offset : Nat) (markup : List Char) : List Piece :=
  piecesFrom [] markup.length offset markup

end Template

/-- An element of a template with its interval in the source. -/
structure TemplateNode where
  tag : String
  attributes : List Template.Attribute
  /-- The interval of the opening tag. -/
  start : Nat
  stop : Nat
  /-- The texts between the tags directly inside it. -/
  texts : List String
  children : List TemplateNode
deriving Repr, Inhabited

namespace Template

/-- The tags that never have content. -/
def voidTags : List String :=
  ["area", "base", "br", "col", "embed", "hr", "img", "input", "link", "meta", "source", "track",
    "wbr"]

/-- Whether an opening tag leaves its element open. -/
def staysOpen (name : String) (selfClosing : Bool) : Bool :=
  !selfClosing && !voidTags.contains (Text.lowerText name)

/-- Whether two tag names agree, case aside. -/
def sameTag (a b : String) : Bool := Text.lowerText a == Text.lowerText b

/-- An element whose content is still being read, its children with the latest first. -/
structure OpenNode where
  tag : String
  attributes : List Attribute
  start : Nat
  stop : Nat
  texts : List String
  children : List TemplateNode
deriving Repr, Inhabited

namespace OpenNode

/-- The element with all that was read. -/
def close (node : OpenNode) : TemplateNode :=
  ⟨node.tag, node.attributes, node.start, node.stop, node.texts.reverse, node.children.reverse⟩

/-- The element with one more text. -/
def addText (node : OpenNode) (text : String) : OpenNode :=
  { node with texts := text :: node.texts }

/-- The element with one more child. -/
def addChild (node : OpenNode) (child : TemplateNode) : OpenNode :=
  { node with children := child :: node.children }

end OpenNode

/-- The tree of the pieces that follow, given the innermost open element and those around it, the
nearest first. -/
def build (index : LineIndex) (inner : OpenNode) (outer : List OpenNode) :
    List Piece → Outcome TemplateNode
  | [] =>
    match outer with
    | [] => .ok inner.close
    | _ :: _ => .error (.unclosedTag inner.tag (index.location inner.start))
  | .text content :: rest => build index (inner.addText content) outer rest
  | .tag (.opening name attributes selfClosing) start stop :: rest =>
    let node : OpenNode := ⟨name, attributes, start, stop, [], []⟩
    if staysOpen name selfClosing then build index node (inner :: outer) rest
    else build index (inner.addChild node.close) outer rest
  | .tag (.closing name) start _ :: rest =>
    match outer with
    | [] => .error (.unexpectedClosingTag name (index.location start))
    | next :: others =>
      if sameTag inner.tag name then build index (next.addChild inner.close) others rest
      else .error (.unexpectedClosingTag name (index.location start))

/-- The tree of a template that begins at an offset of a source. -/
def scan (markup : List Char) (offset : Nat) (source : List Char) : Outcome TemplateNode :=
  build (LineIndex.ofText source) ⟨"#root", [], offset, offset, [], []⟩ [] (pieces offset markup)

end Template

end AnimationCode
