/-
**Frameworks.**

Animated code is written for one of three frameworks: components with markup in their script,
single-file components with a template, and scripts that call the animation functions themselves.

* `Framework.ofName?`: the framework that a name or one of its by-names means;
* `Framework.infer`: the framework that a source looks like.
-/

import AnimationCode.Text.Blank
import AnimationCode.Text.LetterCase
import AnimationCode.Text.Word

namespace AnimationCode

/-- A framework; one that is none of the three is only a name. -/
inductive Framework where
  | react | vue | js
  | other (name : String)
deriving DecidableEq, Repr, Inhabited

namespace Framework

/-- The name of a framework. -/
def label : Framework → String
  | react => "react"
  | vue => "vue"
  | js => "js"
  | other name => name

/-- The framework of an exact name. -/
def named (name : String) : Framework :=
  match name with
  | "react" => react
  | "vue" => vue
  | "js" => js
  | _ => other name

/-- The names and by-names of the frameworks. -/
def aliases : List (String × Framework) := [
  ("react", react), ("component-declarative", react), ("jsx", react), ("framer-motion", react),
  ("vue", vue), ("template-directive", vue), ("sfc", vue),
  ("js", js), ("imperative-dom", js), ("javascript", js), ("dom", js), ("vanilla", js)]

/-- The framework that a name or a by-name means, blanks around it and case aside. -/
def ofName? (name : String) : Option Framework :=
  aliases.lookup (Text.lowerText (String.ofList (Text.trim name.toList)))

/-! ### Inference -/

open Text (isBlank isWord startsWith stripStart?)

/-- A character of a tag's name after its first. -/
def isTagRest (c : Char) : Bool := isWord c || c == '.' || c == '-'

/-- What follows the name of a tag that begins a text, if a blank follows it first. -/
def afterTagName? : List Char → Option (List Char)
  | '<' :: c :: cs =>
    let rest := cs.dropWhile isTagRest
    if c.isAlpha && rest.head?.any isBlank then some rest else none
  | _ => none

/-- The part of a text before the next angle bracket. -/
def insideTag (cs : List Char) : List Char := cs.takeWhile fun c => c != '<' && c != '>'

/-- The directives of templates, without their first two characters. -/
def directives : List String :=
  ["motion", "if", "else", "for", "show", "bind", "on", "model", "html", "text"]

/-- Whether a directive begins here. -/
def isDirective (before : Option Char) (cs : List Char) : Bool :=
  !before.any isWord && directives.any fun name =>
    match stripStart? ("v-" ++ name).toList cs with
    | some rest => !rest.head?.any isWord
    | none => false

/-- Whether a blank and then a bound attribute begin here. -/
def isBoundAttribute (cs : List Char) : Bool :=
  match cs with
  | blank :: sign :: rest =>
    isBlank blank && (sign == ':' || sign == '@') && rest.head?.any isTagRest &&
      match (rest.dropWhile isTagRest).dropWhile isBlank with
      | '=' :: value => (value.dropWhile isBlank).head? == some '"'
      | _ => false
  | _ => false

/-- Whether a template begins here: its tag, a directive in a tag, or a bound attribute. -/
def templateHere (cs : List Char) : Bool :=
  (match stripStart? "<template".toList cs with
    | some (c :: _) => isBlank c || c == '>'
    | _ => false) ||
  match afterTagName? cs with
  | some rest =>
    let inside := insideTag rest
    Text.anySuffix isDirective none inside ||
      Text.anySuffix (fun _ suffix => isBoundAttribute suffix) none inside
  | none => false

/-- A letter or the end of an opening bracket. -/
def beginsTag (cs : List Char) : Bool :=
  match cs with
  | '<' :: c :: _ => c.isAlpha || c == '>'
  | _ => false

/-- Whether a closing tag, or a tag closed in itself without attributes, is here. -/
def plainTagHere (cs : List Char) : Bool :=
  let dotted (c : Char) : Bool := isWord c || c == '.'
  match cs with
  | '<' :: '/' :: c :: rest => c.isAlpha && (rest.dropWhile dotted).head? == some '>'
  | '<' :: c :: rest =>
    c.isAlpha && startsWith "/>".toList ((rest.dropWhile dotted).dropWhile isBlank)
  | _ => false

/-- Whether markup is returned here. -/
def returnHere (before : Option Char) (cs : List Char) : Bool :=
  !before.any isWord &&
    match stripStart? "return".toList cs with
    | some rest =>
      let rest := rest.dropWhile isBlank
      let rest := match rest with
        | '(' :: inner => inner.dropWhile isBlank
        | _ => rest
      beginsTag rest
    | none => false

/-- Whether the library of components is imported here. -/
def importHere (cs : List Char) : Bool :=
  match stripStart? "from".toList cs with
  | some rest =>
    rest.head?.any isBlank &&
      match rest.dropWhile isBlank with
      | mark :: source =>
        (mark == '\'' || mark == '"') &&
          ["react", "framer-motion", "motion/react"].any fun name =>
            match stripStart? name.toList source with
            | some (close :: _) => close == '\'' || close == '"'
            | _ => false
      | [] => false
  | none => false

/-- Whether a line begins here with a tag, blanks and blank lines aside. -/
def lineTagHere (before : Option Char) (cs : List Char) : Bool :=
  (before == none || before == some '\n') &&
    match cs.dropWhile isBlank with
    | '<' :: c :: _ => c.isAlpha
    | _ => false

/-- Whether markup in a script is here. -/
def markupHere (before : Option Char) (cs : List Char) : Bool :=
  (match stripStart? "<motion.".toList cs with
    | some (c :: _) => c.isAlpha
    | _ => false) ||
  returnHere before cs || plainTagHere cs || importHere cs || lineTagHere before cs

/-- The framework that a source looks like. -/
def infer (code : String) : Framework :=
  let cs := code.toList
  if Text.anySuffix (fun _ suffix => templateHere suffix) none cs then vue
  else if Text.anySuffix markupHere none cs then react
  else js

end Framework

end AnimationCode
