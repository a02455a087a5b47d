/-
**The blocks of a single-file component.**

A component has a template, script blocks and style blocks. A source without blocks is all template.

* `Blocks.ofSource`: the blocks of a source;
* `Blocks.withoutStyles`: a source with blanks in place of its style blocks;
* `ScriptBlock.componentName?`: the name that a script block gives its component.
-/

import AnimationCode.Failure
import AnimationCode.Text.Blank
import AnimationCode.Text.LetterCase
import AnimationCode.Text.Replace
import AnimationCode.Text.Word

namespace AnimationCode

/-- A script block of a component. -/
structure ScriptBlock where
  code : List Char
  /-- The offset of the code in the source. -/
  offset : Nat
  typescript : Bool
  setup : Bool
deriving Repr, Inhabited

/-- The blocks of a component. -/
structure Blocks where
  /-- The template's content and its offset. -/
  template? : Option (List Char × Nat)
  scripts : List ScriptBlock
  /-- Whether the template stands in a block of its own. -/
  hasTemplate : Bool
deriving Repr, Inhabited

namespace Blocks

open Text (isBlank isWord stripStart?)

/-- The small letter that a letter counts as in the name of a block: the long s is an s, and an i may
lack its dot. -/
def foldCase (c : Char) : Char :=
  if c = 'ſ' then 's' else if c = 'ı' ∨ c = 'İ' then 'i' else Text.lower c

/-- What follows a beginning that is compared without regard to case. -/
def stripStartAnyCase? (start : String) (cs : List Char) : Option (List Char) :=
  stripStart? start.toList ((cs.take start.length).map foldCase ++ cs.drop start.length)

/-- The attributes of the opening tag of a block that begins here, and the text after the tag. -/
def opening? (tag : String) (cs : List Char) : Option (List Char × List Char) :=
  match stripStartAnyCase? ("<" ++ tag) cs with
  | some ('>' :: rest) => some ([], rest)
  | some (c :: rest) =>
    if isBlank c then
      let inside := rest.takeWhile (· != '>')
      match rest.drop inside.length with
      | _ :: after => some (c :: inside, after)
      | [] => none
    else none
  | _ => none

/-- The text after the closing tag of a block that begins here. -/
def closing? (tag : String) (cs : List Char) : Option (List Char) :=
  match stripStartAnyCase? ("</" ++ tag) cs with
  | some rest => stripStart? ['>'] (rest.dropWhile isBlank)
  | none => none

/-- The text before the first closing tag, and the text after the tag. -/
def untilClosing? (tag : String) : List Char → Option (List Char × List Char)
  | [] => none
  | c :: cs =>
    match closing? tag (c :: cs) with
    | some rest => some ([], rest)
    | none => (untilClosing? tag cs).map fun (inside, rest) => (c :: inside, rest)

/-- The attributes and the content of a block that begins here, and the text after the block. -/
def block? (tag : String) (cs : List Char) : Option ((List Char × List Char) × List Char) :=
  (opening? tag cs).bind fun (attributes, rest) =>
    (untilClosing? tag rest).map fun (inside, after) => ((attributes, inside), after)

/-- The source with blanks in place of its style blocks. -/
def withoutStyles (source : List Char) : List Char :=
  (Text.replaceEach (fun _ cs =>
    (block? "style" cs).map fun (_, after) =>
      (List.replicate (cs.length - after.length) ' ', after)) source).1

/-- A quoted name of the typed language after an equals sign. -/
def namesTyped (cs : List Char) : Bool :=
  match stripStart? "lang".toList cs with
  | some rest =>
    match rest.dropWhile isBlank with
    | '=' :: rest =>
      match rest.dropWhile isBlank with
      | mark :: rest =>
        (mark == '"' || mark == '\'') && ["ts", "tsx"].any fun name =>
          match stripStart? name.toList rest with
          | some (close :: _) => close == '"' || close == '\''
          | _ => false
      | [] => false
    | _ => false
  | none => false

/-- The script blocks of a source from an offset on, at most one character for every step. -/
def scriptsFrom : Nat → Nat → List Char → List ScriptBlock
  | 0, _, _ => []
  | _ + 1, _, [] => []
  | steps + 1, offset, c :: cs =>
    match opening? "script" (c :: cs) with
    | none => scriptsFrom steps (offset + 1) cs
    | some (attributes, rest) =>
      match untilClosing? "script" rest with
      | none => scriptsFrom steps (offset + 1) cs
      | some (code, after) =>
        let whole := (c :: cs).length
        { code := code, offset := offset + (whole - rest.length),
          typescript := Text.anySuffix (fun _ suffix => namesTyped suffix) none attributes,
          setup := Text.holds "setup".toList attributes } ::
        scriptsFrom steps (offset + (whole - after.length)) after

/-- The script blocks of a source. -/
def scriptBlocks (source : List Char) : List ScriptBlock := scriptsFrom source.length 0 source

/-- The first opening tag of a template: the text before it and the text after it. -/
def templateOpening? : List Char → Option (List Char × List Char)
  | [] => none
  | c :: cs =>
    match opening? "template" (c :: cs) with
    | some (_, rest) => some ([], rest)
    | none => (templateOpening? cs).map fun (before, rest) => (c :: before, rest)

/-- The text before the last closing tag of a template. -/
def untilLastClosing? : List Char → Option (List Char)
  | [] => none
  | c :: cs =>
    match untilLastClosing? cs with
    | some inside => some (c :: inside)
    | none => (closing? "template" (c :: cs)).map fun _ => []

/-- The blocks of a source. -/
def ofSource (source : List Char) : Outcome Blocks :=
  let scripts := scriptBlocks source
  match templateOpening? source with
  | none =>
    if scripts.isEmpty then .ok ⟨some (source, 0), [], false⟩ else .ok ⟨none, scripts, false⟩
  | some (before, rest) =>
    match untilLastClosing? rest with
    | some inside => .ok ⟨some (inside, source.length - rest.length), scripts, true⟩
    | none => .error (.unclosedTemplate (before.count '\n' + 1))

end Blocks

namespace ScriptBlock

open Text (isBlank isWord stripStart?)

/-- A name in quotes. -/
def quotedName? (cs : List Char) : Option (List Char) :=
  match cs with
  | mark :: rest =>
    let name := rest.takeWhile fun c => isWord c || c == '-'
    let close := (rest.drop name.length).head?
    if (mark == '\'' || mark == '"') && name != [] && (close == some '\'' || close == some '"') then
      some name
    else none
  | [] => none

/-- The value of the property `name` that is written here. -/
def nameProperty? (before : Option Char) (cs : List Char) : Option (List Char) :=
  if before.any isWord then none
  else
    match stripStart? "name".toList cs with
    | some rest =>
      match rest.dropWhile isBlank with
      | ':' :: value => quotedName? (value.dropWhile isBlank)
      | _ => none
    | none => none

/-- The first name among the properties up to the next closing brace. -/
def firstName? (before : Option Char) : List Char → Option (List Char)
  | [] => none
  | c :: cs =>
    match nameProperty? before (c :: cs) with
    | some name => some name
    | none => if c = '\x7d' then none else firstName? (some c) cs

/-- The name in an object that begins here, blanks aside. -/
def nameInObject? (cs : List Char) : Option (List Char) :=
  match cs.dropWhile isBlank with
  | '\x7b' :: rest => firstName? (some '\x7b') rest
  | _ => none

/-- The name in the options of a component that are given here. -/
def nameInOptions? (cs : List Char) : Option (List Char) :=
  (stripStart? "defineOptions(".toList cs).bind nameInObject?

/-- The name in a component that is exported here. -/
def nameInExport? (cs : List Char) : Option (List Char) :=
  match stripStart? "export".toList cs with
  | some rest =>
    if !rest.head?.any isBlank then none
    else
      match stripStart? "default".toList (rest.dropWhile isBlank) with
      | some rest =>
        let rest := rest.dropWhile isBlank
        match stripStart? "defineComponent(".toList rest with
        | some inner => (nameInObject? inner).orElse fun _ => nameInObject? rest
        | none => nameInObject? rest
      | none => none
  | none => none

/-- The first of what a function finds at the endings of a text. -/
def firstFound? (find : List Char → Option (List Char)) : List Char → Option (List Char)
  | [] => none
  | c :: cs => (find (c :: cs)).orElse fun _ => firstFound? find cs

/-- The name that a script block gives its component. -/
def componentName? (block : ScriptBlock) : Option String :=
  ((firstFound? nameInOptions? block.code).orElse fun _ =>
    firstFound? nameInExport? block.code).map String.ofList

end ScriptBlock

end AnimationCode
