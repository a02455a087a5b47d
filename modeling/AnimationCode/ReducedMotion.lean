/-
**The declaration of the wish for reduced motion.**

Guarded values ask a variable whether the reader prefers reduced motion. The text that holds them has to
declare it once.

* `ReducedMotion.isDeclared`: whether a text declares it;
* `ReducedMotion.ensure`: the text with the declaration after its imports, or in its setup block.
-/

import AnimationCode.Framework
import AnimationCode.Import.Line
import AnimationCode.Template.Block

namespace AnimationCode

namespace ReducedMotion

/-- The declaration. -/
def declaration : String :=
  "const prefersReducedMotion = typeof window !== 'undefined' && " ++
    "window.matchMedia('(prefers-reduced-motion: reduce)').matches;"

/-- The declaration with its type. -/
def typedDeclaration : String :=
  "const prefersReducedMotion: boolean = typeof window !== 'undefined' && " ++
    "window.matchMedia('(prefers-reduced-motion: reduce)').matches;"

open Text (isBlank isWord stripStart?)

/-- The text after a type that stands between a name and its value. -/
def afterType (cs : List Char) : Option (List Char) :=
  match cs with
  | ':' :: rest =>
    let rest := rest.dropWhile isBlank
    if rest.head?.any isWord then some ((rest.dropWhile isWord).dropWhile isBlank) else none
  | _ => some cs

/-- Whether the variable is given its value here. -/
def declaredHere (before : Option Char) (cs : List Char) : Bool :=
  !before.any isWord &&
    match stripStart? "prefersReducedMotion".toList cs with
    | some rest =>
      match afterType (rest.dropWhile isBlank) with
      | some ('=' :: after) => after.head? != some '='
      | _ => false
    | none => false

/-- Whether a text declares the variable. -/
def isDeclared (code : List Char) : Bool := Text.anySuffix declaredHere none code

/-- A text with a block after its imports, or at its top. -/
def afterImports (text block : List Char) : List Char :=
  match (ImportLine.readAll text).getLast? with
  | some last => text.take last.stop ++ '\n' :: '\n' :: block ++ text.drop last.stop
  | none =>
    let lead := (text.takeWhile (· == '\n')).length
    text.take lead ++ block ++ '\n' :: '\n' :: text.drop lead

/-- The text after the tag of a setup block that begins here. -/
def setupHere (cs : List Char) : Option (List Char) :=
  match Blocks.stripStartAnyCase? "<script" cs with
  | none => none
  | some rest =>
    let inside := rest.takeWhile (· != '>')
    let setup := Text.anySuffix (fun before suffix =>
      !before.any isWord &&
        match stripStart? "setup".toList (suffix.map Blocks.foldCase) with
        | some after => !after.head?.any isWord
        | none => false) (some 't') inside
    match rest.drop inside.length with
    | _ :: after => if !rest.head?.any isWord && setup then some after else none
    | [] => none

/-- The text up to and with the tag of its first setup block, and the text after the tag. -/
def setupBlock? : List Char → Option (List Char × List Char)
  | [] => none
  | c :: cs =>
    match setupHere (c :: cs) with
    | some rest => some ((c :: cs).take ((c :: cs).length - rest.length), rest)
    | none => (setupBlock? cs).map fun (before, rest) => (c :: before, rest)

/-- A component's text with the declaration in its setup block, or in a new one at its end. -/
def ensureInComponent (code : List Char) (typescript : Bool) : List Char :=
  let line := (if typescript then typedDeclaration else declaration).toList
  match setupBlock? code with
  | none =>
    let lang := if typescript then " lang=\"ts\"" else ""
    Text.dropTrailing '\n' code ++
      ("\n\n<script setup" ++ lang ++ ">\n").toList ++ line ++ "\n</script>\n".toList
  | some (before, rest) =>
    let close := "</script>".toList
    let body := match Text.cut? close rest with
      | some (body, _) => body
      | none => rest
    let trimmed := Text.dropLeading '\n' (Text.dropTrailing '\n' body)
    before ++ '\n' :: afterImports trimmed line ++ '\n' :: rest.drop body.length

/-- The text with the declaration, as it was if it has one. -/
def ensure (code : List Char) (framework : Framework) (typescript : Bool) : List Char :=
  if isDeclared code then code
  else if framework = .vue then ensureInComponent code typescript
  else afterImports code declaration.toList

end ReducedMotion

end AnimationCode
