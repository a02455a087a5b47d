/-
**Editing the imports of a text.**

* `Imports.split`: the block of imports that a text begins with, and the rest;
* `Imports.unused`: the bound names that the rest of the text does not use;
* `Imports.trim`: the text without some names, with some lines put in order;
* `Imports.add`: the text with one more name imported.
-/

import AnimationCode.Import.Line
import AnimationCode.Text.LetterCase

namespace AnimationCode

namespace Imports

open ImportLine (readAll localName)

/-- The part of a text between two offsets. -/
def slice (text : List Char) (start stop : Nat) : List Char := (text.take stop).drop start

/-- The end of the leading lines that only blanks stand between. -/
def leadingEnd (text : List Char) (stop : Nat) : List ImportLine → Nat
  | [] => stop
  | line :: rest =>
    if Text.isBlankText (slice text stop line.start) then leadingEnd text line.stop rest else stop

/-- The imports that a text begins with, and what follows them. -/
def split (text : List Char) : List Char × List Char :=
  match readAll text with
  | [] => ([], text)
  | first :: rest =>
    if Text.isBlankText (text.take first.start) then
      let stop := leadingEnd text 0 (first :: rest)
      (Text.dropLeading '\n' (Text.dropTrailing '\n' (text.take stop)),
        Text.dropLeading '\n' (text.drop stop))
    else ([], text)

/-- Whether a text uses a name: whole, and not as a property after a point. -/
def uses (text name : List Char) : Bool :=
  Text.anySuffix (fun before suffix =>
    !before.any (fun c => Text.isWord c || c == '$' || c == '.') &&
      match Text.stripStart? name suffix with
      | some rest => !rest.head?.any fun c => Text.isWord c || c == '$'
      | none => false) none text

/-- The text without some intervals, given in order. -/
def without (text : List Char) (lines : List ImportLine) : List Char :=
  lines.foldr (fun line text => text.take line.start ++ text.drop line.stop) text

/-- The names that a line binds: those between braces, then its default unless it is a namespace. -/
def boundNames (line : ImportLine) : List String :=
  line.named.map localName ++
    match line.default? with
    | some name => if name.startsWith "*" then [] else [name]
    | none => []

/-- The bound names that the text outside its import lines does not use. Of lines from other sources
than the given ones nothing is said. -/
def unused (text : List Char) (sources : Option (List String)) : List String :=
  let lines := readAll text
  let body := without text lines
  lines.flatMap fun line =>
    if sources.all (·.contains line.source) then
      (boundNames line).filter fun name => !uses body name.toList
    else []

/-- Specifiers without repetitions, in the order of the names that they bind, case aside. -/
def tidy (specifiers : List String) : List String :=
  let key (s : String) : String := Text.lowerText (localName s)
  specifiers.eraseDups.mergeSort fun a b => decide (¬ key b < key a)

/-- A text with one of its import lines freed of some names and put in order. -/
def trimLine (remove : List String) (tidySources : Option (List String)) (line : ImportLine)
    (text : List Char) : List Char :=
  if line.named.isEmpty && line.default?.isNone then text
  else
    let named := line.named.filter fun s => !remove.contains (localName s)
    let default? := line.default?.filter fun name => !remove.contains name
    let named := if tidySources.any (·.contains line.source) then tidy named else named
    if named.isEmpty && default?.isNone then
      let stop := if (text.drop line.stop).head? = some '\n' then line.stop + 1 else line.stop
      text.take line.start ++ text.drop stop
    else
      let indent := (slice text line.start line.stop).takeWhile Text.isBlank
      let updated : ImportLine := { line with named := named, default? := default? }
      text.take line.start ++ indent ++ updated.render.toList ++ text.drop line.stop

/-- The text without the names to remove; the lines from the sources to tidy have their names in
order. -/
def trim (text : List Char) (remove : List String) (tidySources : Option (List String)) :
    List Char :=
  (readAll text).foldr (trimLine remove tidySources) text

/-- The text with a name imported from a source, on the line that imports from it if there is one. -/
def add (text : List Char) (source name : String) : List Char :=
  let lines := readAll text
  match lines.find? fun line =>
      line.source == source && !line.typeOnly && (!line.named.isEmpty || line.default?.isSome) with
  | some line =>
    if (line.named.map localName).contains name || line.default? == some name then text
    else
      let updated : ImportLine := { line with named := line.named ++ [name] }
      text.take line.start ++ updated.render.toList ++ text.drop line.stop
  | none =>
    let new := ("import \x7b " ++ name ++ " \x7d from '" ++ source ++ "';").toList
    match lines.getLast? with
    | some last => text.take last.stop ++ '\n' :: new ++ text.drop last.stop
    | none =>
      new ++ '\n' :: (if text.head? = some '\n' then [] else ['\n']) ++ text

end Imports

end AnimationCode
