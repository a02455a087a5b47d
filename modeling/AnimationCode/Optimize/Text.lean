/-
**Optimizations of the text of generated code.**

These passes look at the text alone.

* performance: positions in pixels become shifts, and animated sizes are reported;
* accessibility: what repeats without end stops when reduced motion is preferred;
* bundle size: imports that nothing uses are removed, the others are put in order.

`optimizeText` applies those that are asked for, in this order.
-/

import AnimationCode.Context
import AnimationCode.Import.Edit
import AnimationCode.Import.Record
import AnimationCode.ReducedMotion
import AnimationCode.Text.Replace

namespace AnimationCode

namespace TextPass

open Text (isBlank isWord isDecimalDigit stripStart?)

/-- The colon after a property with the blanks around it, and the text after it. -/
def colon? (cs : List Char) : Option (List Char × List Char) :=
  let before := cs.takeWhile isBlank
  match cs.drop before.length with
  | ':' :: rest =>
    let after := rest.takeWhile isBlank
    some (before ++ ':' :: after, rest.drop after.length)
  | _ => none

/-- The number at the beginning of a text, and the text after it. -/
def number? (cs : List Char) : Option (List Char × List Char) :=
  let (sign, rest) := match cs with
    | '-' :: rest => (['-'], rest)
    | rest => ([], rest)
  let whole := rest.takeWhile isDecimalDigit
  let rest := rest.drop whole.length
  if whole = [] then none
  else match rest with
    | '.' :: more =>
      let fraction := more.takeWhile isDecimalDigit
      if fraction = [] then some (sign ++ whole, rest)
      else some (sign ++ whole ++ '.' :: fraction, more.drop fraction.length)
    | _ => some (sign ++ whole, rest)

/-- A number of pixels, bare or quoted with its unit, and the text after it. -/
def pixels? (cs : List Char) : Option (List Char × List Char) :=
  match cs with
  | [] => none
  | c :: rest =>
    if c = '\'' ∨ c = '"' then
      match number? rest with
      | some (number, rest) => (stripStart? ['p', 'x', c] rest).map fun rest => (number, rest)
      | none => none
    else
      match number? cs with
      | some (number, rest) =>
        if rest.head?.any fun c => isWord c || c == '.' || c == '%' then none
        else some (number, rest)
      | none => none

/-- Whether a property may begin after a character. -/
def propertyStart (before : Option Char) : Bool :=
  !before.any fun c => isWord c || c == '$' || c == '.' || c == '-'

/-- The positions and the shifts that they become. -/
def shifts : List (String × String) := [("top", "y"), ("left", "x")]

/-- The shift for a position that is written here. -/
def position : Text.Finder (List Char) := fun before cs =>
  if !propertyStart before then none
  else shifts.findSome? fun (property, shift) =>
    (stripStart? property.toList cs).bind fun rest =>
      (colon? rest).bind fun (between, rest) =>
        (pixels? rest).map fun (number, rest) => (shift.toList ++ between ++ number, rest)

/-- The sizes and the scales that would do instead. -/
def scales : List (String × String) := [("width", "scaleX"), ("height", "scaleY")]

/-- A size that is written here. -/
def size : Text.Finder String := fun before cs =>
  if !propertyStart before then none
  else scales.findSome? fun (property, _) =>
    (stripStart? property.toList cs).bind fun rest =>
      match rest.dropWhile isBlank with
      | ':' :: after => some (property, after)
      | _ => none

/-- A repetition without end that stops for reduced motion. -/
def repetition : Text.Finder (List Char) := fun before cs =>
  if before.any fun c => isWord c || c == '$' || c == '.' then none
  else
    (stripStart? "repeat".toList cs).bind fun rest =>
      (colon? rest).bind fun (between, rest) =>
        (stripStart? "Infinity".toList rest).bind fun rest =>
          if rest.head?.any isWord then none
          else some ("repeat".toList ++ between ++ "prefersReducedMotion ? 0 : Infinity".toList, rest)

/-- The advice to scale instead of animating a size. -/
def scaleAdvice (property scale : String) : String :=
  "Animate transform: " ++ scale ++ " instead of " ++ property ++ " to avoid layout on every frame"

/-- Positions become shifts; sizes are reported. -/
def performance (code : List Char) : List Char × List String :=
  let (code, count) := Text.replaceEach position code
  let sizes := (Text.findEach size code).eraseDups
  (code,
    (if count = 0 then [] else ["Replaced top/left animation with transform: x/y"]) ++
      sizes.map fun property => scaleAdvice property ((scales.lookup property).getD ""))

/-- Repetitions without end stop for reduced motion. -/
def accessibility (code : List Char) (framework : Framework) (typescript : Bool) :
    List Char × List String :=
  let (code, count) := Text.replaceEach repetition code
  if count = 0 then (code, [])
  else (ReducedMotion.ensure code framework typescript,
    ["Infinite repeat now stops when the user prefers reduced motion"])

/-- Unused imports are removed, the others put in order. -/
def bundleSize (code : List Char) : List Char × List String :=
  let sources := (ImportLine.readAll code).map (·.source)
  let unused := Imports.unused code (some (motionSources ++ ["react", "vue"]))
  (Imports.trim code unused (some sources),
    unused.map fun name => "Removed unused import " ++ name)

end TextPass

/-- The text with the asked passes applied, and what they have to say. -/
def optimizeText (code : List Char) (framework : Framework) (typescript : Bool) (focus : Focus) :
    List Char × List String :=
  let (code, said) := if focus.performance then TextPass.performance code else (code, [])
  let (code, said') :=
    if focus.accessibility then TextPass.accessibility code framework typescript else (code, [])
  let (code, said'') := if focus.bundleSize then TextPass.bundleSize code else (code, [])
  (code, said ++ said' ++ said'')

end AnimationCode
