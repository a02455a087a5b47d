/-
**Names and hooks that lose what they name.**

The script around the animated parts is not carried over to another framework, so an expression that
names something of it names nothing there, and a hook that it calls has to be written by a person.

* `References.names`: the names that an expression uses;
* `References.remarks`: what there is to remark on the expressions of an element;
* `Hooks.remarks`: what stands in for each hook in the target.

Names inside quoted text are none, and neither is a property after a point.
-/

import AnimationCode.Component.Basic
import AnimationCode.Convert.Phases
import AnimationCode.Text.Replace
import AnimationCode.Value.Printer

namespace AnimationCode

namespace References

open Text (isWord)

/-- The rest of a text after the quote that closes it; an escaped line feed closes nothing. -/
def afterQuote? (mark : Char) : List Char → Option (List Char)
  | [] => none
  | '\\' :: c :: rest => if c = '\n' then none else afterQuote? mark rest
  | '\\' :: [] => none
  | c :: rest => if c = mark then some rest else afterQuote? mark rest

/-- Finds a quoted text and leaves only its quotes. -/
def quoted : Text.Finder (List Char) := fun _ cs =>
  match cs with
  | c :: rest =>
    if c = '\'' ∨ c = '"' ∨ c = '\x60' then (afterQuote? c rest).map fun rest => (['\'', '\''], rest)
    else none
  | [] => none

/-- Finds a name that is no property. -/
def name : Text.Finder String := fun before cs =>
  match cs with
  | c :: rest =>
    if Text.isNameStart c && !before.any fun b => Text.isNamePart b || b == '.' then
      let part := rest.takeWhile Text.isNamePart
      some (String.ofList (c :: part), rest.drop part.length)
    else none
  | [] => none

/-- The names that an expression uses. -/
def names (source : String) : List String :=
  Text.findEach name (Text.replaceEach quoted source.toList).1

mutual

/-- The expressions inside a value. -/
def expressions : Value → List String
  | .code source => [source]
  | .guarded inner => expressions inner
  | .object fields => expressionsOfFields fields
  | .list items => expressionsOfItems items
  | _ => []

/-- The expressions inside the items of a list. -/
def expressionsOfItems : List Value → List String
  | [] => []
  | item :: rest => expressions item ++ expressionsOfItems rest

/-- The expressions inside the entries of an object. -/
def expressionsOfFields : List (String × Value) → List String
  | [] => []
  | (_, value) :: rest => expressions value ++ expressionsOfFields rest

end

/-- The bound names that a value uses, each once. -/
def boundNames (bindings : List String) (value : Value) : List String :=
  ((expressions value).flatMap fun source => (names source).filter bindings.contains).eraseDups

/-- The remark on one attribute or phase, if it uses a bound name. -/
def remark? (target : Framework) (bindings : List String) (motion : Motion)
    (field : String × Value) : Option Remark :=
  match boundNames bindings field.2 with
  | [] => none
  | used =>
    let verb := if used.length = 1 then "is" else "are"
    let listed := ", ".intercalate (used.map fun name => "'" ++ name ++ "'")
    some <| Convert.limit motion field.1 ("'" ++ field.1 ++ "' references " ++ listed ++ ", which " ++
      verb ++ " not carried over to " ++ target.label)

/-- What there is to remark on the expressions of an element. -/
def remarks (target : Framework) (bindings : List String) (motion : Motion) : List Remark :=
  (motion.attributes ++ motion.phases).filterMap (remark? target bindings motion)

end References

namespace Hooks

/-- What stands in for the hooks and helpers, by framework. -/
def counterparts : List (String × List (Framework × String)) := [
  ("useInView", [(.js, "inView"), (.vue, "useElementVisibility")]),
  ("useScroll", [(.js, "scroll"), (.vue, "useScroll")]),
  ("useSpring", [(.js, "spring"), (.vue, "useSpring")]),
  ("useAnimation", [(.vue, "useMotion")]),
  ("useAnimationControls", [(.vue, "useMotion")]),
  ("useAnimate", [(.js, "animate"), (.vue, "useMotion")]),
  ("useReducedMotion", [(.js, "prefersReducedMotion"), (.vue, "usePreferredReducedMotion")]),
  ("useState", [(.vue, "ref")]),
  ("useRef", [(.vue, "ref"), (.js, "element")]),
  ("useEffect", [(.vue, "onMounted")]),
  ("useMotion", [(.react, "useAnimation")]),
  ("useMotionProperties", [(.react, "useMotionValue")]),
  ("useElementVisibility", [(.react, "useInView"), (.js, "inView")]),
  ("usePreferredReducedMotion", [(.react, "useReducedMotion"), (.js, "prefersReducedMotion")]),
  ("ref", [(.react, "useRef")]),
  ("onMounted", [(.react, "useEffect")]),
  ("inView", [(.react, "useInView"), (.vue, "useElementVisibility")]),
  ("scroll", [(.react, "useScroll"), (.vue, "useScroll")]),
  ("spring", [(.react, "useSpring"), (.vue, "useSpring")]),
  ("stagger", [(.react, "staggerChildren"), (.vue, "delay")])]

/-- What stands in for a hook in a framework. -/
def counterpart? (name : String) (target : Framework) : Option String :=
  (counterparts.lookup name).bind fun entries => entries.lookup target

/-- What there is to remark on a hook. -/
def remarks (target : Framework) (hook : Hook) : List Remark :=
  match counterpart? hook.name target with
  | some counterpart => [
    .placeholder (hook.name ++ " -> " ++ counterpart),
    Convert.limitAll hook.name ("Hook '" ++ hook.name ++ "' needs a manual port to " ++ counterpart ++
      " in " ++ target.label)]
  | none => [
    .placeholder (hook.name ++ " has no " ++ target.label ++ " equivalent"),
    Convert.limitAll hook.name
      ("Hook '" ++ hook.name ++ "' has no " ++ target.label ++ " equivalent")]

end Hooks

end AnimationCode
