/-
**Attributes in another framework.**

An attribute is kept if the target understands it, turned into what the target has for it, or dropped
with a remark.

* `Attributes.isPortable`: whether a framework understands an attribute;
* `Attributes.convert`: the motion with its attributes for the target, and what there is to remark.

A class and a selector of one class stand for each other.
-/

import AnimationCode.Convert.Phases
import AnimationCode.Value.Shown

namespace AnimationCode

namespace Attributes

open AnimationCode.Convert (limit)

/-- The attributes that only components with markup in their script understand. -/
def componentOnly : List String := [
  "layout", "layoutId", "layoutScroll", "layoutDependency", "custom", "drag", "dragConstraints",
  "dragElastic", "dragMomentum", "dragSnapToOrigin", "dragListener", "onAnimationStart",
  "onAnimationComplete", "onUpdate", "onHoverStart", "onHoverEnd", "onTap", "onTapStart",
  "onTapCancel", "onDragStart", "onDrag", "onDragEnd", "onViewportEnter", "onViewportLeave", "onPan",
  "onPanStart", "onPanEnd"]

/-- Whether a framework understands an attribute. -/
def isPortable (target : Framework) (name : String) : Bool :=
  if name.startsWith "\x7b" then false
  else match target with
    | .js => false
    | .vue => !componentOnly.contains name
    | _ => !name.startsWith "v-"

/-- What there is to remark on the options of a viewport: only whether it counts once is understood
outside of components. -/
def viewportRemarks (target : Framework) (motion : Motion) : List Remark :=
  match motion.attributes.get? "viewport" with
  | some (.object options) =>
    let extra := ((Fields.keys options).filter (· != "once")).mergeSort fun a b => decide (¬ b < a)
    if target = .react ∨ extra = [] then []
    else [limit motion "viewport" ("Viewport options " ++ ", ".intercalate extra ++
      " are not supported in " ++ target.label)]
  | _ => []

/-- A name of a class: a letter or an underscore, then word characters and hyphens. -/
def isClassName (cs : List Char) : Bool :=
  match cs with
  | c :: rest => (c.isAlpha || c == '_') && rest.all fun d => Text.isWord d || d == '-'
  | [] => false

/-- The class that a selector selects, if it selects no more than one; a final line feed is
overlooked. -/
def selectedClass? (selector : Value) : Option String :=
  match selector.text?.map String.toList with
  | some ('.' :: name) =>
    if isClassName name then some (String.ofList name)
    else if name.getLast? = some '\n' ∧ isClassName name.dropLast then
      some (String.ofList name.dropLast)
    else none
  | _ => none

/-- A motion whose selector, outside of scripts that call, is turned into a class or reported. -/
def selectorToClass (target : Framework) (motion : Motion) : Motion × List Remark :=
  match motion.attributes.get? "selector" with
  | none => (motion, [])
  | some .null => (motion, [])
  | some selector =>
    if target = .js then (motion, [])
    else
      let without := motion.attributes.erase "selector"
      match selectedClass? selector with
      | some name =>
        if motion.attributes.has "className" then (({ motion with attributes := without }), report selector)
        else ({ motion with attributes := without.set "className" (.text name) }, [])
      | none => ({ motion with attributes := without }, report selector)
where
  /-- The remark on a selector that no class stands for. -/
  report (selector : Value) : List Remark :=
    [limit motion "selector" ("Selector " ++ selector.shown ++ " has no markup equivalent")]

/-- A motion whose class, in scripts that call, is turned into a selector. -/
def classToSelector (target : Framework) (motion : Motion) : Motion :=
  if target = .js ∧ ¬ motion.attributes.has "selector" then
    match (motion.attributes.get? "className").bind Value.text? with
    | some classes =>
      match Text.words classes.toList with
      | first :: _ =>
        { motion with
          attributes := motion.attributes.set "selector" (.text (String.ofList ('.' :: first))) }
      | [] => motion
    | none => motion
  else motion

/-- Whether an attribute stays. -/
def stays (target : Framework) (name : String) : Bool :=
  name == "selector" || name == "viewport" || isPortable target name

/-- What there is to remark on the attributes that are dropped. -/
def dropRemarks (target : Framework) (motion : Motion) : List Remark :=
  (motion.attributes.keys.filter (!stays target ·)).map fun name =>
    limit motion name
      ("Attribute '" ++ name ++ "' is not portable to " ++ target.label ++ " and was dropped")

/-- A motion with the attributes that the target understands. -/
def dropOthers (target : Framework) (motion : Motion) : Motion :=
  { motion with attributes := motion.attributes.filter fun (name, _) => stays target name }

/-- A motion with its attributes for the target, and what there is to remark. -/
def convert (target : Framework) (motion : Motion) : Motion × List Remark :=
  let (classed, remarks) := selectorToClass target motion
  let selected := classToSelector target classed
  (dropOthers target selected,
    viewportRemarks target motion ++ remarks ++ dropRemarks target selected)

/-- What there is to remark on the elements inside that are not animated. -/
def markupRemarks (motion : Motion) : List Remark :=
  if motion.plainMarkup = 0 then []
  else [limit motion "markup" (toString motion.plainMarkup ++
    " non-animated child element(s) of <" ++ motion.tag ++ "> were not carried over")]

end Attributes

end AnimationCode
