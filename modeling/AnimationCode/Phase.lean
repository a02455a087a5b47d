/-
**Animation phases and their spellings.**

A phase is a state that an element is animated to, its named variants, or the transition between
states. Each framework spells the phases in its own way.

* `Phase.order`: the phases in the order in which they are written;
* `Phase.read`: the phase that an attribute of a framework means;
* `Phase.spelling`: the attribute that a phase is written as.
-/

import AnimationCode.Framework

namespace AnimationCode

/-- A phase that all frameworks share. -/
inductive Phase where
  | initial | animate | exit | hover | tap | inView | drag | variants | transition
deriving DecidableEq, Repr, Inhabited

namespace Phase

/-- The name of a phase. -/
def name : Phase → String
  | initial => "initial"
  | animate => "animate"
  | exit => "exit"
  | hover => "hover"
  | tap => "tap"
  | inView => "inView"
  | drag => "drag"
  | variants => "variants"
  | transition => "transition"

/-- The phases in the order in which they are written. -/
def order : List Phase :=
  [initial, animate, exit, hover, tap, inView, drag, variants, transition]

/-- The phases that are states of an element. -/
def states : List Phase := [initial, animate, exit, hover, tap, inView, drag]

/-- The names of the phases in order. -/
def names : List String := order.map name

/-- The names of the states in order. -/
def stateNames : List String := states.map name

/-- The phase of a name. -/
def ofName? (text : String) : Option Phase := order.find? fun phase => phase.name == text

/-- The spellings of the phases as attributes in a script's markup. -/
def markupSpellings : List (String × String) := [
  ("initial", "initial"), ("animate", "animate"), ("exit", "exit"), ("hover", "whileHover"),
  ("tap", "whileTap"), ("inView", "whileInView"), ("drag", "whileDrag"),
  ("variants", "variants"), ("transition", "transition")]

/-- The spellings of the phases as bindings of a directive. -/
def directiveSpellings : List (String × String) := [
  ("initial", "initial"), ("animate", "enter"), ("exit", "leave"), ("hover", "hovered"),
  ("tap", "tapped"), ("inView", "visible-once"), ("variants", "variants")]

/-- The spellings of the phases as properties of a template's motion component. -/
def componentSpellings : List (String × String) := [
  ("initial", "initial"), ("animate", "animate"), ("exit", "exit"), ("hover", "while-hover"),
  ("tap", "while-press"), ("inView", "while-in-view"), ("drag", "while-drag"),
  ("variants", "variants"), ("transition", "transition")]

/-- The phases that the bindings of a template mean. -/
def templateReadings : List (String × String) := [
  ("initial", "initial"), ("enter", "animate"), ("animate", "animate"), ("leave", "exit"),
  ("exit", "exit"), ("hovered", "hover"), ("whileHover", "hover"), ("while-hover", "hover"),
  ("tapped", "tap"), ("whileTap", "tap"), ("while-tap", "tap"), ("whilePress", "tap"),
  ("while-press", "tap"), ("visible", "inView"), ("visible-once", "inView"),
  ("visibleOnce", "inView"), ("whileInView", "inView"), ("while-in-view", "inView"),
  ("whileDrag", "drag"), ("while-drag", "drag"), ("variants", "variants"),
  ("transition", "transition")]

/-- How a phase is written: as an attribute in a script's markup, as a binding of a directive, or as a
property of a template's motion component. -/
inductive Style where
  | markup | directive | component
deriving DecidableEq, Repr, Inhabited

/-- The spellings of a style. -/
def Style.spellings : Style → List (String × String)
  | .markup => markupSpellings
  | .directive => directiveSpellings
  | .component => componentSpellings

/-- The attribute that a phase is written as; an unknown phase keeps its name. -/
def spelling (phase : String) (style : Style) : String :=
  (style.spellings.lookup phase).getD phase

open Text (isWord stripStart?)

/-- An attribute in a script's markup that can only be a phase. -/
def isMarkupPhase (cs : List Char) : Bool :=
  match stripStart? "while".toList cs with
  | some (c :: rest) => c.isUpper && rest.all isWord
  | _ => false

/-- A binding of a template that can only be a phase. -/
def isTemplatePhase (cs : List Char) : Bool :=
  (match stripStart? "while".toList cs with
    | some (c :: rest) => (c.isUpper || c == '-') && rest.all isWord
    | _ => false) ||
  cs == "focused".toList ||
  match stripStart? "while-".toList cs with
  | some (c :: rest) => c.isLower && rest.all fun d => isWord d || d == '-'
  | _ => false

/-- What an attribute means. -/
inductive Reading where
  /-- A phase that the framework spells so. -/
  | known (phase : String)
  /-- A phase that no framework here knows, under its own name. -/
  | unknown (phase : String)
  /-- No phase. -/
  | none
deriving DecidableEq, Repr, Inhabited

/-- What an attribute of a script's markup means. -/
def readMarkup (attribute_ : String) : Reading :=
  match markupSpellings.find? fun entry => entry.2 == attribute_ with
  | some (phase, _) => .known phase
  | Option.none => if Text.isLineOf isMarkupPhase attribute_.toList then .unknown attribute_ else .none

/-- What a binding of a template means. -/
def readTemplate (attribute_ : String) : Reading :=
  match templateReadings.lookup attribute_ with
  | some phase => .known phase
  | Option.none =>
    if Text.isLineOf isTemplatePhase attribute_.toList then .unknown attribute_ else .none

/-- The spelling of an unknown phase in a framework, if it has one. -/
def respelling? (phase : String) (target : Framework) : Option String :=
  if phase = "whileFocus" ∨ phase = "focused" then
    match target with
    | .react => some "whileFocus"
    | .vue => some "focused"
    | _ => Option.none
  else Option.none

end Phase

end AnimationCode
