/-
**Animations one after another.**

A sequence is a list of steps. Each step waits for its own delay; staggered steps also wait for their
place in the list, and the steps of a timeline for the ends of those before.

* `SequenceStep.read`: a step from data, or every fault of the data;
* `Sequence.delays`: when the steps begin;
* `SequenceStep.element`: the element that a step animates.
-/

import AnimationCode.Element.States
import AnimationCode.Record.Reading

namespace AnimationCode

/-- One step of a sequence. -/
structure SequenceStep where
  /-- A tag, a class or another selector. -/
  element : String
  animate : Fields Value
  initial? : Option (Fields Value)
  /-- Its own delay in seconds. -/
  delay : Binary64
  duration? : Option Binary64
  easing? : Option String
deriving Repr, Inhabited

namespace SequenceStep

open Record (optional nullable object nonNegative text)

/-- A step from data. -/
def read (value : Value) : Checked SequenceStep := do
  let fields ← Record.record value
  (optional fields "element" "div" text).map SequenceStep.mk
    |>.apply (optional fields "animate" [("opacity", .int 1)] object)
    |>.apply (optional fields "initial" none (nullable object))
    |>.apply (optional fields "delay" (Binary64.zero false) nonNegative)
    |>.apply (optional fields "duration" none (nullable nonNegative))
    |>.apply (optional fields "easing" none (nullable text))

/-- The steps of a list, or the faults of the first that is none. -/
def readAll : List Value → Outcome (List SequenceStep)
  | [] => .ok []
  | value :: rest =>
    match read value with
    | .ok step => do return step :: (← readAll rest)
    | .error faults => .error (.invalidStep faults)

end SequenceStep

namespace Sequence

/-- How the steps of a sequence wait for one another. -/
structure Pace where
  /-- The seconds between the beginnings of neighbours, if the steps are staggered. -/
  interval? : Option Quantity
  /-- Whether each step waits for the end of the one before. -/
  timeline : Bool
deriving DecidableEq, Repr, Inhabited

/-- The seconds that a step waits for its place. -/
def Pace.wait (pace : Pace) (place : Nat) : Outcome Binary64 :=
  match pace.interval? with
  | none => .ok (Binary64.zero false)
  | some interval =>
    match ((Quantity.whole place).mul? interval).bind Quantity.toBinary64? with
    | some wait => .ok wait
    | none => .error .numberTooLarge

/-- The seconds at which steps begin, from a place on; `elapsed` are the seconds of the steps before. -/
def delaysFrom (pace : Pace) (place : Nat) (elapsed : Binary64) :
    List SequenceStep → Outcome (List Binary64)
  | [] => .ok []
  | step :: rest => do
    let own := step.delay.add (← pace.wait place)
    let delay := if pace.timeline then own.add elapsed else own
    let elapsed :=
      if pace.timeline then elapsed.add (step.duration?.getD Transition.defaultDuration) else elapsed
    let delay := delay.roundTo 6
    if (Binary64.zero false).le delay then
      return delay :: (← delaysFrom pace (place + 1) elapsed rest)
    else throw (.invalidRecord [⟨[.name "delay"], "greater_than_equal", none⟩])

/-- The seconds at which the steps begin. -/
def delays (pace : Pace) (steps : List SequenceStep) : Outcome (List Binary64) :=
  delaysFrom pace 0 (Binary64.zero false) steps

end Sequence

/-! ### Elements -/

namespace SequenceStep

/-- Whether a text names a tag. -/
def isTag : List Char → Bool
  | [] => false
  | c :: rest => c.isLower && rest.all fun d => d.isLower || d.isDigit || d == '-'

/-- Whether a text is a class with its point. -/
def isClass : List Char → Bool
  | '.' :: c :: rest => (c.isAlpha || c == '_') && rest.all fun d => Text.isWord d || d == '-'
  | _ => false

/-- The name of a class without its point and without a line feed at its end. -/
def className (selector : String) : String :=
  let name := selector.toList.drop 1
  String.ofList (if name.getLast? = some '\n' then name.dropLast else name)

/-- The tag and the attributes of the element that a step names. -/
def target (step : SequenceStep) : String × Fields Value :=
  let selector := ("selector", Value.text step.element)
  if Text.isLineOf isTag step.element.toList then (step.element, [])
  else if Text.isLineOf isClass step.element.toList then
    ("div", [("className", .text (className step.element)), selector])
  else ("div", [selector])

/-- What a step starts from: what it says, or from nothing to be seen if it animates the opacity. -/
def start (step : SequenceStep) : Fields Value :=
  match step.initial? with
  | some initial => initial
  | none => if step.animate.has "opacity" then [("opacity", .int 0)] else []

/-- The options of a step that begins after a delay. -/
def transition (step : SequenceStep) (delay : Binary64) : Fields Value :=
  (step.duration?.map fun seconds => ("duration", Value.real seconds)).toList ++
    [("delay", Value.real delay)] ++
    ((step.easing?.filter (· != "")).map fun easing => ("ease", Value.text easing)).toList

/-- The element that a step animates after a delay. -/
def toElement (step : SequenceStep) (delay : Binary64) : Element :=
  let (tag, attributes) := step.target
  let start := step.start
  let phases := (if start.isEmpty then [] else [(Phase.initial.name, Value.object start)]) ++
    [(Phase.animate.name, .object step.animate), (Phase.transition.name, .object (step.transition delay))]
  ⟨{ Motion.ofTag tag with phases := phases, attributes := attributes }, []⟩

end SequenceStep

end AnimationCode
