/-
**Children that begin one after another.**

The options of an element may delay its children, each by a step more than the one before. Where a
framework has no such options, every child gets the delay that is its own.

* `Stagger.ofOptions?`: the delays that options ask for;
* `Stagger.delayed`: a child with its delay;
* `Stagger.expand`: an element and all inside it with their delays written out.
-/

import AnimationCode.Element.Basic
import AnimationCode.Failure

namespace AnimationCode

/-- The delay of the first child, the step to the next, and whether the last child comes first. -/
structure Stagger where
  first : Quantity
  step : Quantity
  backwards : Bool
deriving DecidableEq, Repr, Inhabited

namespace Stagger

/-- A number among some options; zero if the option is absent, nothing if it is no number. -/
def quantityOr0? (options : Fields Value) (name : String) : Option Quantity :=
  match options.get? name with
  | some value => value.quantity?
  | none => some (.whole 0)

/-- Whether options run through the children from the last one on. -/
def isBackwards (options : Fields Value) : Bool :=
  ((options.get? "staggerDirection").bind Value.quantity?).any (·.same (.whole (-1)))

/-- The delays that options ask for. -/
def ofOptions? (options : Fields Value) : Option Stagger :=
  if options.has "staggerChildren" || options.has "delayChildren" then do
    return ⟨← quantityOr0? options "delayChildren", ← quantityOr0? options "staggerChildren",
      isBackwards options⟩
  else none

/-- The options that say how children follow one another. -/
def keys : List String := ["staggerChildren", "delayChildren", "staggerDirection", "when"]

/-- The options of an element, an outer guard aside. -/
def optionsOf (motion : Motion) : Option (Fields Value) :=
  (motion.phase? .transition).bind fun options => options.unguarded.fields?

/-- The delays that an element asks for its children. -/
def ofMotion? (motion : Motion) : Option Stagger := (optionsOf motion).bind ofOptions?

/-- A motion without the options that say how children follow one another. -/
def withoutKeys (motion : Motion) : Motion :=
  let rest := ((optionsOf motion).getD []).filter fun (name, _) => !keys.contains name
  let phases : Fields Value :=
    if rest.isEmpty then motion.phases.erase Phase.transition.name
    else motion.phases.set Phase.transition.name (.object rest)
  { motion with phases := phases }

/-- The delay that options have already; a truth value counts as a number. -/
def ownDelay (options : Fields Value) : Quantity :=
  match options.get? "delay" with
  | some (.bool b) => .whole b.toNat
  | some value => value.quantity?.getD (.whole 0)
  | none => .whole 0

/-- The places to which a delay is rounded. -/
def places : Nat := 6

/-- The delay of a child that begins so many steps after the first. -/
def delay? (stagger : Stagger) (before : Quantity) (steps : Nat) : Option Quantity := do
  let begun ← before.add? stagger.first
  let stepped ← (Quantity.whole steps).mul? stagger.step
  return (← begun.add? stepped).roundTo places

/-- A child that begins so many steps after the first. -/
def delayed (stagger : Stagger) (steps : Nat) (child : Motion) : Outcome Motion :=
  let options := ((child.phase? .transition).bind Value.fields?).getD []
  match stagger.delay? (ownDelay options) steps with
  | some delay =>
    let options := Fields.set options "delay" (Value.ofQuantity delay)
    .ok { child with phases := child.phases.set Phase.transition.name (.object options) }
  | none => .error .numberTooLarge

/-- The steps that a child comes after the first, given its place among so many children. -/
def steps (stagger : Stagger) (count place : Nat) : Nat :=
  if stagger.backwards then count - 1 - place else place

mutual

/-- An element and all inside it with their delays written out, given the delays that it gets from the
element around it and its place there; and whether there was a delay to write out inside. -/
def expand (outer : Option (Stagger × Nat)) : Element → Outcome (Element × Bool)
  | ⟨own, children⟩ => do
    let own ← match outer with
      | some (stagger, steps) => stagger.delayed steps own
      | none => pure own
    let inner := if children.isEmpty then none else ofMotion? own
    let (children, found) ← expandEach inner children.length 0 children
    return (⟨if inner.isSome then withoutKeys own else own, children⟩, inner.isSome || found)

/-- Elements side by side with their delays written out, from a place among so many on. -/
def expandEach (outer : Option Stagger) (count place : Nat) :
    List Element → Outcome (List Element × Bool)
  | [] => .ok ([], false)
  | element :: rest => do
    let (element, here) ←
      expand (outer.map fun stagger => (stagger, stagger.steps count place)) element
    let (rest, there) ← expandEach outer count (place + 1) rest
    return (element :: rest, here || there)

end

/-- The remark on delays that were written out. -/
def remark : String := "staggerChildren was expanded into explicit per-child delays"

end Stagger

end AnimationCode
