/-
**Transforms in place of layout.**

A position or a size that is animated makes the page lay itself out on every frame; a transform does
not. An animated position in pixels becomes a shift, and a size becomes a scale of its greatest
value, to which the element is pinned. All states of an element that hold the property are changed, or
none is.

* `Transforms.movePosition`, `Transforms.scaleSize`: one property of one motion;
* `Transforms.apply`: all properties of one motion, with what there is to say.
-/

import AnimationCode.Element.States
import AnimationCode.Failure
import AnimationCode.Number.Decimal
import AnimationCode.Optimize.Text

namespace AnimationCode

namespace Transforms

/-- The number of pixels that a text with the unit gives. -/
def pixelText? (cs : List Char) : Option Binary64 :=
  match TextPass.number? (Text.trimLeft cs) with
  | some (number, rest) =>
    if Text.trim rest = ['p', 'x'] then
      match number with
      | '-' :: digits => (Decimal.read? (Decimal.plainDigits digits)).map Binary64.neg
      | digits => Decimal.read? (Decimal.plainDigits digits)
    else none
  | none => none

/-- The number of pixels that a value gives. -/
def pixels? : Value → Option Binary64
  | .int n => some (Binary64.ofInt n)
  | .real x => some x
  | .text s => pixelText? s.toList
  | _ => none

/-- The numbers of pixels of all frames of a value, if every frame gives one. -/
def frames? : Value → Option (List Binary64)
  | .list [] => none
  | .list items => items.mapM pixels?
  | value => (pixels? value).map fun x => [x]

/-- A value with its frames replaced. -/
def withFrames (value : Value) (frames : List Binary64) : Value :=
  match value with
  | .list _ => .list (frames.map Value.ofBinary64)
  | _ => Value.ofBinary64 (frames.headD .nan)

/-- A state with a property renamed and its frames changed. -/
def substitute (old new : String) (change : Binary64 → Binary64) (state : Fields Value) :
    Fields Value :=
  List.map (fun field =>
    if field.1 = old then
      (new, match frames? field.2 with
        | some frames => withFrames field.2 (frames.map change)
        | none => field.2)
    else field) state

/-- The states that hold a property. -/
def holders (motion : Motion) (property : String) : List (Fields Value) :=
  (motion.states.map Prod.snd).filter (·.has property)

/-- The frames of a property in the states that hold it. -/
def framesOf (motion : Motion) (property : String) : List (Option (List Binary64)) :=
  (holders motion property).map fun state => (state.get? property).bind frames?

/-- Whether a property can give way to a transform: all its frames are pixels, and no state that holds
it has the transform already. -/
def canReplace (motion : Motion) (old new : String) : Bool :=
  (framesOf motion old).all Option.isSome && !(holders motion old).any (·.has new)

/-- The words about a property that gave way to a transform. -/
def replaced (old new : String) : String :=
  "Replaced " ++ old ++ " animation with transform: " ++ new

/-! ### Positions -/

/-- A motion with a position moved to a shift. -/
def movePosition (old new : String) (motion : Motion) : Motion × List String :=
  if (holders motion old).isEmpty then (motion, [])
  else if canReplace motion old new then
    (motion.mapStates (substitute old new id), [replaced old new])
  else (motion, [TextPass.scaleAdvice old new])

/-! ### Sizes -/

/-- The greatest number of a list: each is compared with the greatest before it. -/
def greatest : List Binary64 → Binary64
  | [] => Binary64.zero false
  | x :: rest => rest.foldl (fun high y => if high.lt y then y else high) x

/-- The places to which a scale is rounded. -/
def scalePlaces : Nat := 4

/-- The style of an element, if it has none or its properties are written out. -/
def style? (motion : Motion) : Option (Fields Value) :=
  match motion.attributes.get? "style" with
  | none => some []
  | some .null => some []
  | some (.object style) => some style
  | some _ => none

/-- A style with a size pinned, and the point that the scale is about. -/
def pinned (property origin : String) (peak : Binary64) (style : Fields Value) : Fields Value :=
  (style.setNew property (.text (Decimal.general peak ++ "px"))).setNew "transformOrigin"
    (.text origin)

/-- A motion with a size turned into a scale. -/
def scaleSize (property scale origin : String) (motion : Motion) : Motion × List String :=
  if (holders motion property).isEmpty then (motion, [])
  else
    let peak := greatest ((framesOf motion property).flatMap (·.getD []))
    match style? motion with
    | some style =>
      if canReplace motion property scale && (Binary64.zero false).lt peak then
        let change (x : Binary64) : Binary64 := (x.div peak).roundTo scalePlaces
        let scaled := motion.mapStates (substitute property scale change)
        ({ scaled with
            attributes := scaled.attributes.set "style" (.object (pinned property origin peak style)) },
          [replaced property scale])
      else (motion, [TextPass.scaleAdvice property scale])
    | none => (motion, [TextPass.scaleAdvice property scale])

/-! ### All properties -/

/-- One change after another, with what each has to say. -/
def inTurn (changes : List (Motion → Motion × List String)) (motion : Motion) :
    Motion × List String :=
  changes.foldl (fun (motion, said) change =>
    let (motion, more) := change motion
    (motion, said ++ more)) (motion, [])

/-- A motion with transforms in place of layout, and what there is to say. -/
def apply : Motion → Motion × List String :=
  inTurn [movePosition "top" "y", movePosition "left" "x",
    scaleSize "width" "scaleX" "left center", scaleSize "height" "scaleY" "center top"]

/-- Whether a value holds a whole number past every finite one. -/
def isTooLarge : Value → Bool
  | .int n => (Binary64.ofInt? n).isNone
  | _ => false

/-- Whether a frame of a position or a size is a whole number past every finite one. -/
def hasTooLarge (motion : Motion) : Bool :=
  ["top", "left", "width", "height"].any fun property =>
    (holders motion property).any fun state =>
      match state.get? property with
      | some (.list items) => items.any isTooLarge
      | some value => isTooLarge value
      | none => false

/-- A forest with transforms in place of layout, and what there is to say. -/
def applyToForest (forest : Forest) : Outcome (Forest × List String) :=
  if forest.motions.any hasTooLarge then .error .numberTooLarge else .ok (forest.revise apply)

end Transforms

end AnimationCode
