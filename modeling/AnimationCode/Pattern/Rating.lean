/-
**How well patterns perform.**

A pattern starts with a hundred points and loses some for animating the size of an element and for being
involved. That it animates transforms is told but gains nothing.

* `Catalog.rate`: the rating of a pattern.
-/

import AnimationCode.Pattern.Catalog

namespace AnimationCode

namespace Value

mutual

/-- The names of the fields of a value at every depth. -/
def fieldNames : Value → List String
  | .list items => itemFieldNames items
  | .object fields => entryFieldNames fields
  | _ => []

/-- The names of the fields of several values. -/
def itemFieldNames : List Value → List String
  | [] => []
  | item :: rest => fieldNames item ++ itemFieldNames rest

/-- The names of fields and of those inside them. -/
def entryFieldNames : List (String × Value) → List String
  | [] => []
  | (name, value) :: rest => name :: fieldNames value ++ entryFieldNames rest

end

end Value

/-- What a pattern scores, and what counts for and against it. -/
structure PatternRating where
  score : Int
  transforms : Int
  layout : Int
  complexity : Int
  recommendations : List String
deriving DecidableEq, Repr, Inhabited

/-- The rating of a pattern. -/
def Pattern.rating (pattern : Pattern) : PatternRating :=
  let names := Value.entryFieldNames pattern.config
  let layout : Int := if ["width", "height"].any names.contains then -30 else 0
  let complexity : Int := if pattern.complexity == .advanced then -10 else 0
  { score := 100 + layout + complexity
    transforms := if ["x", "y", "scale"].any names.contains then 20 else 0
    layout := layout
    complexity := complexity
    recommendations :=
      if layout < 0 then ["Consider using transform properties instead of width/height"] else [] }

/-- The rating of a pattern of the catalog; one that is not there scores nothing. -/
def Catalog.rate (catalog : Catalog) (id : String) : PatternRating :=
  match catalog.find? id with
  | some pattern => pattern.rating
  | none => ⟨0, 0, 0, 0, []⟩

end AnimationCode
