/-
**What code is asked for, and what to optimize for.**

`Focus.ofAreas` reads the names of focus areas, case, blanks and underscores aside; names that mean
nothing are passed over.
-/

import AnimationCode.Framework
import AnimationCode.Text.Blank
import AnimationCode.Text.LetterCase

namespace AnimationCode

/-- The aims of an optimization. -/
structure Focus where
  performance : Bool
  accessibility : Bool
  bundleSize : Bool
deriving DecidableEq, Repr, Inhabited

namespace Focus

/-- No aim. -/
def none : Focus := ⟨false, false, false⟩

/-- The name of an area without blanks at its ends, in lower case, with hyphens. -/
def areaName (text : String) : String :=
  let lowered := Text.lowerText (String.ofList (Text.trim text.toList))
  String.ofList (Text.replaceChar '_' ['-'] lowered.toList)

/-- The aims that areas name. -/
def ofAreas (areas : List String) : Focus :=
  let names := areas.map areaName
  ⟨names.contains "performance", names.contains "accessibility",
    ["bundle-size", "bundle", "bundlesize"].any names.contains⟩

end Focus

/-- What code is asked for: its framework, the form of its language, the name of the component, and what
to optimize for. -/
structure Context where
  framework : Framework
  typescript : Bool
  componentName : String
  focus : Focus
deriving DecidableEq, Repr, Inhabited

end AnimationCode
