/-
**Revising a component.**

A revision optimizes a component for its aims and, if another framework is asked for, converts it. What
it changed and what it could not carry over is told in its account. The component itself stays as it is.

* `Component.optimize`: the optimizations for performance and for accessibility;
* `Component.convert`: the same component for another framework;
* `Component.revise`: both, in this order;
* `Component.told`: the values that are told of a conversion.
-/

import AnimationCode.Component.Basic
import AnimationCode.Context
import AnimationCode.Convert.Attributes
import AnimationCode.Convert.Labels
import AnimationCode.Convert.References
import AnimationCode.Convert.Stagger
import AnimationCode.Import.Record
import AnimationCode.Optimize.Guard
import AnimationCode.Optimize.Transforms
import AnimationCode.Threshold

namespace AnimationCode

namespace Component

/-- The component with a forest that was optimized, and what there was to say about it. -/
def withForest (component : Component) (account : Account) (result : Forest × List String) :
    Component × Account :=
  ({ component with elements := result.1 }, account.suggest result.2)

/-- The component with transforms in place of layout. -/
def optimizePerformance (component : Component) (account : Account) : Outcome (Component × Account) :=
  component.withForest account <$> Transforms.applyToForest component.elements

/-- The component with its rapid animations guarded. -/
def optimizeAccessibility (thresholds : Fields Value) (component : Component) (account : Account) :
    Outcome (Component × Account) := do
  let short ← Threshold.short thresholds
  return component.withForest account (← Guard.applyToForest short component.elements)

/-- The account with the imports from animation libraries that the source does not use. -/
def findUnusedImports (component : Component) (account : Account) : Account :=
  if component.source.isEmpty then account
  else
    let unused := Imports.unused component.source (some motionSources)
    { account with removedImports := tellAll account.removedImports unused }

/-- The optimizations for performance and for accessibility. -/
def optimize (focus : Focus) (thresholds : Fields Value) (component : Component) (account : Account) :
    Outcome (Component × Account) := do
  let (component, account) ←
    if focus.performance then component.optimizePerformance account else pure (component, account)
  if focus.accessibility then component.optimizeAccessibility thresholds account
  else return (component, account)

/-! ### Conversion -/

/-- A forest whose labels are resolved if the target has no variants. -/
def resolveLabels (target : Framework) (forest : Forest) : Forest × List Remark :=
  if target = .js then Labels.resolveEach [] forest else (forest, [])

/-- A forest whose delays are written out if the target has no options for them. -/
def expandStagger (target : Framework) (forest : Forest) : Outcome (Forest × List Remark) :=
  if target = .vue ∨ target = .js then do
    let (forest, found) ← Stagger.expandEach none 0 0 forest
    return (forest, if found then [.note Stagger.remark] else [])
  else .ok (forest, [])

/-- A motion with its attributes for the target, and what there is to remark on all that is lost. -/
def carryOver (target : Framework) (bindings : List String) (motion : Motion) :
    Motion × List Remark :=
  let (carried, remarks) := Attributes.convert target motion
  (carried, remarks ++ Attributes.markupRemarks carried ++ References.remarks target bindings carried)

/-- What there is to remark on the script and the markup around the animated elements. -/
def surroundings (target : Framework) (component : Component) : List Remark :=
  (if component.plainMarkup = 0 then []
    else [Convert.limitAll "markup" (toString component.plainMarkup ++
      " non-animated element(s) around the motion elements were not carried over")]) ++
  component.logic.map fun statement =>
    Convert.limitAll "script"
      ("Statement \x60" ++ statement ++ "\x60 was not carried over to " ++ target.label)

/-- A forest for another framework, and what there is to remark. -/
def convertForest (target : Framework) (bindings : List String) (forest : Forest) :
    Outcome (Forest × List Remark) := do
  let (forest, spelled) := forest.revise (Convert.phases target)
  let (forest, resolved) := resolveLabels target forest
  let (forest, expanded) ← expandStagger target forest
  let (forest, carried) := Forest.revise (carryOver target bindings) forest
  let flattened :=
    if target == .js && forest.any fun element => !element.children.isEmpty then
      [Convert.limitAll "nesting" "Nested motion elements were flattened into selector lookups"]
    else []
  return (forest, spelled ++ resolved ++ expanded ++ carried ++ flattened)

/-- The component for another framework; its source is left behind. -/
def convert (target : Framework) (component : Component) (account : Account) :
    Outcome (Component × Account) := do
  let (forest, remarks) ← convertForest target component.bindings component.elements
  let remarks := remarks ++ component.surroundings target ++
    component.hooks.flatMap (Hooks.remarks target)
  let converted := { component with
    elements := forest, framework := target, source := [], tree? := none, hasShell := false,
    imports := [], exports := [], plainMarkup := 0, bindings := [], logic := [] }
  return (converted, account.addRemarks remarks)

/-- The values that the remarks on a conversion tell of: labels that stand for nothing, or selectors. -/
def told (target : Framework) (component : Component) : List Value :=
  if target = component.framework then []
  else if target = .js then Labels.toldInEach [] (component.elements.revise (Convert.phases target)).1
  else component.elements.motions.filterMap fun motion => motion.attributes.get? "selector"

/-- The component optimized, and converted if another framework is asked for. -/
def revise (component : Component) (account : Account) (context : Context)
    (thresholds : Fields Value) : Outcome (Component × Account) := do
  let (revised, account) ← component.optimize context.focus thresholds account
  if context.framework ≠ component.framework then
    let (converted, account) ← revised.convert context.framework account
    return ({ converted with typescript := context.typescript }, account)
  else if context.focus.bundleSize then return (revised, revised.findUnusedImports account)
  else return (revised, account)

end Component

end AnimationCode
