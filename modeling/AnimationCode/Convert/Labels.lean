/-
**Variant labels and what they stand for.**

A phase may name variants instead of writing them out; a name is looked up in the variants of the
element itself. An element takes the labels of the elements around it for the phases that it does not
set. Calls have no variants, so every label is replaced by the properties that it stands for.

* `Labels.resolve`: one motion, given the labels around it;
* `Labels.resolveElement`: an element with all inside it;
* `Labels.toldIn`: the labels that the remarks on it tell of.
-/

import AnimationCode.Convert.Phases
import AnimationCode.Value.Shown

namespace AnimationCode

namespace Labels

open AnimationCode.Convert (limit)

/-- The phases that an element sets itself, in order. -/
def ownPhases (motion : Motion) : Fields Value :=
  Phase.stateNames.filterMap fun name => (motion.phases.get? name).map fun value => (name, value)

/-- The labels that hold inside an element, given those around it. -/
def scope (inherited : Fields Value) (motion : Motion) : Fields Value :=
  inherited.update ((ownPhases motion).filter fun (_, value) => !value.isObject)

/-- The labels that a value lists. -/
def names : Value → List Value
  | .text name => [.text name]
  | .list items => items
  | _ => []

/-- The properties of a label among the variants. -/
def lookUp (variants : Fields Value) (label : Value) : Option (Fields Value) :=
  (label.text?.bind variants.get?).bind Value.fields?

/-- The properties that labels stand for together, a later one over an earlier one. -/
def merged (variants : Fields Value) (labels : List Value) : Fields Value :=
  (labels.filterMap (lookUp variants)).foldl Fields.update []

/-- What there is to remark on labels that stand for nothing. -/
def unresolved (variants : Fields Value) (motion : Motion) (labels : List Value) : List Remark :=
  (labels.filter fun label => (lookUp variants label).isNone).map fun label =>
    limit motion "variants" ("Variant label " ++ label.shown ++ " could not be resolved")

/-- A motion with one phase set to the properties that its label stands for. -/
def setResolved (variants : Fields Value) (motion : Motion) (phase : String) (label : Value) :
    Motion :=
  let resolved := merged variants (names label)
  if resolved.isEmpty then motion
  else
    let phases := match resolved.get? Phase.transition.name with
      | some (.object options) => motion.phases.setNew Phase.transition.name (.object options)
      | _ => motion.phases
    { motion with
      phases := phases.set phase (.object (Fields.erase resolved Phase.transition.name)) }

/-- The labels that an element with variants resolves: those of phases that it does not write out. -/
def toResolve (labels : Fields Value) (motion : Motion) : Fields Value :=
  labels.filter fun (phase, _) => !((motion.phases.get? phase).any Value.isObject)

/-- A motion with its labels resolved, given those that hold in it, and what there is to remark. -/
def resolve (labels : Fields Value) (motion : Motion) : Motion × List Remark :=
  match motion.phases.get? Phase.variants.name with
  | some declared =>
    let variants := (declared.fields?).getD []
    let wanted := toResolve labels motion
    let resolved := wanted.foldl (fun acc (phase, label) =>
      setResolved variants acc phase label) motion
    ({ resolved with phases := resolved.phases.erase Phase.variants.name },
      (wanted.flatMap fun (_, label) => unresolved variants motion (names label)) ++
        [.note "Variant labels were resolved into explicit keyframes"])
  | none =>
    if (ownPhases motion).all fun (_, value) => value.isObject then (motion, [])
    else
      ({ motion with phases := motion.phases.filter fun (name, value) =>
          value.isObject || !Phase.stateNames.contains name },
        [limit motion "variants" "Variant labels without declared variants cannot be resolved"])

mutual

/-- An element with all labels in it resolved, given those around it, and what there is to remark. -/
def resolveElement (inherited : Fields Value) : Element → Element × List Remark
  | ⟨own, children⟩ =>
    let labels := scope inherited own
    let (own, remarks) := resolve labels own
    let (children, more) := resolveEach labels children
    (⟨own, children⟩, remarks ++ more)

/-- Several elements with all labels in them resolved. -/
def resolveEach (inherited : Fields Value) : List Element → List Element × List Remark
  | [] => ([], [])
  | element :: rest =>
    let (element, remarks) := resolveElement inherited element
    let (rest, more) := resolveEach inherited rest
    (element :: rest, remarks ++ more)

end

/-! ### Labels that are told -/

/-- The labels of a motion that stand for nothing, given those that hold in it. -/
def unknownLabels (labels : Fields Value) (motion : Motion) : List Value :=
  match motion.phases.get? Phase.variants.name with
  | some declared =>
    (toResolve labels motion).flatMap fun field =>
      (names field.2).filter fun label => (lookUp ((declared.fields?).getD []) label).isNone
  | none => []

mutual

/-- The labels in an element that stand for nothing, given those around it. -/
def toldIn (inherited : Fields Value) : Element → List Value
  | ⟨own, children⟩ =>
    let labels := scope inherited own
    unknownLabels labels own ++ toldInEach labels children

/-- The labels in several elements that stand for nothing. -/
def toldInEach (inherited : Fields Value) : List Element → List Value
  | [] => []
  | element :: rest => toldIn inherited element ++ toldInEach inherited rest

end

end Labels

end AnimationCode
