/-
**Phases in another framework.**

A phase that only some frameworks know takes the spelling of the target, or is kept and reported.

* `Convert.limit`: a limitation at an element;
* `Convert.phases`: the motion with its phases spelled anew, and what there is to remark.
-/

import AnimationCode.Account
import AnimationCode.Element.Basic

namespace AnimationCode

namespace Convert

/-- A limitation at the place of an element. -/
def limit (motion : Motion) (construct message : String) : Remark :=
  .limitation ⟨construct, message, motion.location?⟩

/-- A limitation of the whole component. -/
def limitAll (construct message : String) : Remark := .limitation ⟨construct, message, none⟩

/-- A motion with one of its phases spelled for the target, and what there is to remark. -/
def respell (target : Framework) (motion : Motion) (name : String) : Motion × List Remark :=
  if Phase.names.contains name then (motion, [])
  else
    match Phase.respelling? name target with
    | some spelling =>
      if spelling = name then (motion, [])
      else
        ({ motion with phases := Fields.ofPairs (motion.phases.map fun (key, value) =>
            (if key = name then spelling else key, value)) },
          [.note ("Phase '" ++ name ++ "' renamed to '" ++ spelling ++ "' for " ++ target.label)])
    | none =>
      (motion, [limit motion name
        ("Phase '" ++ name ++ "' has no " ++ target.label ++ " equivalent and was kept verbatim")])

/-- A motion with some of its phases spelled for the target, and what there is to remark. -/
def respellAll (target : Framework) (names : List String) (motion : Motion) : Motion × List Remark :=
  names.foldl (fun (motion, remarks) name =>
    let (motion, more) := respell target motion name
    (motion, remarks ++ more)) (motion, [])

/-- What there is to remark on the phases that the target has no means for. -/
def phaseRemarks (target : Framework) (motion : Motion) : List Remark :=
  (if motion.hasPhase .drag && target != .react then
    [limit motion "drag" ("Drag gestures are not supported in " ++ target.label ++
      "; the drag phase is kept verbatim")] else []) ++
  (if motion.hasPhase .exit && target == .js then
    [limit motion "exit"
      "Exit animations need a removal hook in imperative code; left as a placeholder"] else []) ++
  (if target == .js && (motion.hasPhase .hover || motion.hasPhase .tap) then
    [.note "hover and tap phases became pointer event listeners"] else [])

/-- A motion with its phases spelled for the target, and what there is to remark. -/
def phases (target : Framework) (motion : Motion) : Motion × List Remark :=
  let (respelled, remarks) := respellAll target motion.phases.keys motion
  (respelled, remarks ++ phaseRemarks target respelled)

end Convert

end AnimationCode
