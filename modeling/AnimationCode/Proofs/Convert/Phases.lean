/-
**Phases spelled for another framework.**

Only phases that some framework alone knows are spelled anew. The phases that all share keep their values and their
order, and nothing else of a motion is touched.

* `Convert.respelled_phases`: what a motion keeps when its phases are spelled for a framework;
* `Convert.phases_of_known`: a motion of shared phases alone stays as it is.
-/

import AnimationCode.Convert.Phases
import AnimationCode.Proofs.Fields

namespace AnimationCode

/-- A motion differs from another in the spelling of phases that only some frameworks know. -/
structure Motion.Respelled (before after : Motion) : Prop where
  same : after = { before with phases := after.phases }
  shared : ∀ phase : Phase, after.phase? phase = before.phase? phase
  order : after.phases.keys.filter Phase.names.contains = before.phases.keys.filter Phase.names.contains
  named : after.phases.keys.Nodup

theorem Motion.Respelled.refl {motion : Motion} (named : motion.phases.keys.Nodup) : motion.Respelled motion :=
  ⟨rfl, fun _ => rfl, rfl, named⟩

theorem Motion.Respelled.trans {first middle last : Motion} (earlier : first.Respelled middle)
    (later : middle.Respelled last) : first.Respelled last where
  same := by rw [later.same, earlier.same]
  shared phase := (later.shared phase).trans (earlier.shared phase)
  order := later.order.trans earlier.order
  named := later.named

theorem Phase.name_mem_names (phase : Phase) : phase.name ∈ Phase.names := by
  cases phase <;> decide

/-- A spelling is no phase that all frameworks share. -/
theorem Phase.not_mem_names_of_respelling? {name spelling : String} {target : Framework}
    (found : Phase.respelling? name target = some spelling) : spelling ∉ Phase.names := by
  unfold Phase.respelling? at found
  split at found
  · cases target <;> cases found <;> decide
  · cases found

namespace Convert

variable {target : Framework} {motion : Motion}

/-- One field of many under another name. -/
def renamed (name spelling : String) (fields : Fields Value) : List (String × Value) :=
  fields.map fun (key, value) => (if key = name then spelling else key, value)

theorem get?_renamed {name spelling other : String} (away : other ≠ name) (aside : other ≠ spelling)
    (fields : Fields Value) : Fields.get? (renamed name spelling fields) other = fields.get? other := by
  induction fields with
  | nil => rfl
  | cons field rest ih =>
    obtain ⟨key, value⟩ := field
    change Fields.get? ((if key = name then spelling else key, value) :: renamed name spelling rest) other = _
    rw [Fields.get?_cons, Fields.get?_cons, ih]
    by_cases here : key = name
    · rw [if_pos here, if_neg aside, if_neg (here ▸ away)]
    · rw [if_neg here]

theorem renamed_reverse (name spelling : String) (fields : Fields Value) :
    (renamed name spelling fields).reverse = renamed name spelling fields.reverse := by
  rw [renamed, renamed, List.map_reverse]

theorem get?_reverse {fields : Fields Value} (named : fields.keys.Nodup) (name : String) :
    Fields.get? fields.reverse name = fields.get? name := by
  have namedBack : (Fields.keys fields.reverse).Nodup := by
    rw [Fields.keys, List.map_reverse]
    exact List.nodup_reverse.mpr named
  cases found : fields.get? name with
  | none =>
    rw [Fields.get?_eq_none_iff] at found ⊢
    rwa [Fields.keys, List.map_reverse, List.mem_reverse]
  | some value => exact Fields.get?_of_mem namedBack (List.mem_reverse.mpr (Fields.mem_of_get? found))

/-- The names that a renaming spares keep their order. -/
theorem filter_keys_renamed {name spelling : String} {keeps : String → Bool} (away : keeps name = false)
    (aside : keeps spelling = false) (fields : Fields Value) :
    (Fields.keys (renamed name spelling fields)).filter keeps = fields.keys.filter keeps := by
  induction fields with
  | nil => rfl
  | cons field rest ih =>
    obtain ⟨key, value⟩ := field
    change ((if key = name then spelling else key) :: Fields.keys (renamed name spelling rest)).filter keeps =
      (key :: Fields.keys rest).filter keeps
    rw [List.filter_cons, List.filter_cons, ih]
    by_cases here : key = name
    · rw [if_pos here, aside, here, away]
      rfl
    · rw [if_neg here]

theorem respelled_respell (named : motion.phases.keys.Nodup) (name : String) :
    motion.Respelled (respell target motion name).1 := by
  unfold respell
  split
  · exact .refl named
  · rename_i unknown
    have away : Phase.names.contains name = false := Bool.not_eq_true _ ▸ unknown
    split
    · rename_i spelling found
      have aside : Phase.names.contains spelling = false := by
        simpa using Phase.not_mem_names_of_respelling? found
      split
      · exact .refl named
      · refine ⟨rfl, fun phase => ?_, ?_, ?_⟩
        · have shared : Phase.names.contains phase.name = true := by simpa using phase.name_mem_names
          have other : phase.name ≠ name := fun same => Bool.false_ne_true (away.symm.trans (same ▸ shared))
          have another : phase.name ≠ spelling := fun same => Bool.false_ne_true (aside.symm.trans (same ▸ shared))
          change Fields.get? (Fields.ofPairs (renamed name spelling motion.phases)) phase.name = _
          rw [Fields.get?_ofPairs, renamed_reverse, get?_renamed other another, get?_reverse named]
          rfl
        · change (Fields.keys (Fields.ofPairs (renamed name spelling motion.phases))).filter _ = _
          have once : (motion.phases.keys.filter Phase.names.contains).Nodup := named.filter _
          rw [Fields.keys_ofPairs, filter_tellAll, List.filter_nil, filter_keys_renamed away aside]
          exact @tellAll_of_nodup _ _ [] _ once
        · change (Fields.keys (Fields.ofPairs (renamed name spelling motion.phases))).Nodup
          rw [Fields.keys_ofPairs]
          exact nodup_tellAll List.nodup_nil _
    · exact .refl named

/-- One more phase spelled, and what there is to remark besides. -/
def respellNext (target : Framework) (told : Motion × List Remark) (name : String) : Motion × List Remark :=
  ((respell target told.1 name).1, told.2 ++ (respell target told.1 name).2)

theorem respellAll_eq (names : List String) (motion : Motion) :
    respellAll target names motion = names.foldl (respellNext target) (motion, []) := rfl

theorem respellAll_cons (name : String) (rest : List String) :
    respellAll target (name :: rest) motion =
      ((respellAll target rest (respell target motion name).1).1,
        (respell target motion name).2 ++ (respellAll target rest (respell target motion name).1).2) := by
  have onward (names : List String) (motion : Motion) (remarks : List Remark) :
      names.foldl (respellNext target) (motion, remarks) =
        ((respellAll target names motion).1, remarks ++ (respellAll target names motion).2) := by
    induction names generalizing motion remarks with
    | nil => exact Prod.ext rfl (List.append_nil remarks).symm
    | cons name rest ih =>
      rw [List.foldl_cons, respellAll_eq, List.foldl_cons, respellNext, respellNext, ih, ih, List.nil_append,
        List.append_assoc]
  rw [respellAll_eq, List.foldl_cons, respellNext, onward, List.nil_append]

theorem respelled_respellAll (named : motion.phases.keys.Nodup) (names : List String) :
    motion.Respelled (respellAll target names motion).1 := by
  induction names generalizing motion with
  | nil => exact .refl named
  | cons name rest ih =>
    have first : motion.Respelled (respell target motion name).1 := respelled_respell named name
    rw [respellAll_cons]
    exact first.trans (ih first.named)

/-- What a motion keeps when its phases are spelled for a framework. -/
theorem respelled_phases (named : motion.phases.keys.Nodup) : motion.Respelled (phases target motion).1 :=
  respelled_respellAll named motion.phases.keys

/-- A motion of shared phases alone stays as it is. -/
theorem phases_of_known (known : ∀ name ∈ motion.phases.keys, name ∈ Phase.names) :
    phases target motion = (motion, phaseRemarks target motion) := by
  have all (names : List String) (each : ∀ name ∈ names, name ∈ Phase.names) :
      respellAll target names motion = (motion, []) := by
    induction names with
    | nil => rfl
    | cons name rest ih =>
      have here : respell target motion name = (motion, []) := by
        rw [respell, if_pos (by simpa using each name List.mem_cons_self)]
      rw [respellAll_cons, here, ih fun other member => each other (List.mem_cons_of_mem _ member)]
      rfl
  rw [phases, all _ known]
  rfl

end Convert

end AnimationCode
