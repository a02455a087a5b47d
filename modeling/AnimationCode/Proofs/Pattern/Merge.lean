/-
**Several configurations as one.**

A configuration is sound if its phases are known ones, each in its form, and if its states name variants of its own.
Configurations are put together from left to right: a later one replaces the states of an earlier one and adds to its
variants. So no variant that was declared is ever lost: a state that is kept and a state that is new both find theirs.

A state is what the last of several configurations makes it. Transitions and variants are laid over one another, and there
each path has a last word of its own: that of the last configuration which has something at the path, or a value on the way
to it that is no object and cuts it off.

* `Config.get?_add`, `Config.keys_add`: what a configuration says after a later one was put over it, and in which order;
* `Config.defect?_eq_none_iff`: nothing is wrong with a configuration just if it is sound;
* `Config.IsSound.add`, `Config.isSound_merge`: a sound configuration over a sound one, and several as one;
* `Value.Decides`: a value that has a say at a path, and `Value.decides_object_cons` one step down;
* `Value.at?_overlaid_of_decides`, `Value.at?_overlaid_of_silent`: one value laid over another, path by path;
* `Config.at?_merge_of_last`: the last word at a path is what several configurations come to there;
* `Config.lastWord_merge`: the phases of several configurations, their states, and what is laid over at each path.
-/

import AnimationCode.Pattern.Config
import AnimationCode.Proofs.Fields
import AnimationCode.Proofs.Record.Reading
import AnimationCode.Proofs.Timing

namespace AnimationCode

namespace Value

theorem keys_underFields (base fields : Fields Value) :
    Fields.keys (underFields base fields) = tellAll (Fields.keys base) (Fields.keys fields) := by
  induction fields generalizing base with
  | nil => rw [underFields]; rfl
  | cons field rest ih =>
    obtain ⟨name, above⟩ := field
    rw [underFields, ih, Fields.keys_set]
    rfl

end Value

namespace Config

variable {merged later : Config} {configs : List Config}

/-! ### What is said after a later configuration -/

/-- What a phase is after a later value of it: the value is laid over what was there, or takes its place. -/
def laid (phase : String) (below? : Option Value) (value : Value) : Value :=
  match below? with
  | some below => if isLayered phase then below.under value else value
  | none => value

theorem write_eq (merged : Config) (phase : String) (value : Value) :
    merged.write phase value = Fields.set merged phase (laid phase (Fields.get? merged phase) value) := rfl

theorem laid_of_not_layered {phase : String} (plain : isLayered phase = false) (below? : Option Value) (value : Value) :
    laid phase below? value = value := by
  unfold laid
  cases below? with
  | none => rfl
  | some below => simp [plain]

/-- What an object is laid over becomes an object. -/
theorem isObject_laid {value : Value} (object : value.isObject = true) (phase : String) (below? : Option Value) :
    (laid phase below? value).isObject = true := by
  cases value with
  | object fields =>
    unfold laid
    cases below? with
    | none => rfl
    | some below =>
      dsimp only
      split
      · cases below <;> simp [Value.under, Value.isObject]
      · rfl
  | _ => cases object

/-- The phases of a configuration after a later one: those that were there, and then the new ones. -/
theorem keys_add (merged later : Config) :
    Fields.keys (merged.add later) = tellAll (Fields.keys merged) (Fields.keys later) := by
  induction later generalizing merged with
  | nil => rfl
  | cons field rest ih =>
    change Fields.keys ((merged.write field.1 field.2).add rest) = tellAll (tell (Fields.keys merged) field.1) (Fields.keys rest)
    rw [ih, write_eq, Fields.keys_set]
    rfl

/-- What a phase is after a later configuration: what the later one lays over it, or what it was. -/
theorem get?_add (merged : Config) (named : (Fields.keys later).Nodup) (phase : String) :
    Fields.get? (merged.add later) phase =
      ((Fields.get? later phase).map (laid phase (Fields.get? merged phase))).or (Fields.get? merged phase) := by
  induction later generalizing merged with
  | nil => rfl
  | cons field rest ih =>
    obtain ⟨name, value⟩ := field
    obtain ⟨fresh, others⟩ := List.nodup_cons.mp named
    change Fields.get? ((merged.write name value).add rest) phase = _
    rw [ih _ others, write_eq, Fields.get?_set, Fields.get?_cons]
    by_cases same : phase = name
    · subst same
      rw [if_pos rfl, if_pos rfl, Fields.get?_eq_none_iff.mpr fresh]
      rfl
    · rw [if_neg same, if_neg same]

/-! ### Sound configurations -/

/-- A state that is written out, or names declared variants. -/
def IsState (declared : List String) (value : Value) : Prop :=
  value.isObject = true ∨ ∃ labels, labels? value = some labels ∧ labels ⊆ declared

theorem IsState.mono {declared more : List String} {value : Value} (isState : IsState declared value)
    (subset : declared ⊆ more) : IsState more value :=
  isState.imp_right fun ⟨labels, named, among⟩ => ⟨labels, named, List.Subset.trans among subset⟩

/-- The phases of a configuration are known ones, each in its form, and its states name variants of its own. -/
structure IsSound (config : Config) : Prop where
  phase : ∀ phase value, Fields.get? config phase = some value → phaseDefect? phase value = none
  state : ∀ state ∈ Phase.stateNames, ∀ value, Fields.get? config state = some value → IsState config.variantNames value

theorem filter_eq_nil_iff_subset (declared labels : List String) :
    labels.filter (!declared.contains ·) = [] ↔ labels ⊆ declared := by
  simp [List.filter_eq_nil_iff, List.subset_def]

theorem stateDefect?_eq_none_iff {config : Config} {state : String} :
    config.stateDefect? state = none ↔
      ∀ value, Fields.get? config state = some value → IsState config.variantNames value := by
  unfold stateDefect?
  split
  · rename_i absent
    simp [absent]
  · rename_i fields said
    simp [said, IsState, Value.isObject]
  · rename_i value notObject said
    have noObject : value.isObject ≠ true := by
      cases value with
      | object fields => exact absurd rfl (notObject fields)
      | _ => exact Bool.false_ne_true
    rw [said]
    split
    · rename_i unnamed
      simp [IsState, noObject, unnamed]
    · rename_i labels named
      have declared := filter_eq_nil_iff_subset config.variantNames labels
      split
      · rename_i none_
        simpa [IsState, noObject, named] using declared.mp none_
      · rename_i some_
        simpa [IsState, noObject, named] using fun subset => some_ (declared.mpr subset)

/-- Nothing is wrong with a configuration just if it is sound. -/
theorem defect?_eq_none_iff {config : Config} (named : (Fields.keys config).Nodup) :
    config.defect? = none ↔ config.IsSound := by
  rw [defect?, Option.or_eq_none_iff, List.findSome?_eq_none_iff, List.findSome?_eq_none_iff]
  constructor
  · rintro ⟨phases, states⟩
    exact ⟨fun phase value said => phases (phase, value) (Fields.mem_of_get? said),
      fun state member => stateDefect?_eq_none_iff.mp (states state member)⟩
  · rintro ⟨phases, states⟩
    exact ⟨fun (phase, value) member => phases phase value (Fields.get?_of_mem named member),
      fun state member => stateDefect?_eq_none_iff.mpr (states state member)⟩

theorem phaseDefect?_eq_none_iff {phase : String} {value : Value} : phaseDefect? phase value = none ↔
    phase ∈ Phase.names ∧ (isLayered phase = true → value.isObject = true) := by
  unfold phaseDefect?
  by_cases known : phase ∈ Phase.names
  · cases layered : isLayered phase <;> cases object : value.isObject <;> simp [known]
  · simp [known]

theorem isSound_nil : IsSound [] := ⟨nofun, nofun⟩

theorem IsSound.variants {config : Config} (sound : config.IsSound) {value : Value}
    (said : Fields.get? config Phase.variants.name = some value) : ∃ variants, value = .object variants := by
  have object : value.isObject = true := (phaseDefect?_eq_none_iff.mp (sound.phase _ _ said)).2 (by decide)
  cases value with
  | object variants => exact ⟨variants, rfl⟩
  | _ => cases object

/-- No variant is lost when a configuration is put over another. -/
theorem IsSound.variantNames_add (earlier : merged.IsSound) (sound : later.IsSound) (named : (Fields.keys later).Nodup) :
    merged.variantNames ⊆ (merged.add later).variantNames ∧ later.variantNames ⊆ (merged.add later).variantNames := by
  unfold variantNames
  rw [get?_add merged named]
  cases new : Fields.get? later Phase.variants.name with
  | none => exact ⟨List.Subset.refl _, List.nil_subset _⟩
  | some value =>
    obtain ⟨variants, rfl⟩ := sound.variants new
    cases old : Fields.get? merged Phase.variants.name with
    | none => exact ⟨List.nil_subset _, List.Subset.refl _⟩
    | some value =>
      obtain ⟨base, rfl⟩ := earlier.variants old
      have together : laid Phase.variants.name (some (.object base)) (.object variants) =
          .object (Value.underFields base variants) := by
        rw [laid]
        exact (if_pos (by decide)).trans (by rw [Value.under])
      rw [Option.map_some, Option.some_or, together]
      dsimp only
      rw [Value.keys_underFields]
      exact ⟨subset_tellAll _ _, items_subset_tellAll _ _⟩

/-- A sound configuration over a sound one: what is kept and what is new both find their variants. -/
theorem IsSound.add (earlier : merged.IsSound) (sound : later.IsSound) (named : (Fields.keys later).Nodup) :
    (merged.add later).IsSound := by
  obtain ⟨keptNames, newNames⟩ := earlier.variantNames_add sound named
  refine ⟨fun phase value said => ?_, fun state member value said => ?_⟩
  · rw [get?_add merged named] at said
    cases new : Fields.get? later phase with
    | none =>
      rw [new] at said
      exact earlier.phase phase value said
    | some above =>
      rw [new] at said
      obtain rfl := Option.some.inj said
      obtain ⟨known, form⟩ := phaseDefect?_eq_none_iff.mp (sound.phase phase above new)
      exact phaseDefect?_eq_none_iff.mpr ⟨known, fun layered => isObject_laid (form layered) _ _⟩
  · have plain : isLayered state = false := by
      have all : ∀ state ∈ Phase.stateNames, isLayered state = false := by decide
      exact all state member
    rw [get?_add merged named] at said
    cases new : Fields.get? later state with
    | none =>
      rw [new] at said
      exact (earlier.state state member value said).mono keptNames
    | some above =>
      rw [new, Option.map_some, Option.some_or, laid_of_not_layered plain] at said
      obtain rfl := Option.some.inj said
      exact (sound.state state member above new).mono newNames

theorem isSound_foldl (each : ∀ config ∈ configs, (Fields.keys config).Nodup ∧ config.IsSound)
    (once : (Fields.keys merged).Nodup) (sound : merged.IsSound) :
    (Fields.keys (configs.foldl add merged)).Nodup ∧ (configs.foldl add merged).IsSound := by
  induction configs generalizing merged with
  | nil => exact ⟨once, sound⟩
  | cons config rest ih =>
    obtain ⟨⟨named, next⟩, others⟩ := List.forall_mem_cons.mp each
    refine ih others ?_ (sound.add next named)
    rw [keys_add]
    exact nodup_tellAll once _

/-- Several sound configurations as one. -/
theorem isSound_merge (each : ∀ config ∈ configs, (Fields.keys config).Nodup ∧ config.IsSound) :
    (Fields.keys (merge configs)).Nodup ∧ (merge configs).IsSound :=
  isSound_foldl each List.nodup_nil isSound_nil

end Config

namespace Value

/-! ### A say at a path -/

theorem at?_single (name : String) (fields : Fields Value) : (Value.object fields).at? [name] = fields.get? name :=
  Option.bind_fun_some _

/-- A path is followed name by name. -/
theorem at?_cons (name : String) (path : List String) (value : Value) :
    value.at? (name :: path) = (value.at? [name]).bind (at? path) := by
  cases value with
  | object fields => rw [at?_single, at?_object]
  | _ => rfl

/-- Whether a value has a say at a path: something stands there, or something that is no object stands on the way. -/
def Decides (value : Value) (path : List String) : Prop :=
  (∃ found, value.at? path = some found) ∨
    ∃ way rest, path = way ++ rest ∧ rest ≠ [] ∧ ∃ cut, value.at? way = some cut ∧ cut.isObject = false

theorem decides_nil (value : Value) : value.Decides [] := .inl ⟨value, rfl⟩

/-- A value that is no object has a say at every path. -/
theorem decides_of_plain {value : Value} (plain : value.isObject = false) (path : List String) : value.Decides path := by
  cases path with
  | nil => exact decides_nil value
  | cons name path => exact .inr ⟨[], name :: path, rfl, List.cons_ne_nil _ _, value, rfl, plain⟩

/-- An object has a say at a path if what it has under the first name has one at the rest. -/
theorem decides_object_cons {fields : Fields Value} {name : String} {path : List String} :
    (Value.object fields).Decides (name :: path) ↔ ∃ inner, fields.get? name = some inner ∧ inner.Decides path := by
  constructor
  · rintro (⟨found, here⟩ | ⟨way, rest, same, more, cut, there, plain⟩)
    · rw [at?_object] at here
      obtain ⟨inner, named, below⟩ := Option.bind_eq_some_iff.mp here
      exact ⟨inner, named, .inl ⟨found, below⟩⟩
    · cases way with
      | nil =>
        cases there
        cases plain
      | cons first way =>
        obtain ⟨rfl, rfl⟩ := List.cons.inj same
        rw [at?_object] at there
        obtain ⟨inner, named, below⟩ := Option.bind_eq_some_iff.mp there
        exact ⟨inner, named, .inr ⟨way, rest, rfl, more, cut, below, plain⟩⟩
  · rintro ⟨inner, named, ⟨found, below⟩ | ⟨way, rest, rfl, more, cut, below, plain⟩⟩
    · exact .inl ⟨found, by rw [at?_object, named, Option.bind_some, below]⟩
    · exact .inr ⟨name :: way, rest, rfl, more, cut, by rw [at?_object, named, Option.bind_some, below], plain⟩

/-! ### One value over another -/

/-- A value laid over what is there, if anything is. -/
def overlaid (below? : Option Value) (above : Value) : Value :=
  match below? with
  | some below => below.under above
  | none => above

theorem overlaid_of_plain {above : Value} (plain : above.isObject = false) (below? : Option Value) :
    overlaid below? above = above := by
  cases below? with
  | none => rfl
  | some below =>
    cases above with
    | object fields => cases plain
    | _ =>
      rw [overlaid, under]
      rintro _ ⟨⟩

theorem isObject_overlaid (below? : Option Value) (fields : Fields Value) :
    (overlaid below? (.object fields)).isObject = true := by
  cases below? with
  | none => rfl
  | some below => cases below <;> simp [overlaid, under, isObject]

/-- What fields are after others were laid over them: each over what had its name. -/
theorem get?_underFields (base : Fields Value) {fields : Fields Value} (named : fields.keys.Nodup) (name : String) :
    Fields.get? (underFields base fields) name =
      ((fields.get? name).map (overlaid (base.get? name))).or (base.get? name) := by
  induction fields generalizing base with
  | nil => rw [underFields]; rfl
  | cons field rest ih =>
    obtain ⟨key, above⟩ := field
    obtain ⟨fresh, others⟩ := List.nodup_cons.mp named
    rw [underFields, ih _ others, Fields.get?_set, Fields.get?_cons]
    by_cases same : name = key
    · subst same
      rw [if_pos rfl, if_pos rfl, Fields.get?_eq_none_iff.mpr fresh]
      rfl
    · rw [if_neg same, if_neg same]

/-- A path into an object laid over what is there. -/
theorem at?_overlaid_object (below? : Option Value) {fields : Fields Value} (named : fields.keys.Nodup) (name : String)
    (path : List String) : (overlaid below? (.object fields)).at? (name :: path) =
      (((fields.get? name).map (overlaid (below?.bind (at? [name])))).or (below?.bind (at? [name]))).bind (at? path) := by
  have alone : (fields.get? name).bind (at? path) = (((fields.get? name).map (overlaid none)).or none).bind (at? path) := by
    rw [Option.or_none]
    cases fields.get? name <;> rfl
  cases below? with
  | none => exact alone
  | some below =>
    cases below with
    | object base => rw [Option.bind_some, at?_single, overlaid, under, at?_object, get?_underFields base named]
    | _ =>
      rw [overlaid, under]
      · exact alone
      · rintro _ ⟨⟩

/-- Where a value has no say, all stays as it was. -/
theorem at?_overlaid_of_silent {path : List String} {above : Value} (named : above.IsNamedOnce) (silent : ¬ above.Decides path)
    (below? : Option Value) : (overlaid below? above).at? path = below?.bind (at? path) := by
  induction path generalizing above below? with
  | nil => exact absurd (decides_nil above) silent
  | cons name path ih =>
    cases above with
    | object fields =>
      have deeper : below?.bind (at? (name :: path)) = (below?.bind (at? [name])).bind (at? path) := by
        cases below? with
        | none => rfl
        | some below => exact at?_cons name path below
      rw [at?_overlaid_object below? named.nodup, deeper]
      cases said : Fields.get? fields name with
      | none => rw [Option.map_none, Option.none_or]
      | some inner =>
        have quiet : ¬ inner.Decides path := fun has => silent (decides_object_cons.mpr ⟨inner, said, has⟩)
        rw [Option.map_some, Option.some_or, Option.bind_some]
        exact ih (named.of_get? said) quiet _
    | _ => exact absurd (decides_of_plain rfl _) silent

/-- Where a value has a say, it alone says which value that is no object stands there. -/
theorem at?_overlaid_of_decides {path : List String} {above : Value} (named : above.IsNamedOnce) (decides : above.Decides path)
    (below? : Option Value) {value : Value} (plain : value.isObject = false) :
    (overlaid below? above).at? path = some value ↔ above.at? path = some value := by
  induction path generalizing above below? with
  | nil =>
    cases above with
    | object fields =>
      have object := isObject_overlaid below? fields
      constructor
      · intro same
        obtain rfl := Option.some.inj same
        rw [object] at plain
        cases plain
      · intro same
        obtain rfl := Option.some.inj same
        cases plain
    | _ => rw [overlaid_of_plain rfl]
  | cons name path ih =>
    cases above with
    | object fields =>
      obtain ⟨inner, said, has⟩ := decides_object_cons.mp decides
      rw [at?_overlaid_object below? named.nodup, at?_object, said, Option.map_some, Option.some_or, Option.bind_some,
        Option.bind_some]
      exact ih (named.of_get? said) has _
    | _ => rw [overlaid_of_plain rfl]

end Value

namespace Config

open Value (Decides IsNamedOnce overlaid)

variable {configs : List Config} {merged later : Config}

/-! ### Phases and states -/

theorem keys_foldl (configs : List Config) (merged : Config) :
    Fields.keys (configs.foldl add merged) = tellAll (Fields.keys merged) (configs.flatMap Fields.keys) := by
  induction configs generalizing merged with
  | nil => rfl
  | cons config rest ih =>
    rw [List.foldl_cons, ih, keys_add, List.flatMap_cons, tellAll, tellAll, tellAll, List.foldl_append]

/-- The last configuration that sets a state has its way. -/
theorem get?_foldl_of_plain {phase : String} (plain : isLayered phase = false)
    (named : ∀ config ∈ configs, (Fields.keys config).Nodup) (merged : Config) :
    Fields.get? (configs.foldl add merged) phase =
      (configs.reverse.findSome? (Fields.get? · phase)).or (Fields.get? merged phase) := by
  induction configs generalizing merged with
  | nil => rfl
  | cons config rest ih =>
    obtain ⟨here, others⟩ := List.forall_mem_cons.mp named
    have replaces : laid phase (Fields.get? merged phase) = id := funext fun value => laid_of_not_layered plain _ value
    rw [List.foldl_cons, ih others, get?_add merged here, replaces, Option.map_id_apply, List.reverse_cons, List.findSome?_append,
      List.findSome?_singleton, Option.or_assoc]

/-! ### What is laid over, path by path -/

theorem isLayered_iff {phase : String} :
    isLayered phase = true ↔ phase = Phase.transition.name ∨ phase = Phase.variants.name := by
  simp [isLayered]

/-- Under a phase that is laid over, a later configuration is laid over the earlier ones as one object over another. -/
theorem at?_add {phase : String} (layered : isLayered phase = true) (named : (Fields.keys later).Nodup) (merged : Config)
    (path : List String) :
    (Value.object (merged.add later)).at? (phase :: path) =
      (overlaid (some (.object merged)) (.object later)).at? (phase :: path) := by
  have lays (below? : Option Value) : laid phase below? = overlaid below? := by
    funext value
    cases below? with
    | none => rfl
    | some below => exact if_pos layered
  rw [overlaid, Value.under, Value.at?_object, Value.at?_object, get?_add merged named, Value.get?_underFields merged named, lays]

/-- Configurations that have no say at a path leave it as it was. -/
theorem at?_foldl_of_silent {phase : String} (layered : isLayered phase = true)
    (named : ∀ config ∈ configs, IsNamedOnce (.object config)) {path : List String}
    (silent : ∀ config ∈ configs, ¬ (Value.object config).Decides (phase :: path)) (merged : Config) :
    (Value.object (configs.foldl add merged)).at? (phase :: path) = (Value.object merged).at? (phase :: path) := by
  induction configs generalizing merged with
  | nil => rfl
  | cons config rest ih =>
    obtain ⟨here, others⟩ := List.forall_mem_cons.mp named
    obtain ⟨quiet, quieter⟩ := List.forall_mem_cons.mp silent
    rw [List.foldl_cons, ih others quieter, at?_add layered here.nodup, Value.at?_overlaid_of_silent here quiet]
    rfl

/-- What several configurations come to at a path is the last word that is said there. -/
theorem at?_merge_of_last {phase : String} (layered : isLayered phase = true) {before after : List Config} {config : Config}
    (named : ∀ one ∈ before ++ config :: after, IsNamedOnce (.object one)) {path : List String}
    (decides : (Value.object config).Decides (phase :: path))
    (silent : ∀ one ∈ after, ¬ (Value.object one).Decides (phase :: path)) {value : Value} (plain : value.isObject = false) :
    (Value.object (merge (before ++ config :: after))).at? (phase :: path) = some value ↔
      (Value.object config).at? (phase :: path) = some value := by
  have here := named config (List.mem_append_right _ List.mem_cons_self)
  have others : ∀ one ∈ after, IsNamedOnce (.object one) := fun one member =>
    named one (List.mem_append_right _ (List.mem_cons_of_mem _ member))
  rw [merge_append, List.foldl_cons, at?_foldl_of_silent layered others silent, at?_add layered here.nodup]
  exact Value.at?_overlaid_of_decides here decides _ plain

/-- **What several configurations come to.** Their phases are all that they name, in the order in which they first come up. A
state is what the last configuration makes it. At a path into a transition or into the variants, the last configuration
with a say there says which value stands there if it is no object, and where none has a say there is nothing. -/
theorem lastWord_merge (named : ∀ config ∈ configs, IsNamedOnce (.object config)) :
    Fields.keys (merge configs) = tellAll [] (configs.flatMap Fields.keys) ∧
    (∀ phase, phase ≠ Phase.transition.name → phase ≠ Phase.variants.name →
      Fields.get? (merge configs) phase = configs.reverse.findSome? (Fields.get? · phase)) ∧
    ∀ phase path, phase = Phase.transition.name ∨ phase = Phase.variants.name →
      (∀ (before : List Config) (config : Config) (after : List Config), configs = before ++ config :: after →
        (Value.object config).Decides (phase :: path) → (∀ one ∈ after, ¬ (Value.object one).Decides (phase :: path)) →
          ∀ value : Value, value.isObject = false →
            ((Value.object (merge configs)).at? (phase :: path) = some value ↔
              (Value.object config).at? (phase :: path) = some value)) ∧
      ((∀ config ∈ configs, ¬ (Value.object config).Decides (phase :: path)) →
        (Value.object (merge configs)).at? (phase :: path) = none) := by
  refine ⟨keys_foldl configs [], fun phase noTransition noVariants => ?_, fun phase path either => ?_⟩
  · have plain : isLayered phase = false := by
      rw [Bool.eq_false_iff, ne_eq, isLayered_iff]
      exact fun either => either.elim noTransition noVariants
    rw [merge, get?_foldl_of_plain plain fun config member => (named config member).nodup]
    exact Option.or_none
  · have layered := isLayered_iff.mpr either
    refine ⟨?_, fun silent => at?_foldl_of_silent layered named silent []⟩
    rintro before config after rfl decides silent value plain
    exact at?_merge_of_last layered named decides silent plain

/-- Configurations the second of which cuts off what the first has in its transition. -/
def cuttingOff : List Config := [
  [("transition", .object [("spring", .object [("mass", .int 1), ("damping", .int 2)])]), ("animate", .object [("x", .int 1)])],
  [("transition", .object [("spring", .text "soft")])],
  [("variants", .object []), ("transition", .object [("spring", .object [("mass", .int 3)])]),
    ("animate", .object [("y", .int 2)])]]

/-- The damping of the first is lost, and the mass is that of the last. -/
theorem lastWord_merge_cuttingOff : (∀ config ∈ cuttingOff, IsNamedOnce (.object config)) ∧
    Fields.keys (merge cuttingOff) = ["transition", "animate", "variants"] ∧
    Fields.get? (merge cuttingOff) "animate" = some (.object [("y", .int 2)]) ∧
    (Value.object (merge cuttingOff)).at? ["transition", "spring", "damping"] ≠ some (.int 2) ∧
    (Value.object (merge cuttingOff)).at? ["transition", "spring", "mass"] = some (.int 3) := by
  have named : ∀ config ∈ cuttingOff, IsNamedOnce (.object config) := by
    simp [cuttingOff, IsNamedOnce, Value.EntriesNamedOnce, Fields.keys]
  obtain ⟨keys, states, paths⟩ := lastWord_merge named
  refine ⟨named, keys.trans (by decide), states "animate" (by decide) (by decide), ?_, ?_⟩
  · have cut := (paths "transition" ["spring", "damping"] (.inl rfl)).1 [cuttingOff[0]] cuttingOff[1] [cuttingOff[2]] rfl
      (Value.decides_object_cons.mpr ⟨_, rfl, Value.decides_object_cons.mpr ⟨_, rfl, Value.decides_of_plain rfl _⟩⟩)
      (by simp [cuttingOff, Value.decides_object_cons, Fields.get?, List.lookup_cons]) (.int 2) rfl
    rw [ne_eq, cut]
    rintro ⟨⟩
  · exact ((paths "transition" ["spring", "mass"] (.inl rfl)).1 [cuttingOff[0], cuttingOff[1]] cuttingOff[2] [] rfl
      (.inl ⟨.int 3, rfl⟩) (List.forall_mem_nil _) (.int 3) rfl).mpr rfl

end Config

end AnimationCode
