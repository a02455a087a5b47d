/-
**The element of some patterns is sound.**

A reader of catalogs that checks the configurations of the patterns lets none with a defect pass. However many of these
patterns are put together, their phases are sound, so the check of form knows every phase and every label of their element.

* `Pattern.isSound_of_read`: a pattern that was read has a sound configuration;
* `Catalog.Checks`: a reader of catalogs that checks the configurations; `Catalog.checks_ofValue`: the reader at hand does;
* `Catalog.exists_requireAll`: patterns that are there are found;
* `Catalog.detect_elementFor`: configurations without a defect have none together, and the element of some patterns has no
  unknown phase and no unknown label.
-/

import AnimationCode.Pattern.Catalog
import AnimationCode.Proofs.Analysis.Shape
import AnimationCode.Proofs.Outcome
import AnimationCode.Proofs.Record.Reading

namespace AnimationCode

namespace Pattern

variable {data : Value} {pattern : Pattern}

theorem isSound_of_readConfig {value : Value} {config : Config} (named : value.IsNamedOnce)
    (done : readConfig value = .ok config) : (Fields.keys config).Nodup ∧ config.IsSound := by
  obtain ⟨fields, object, checked⟩ := Checked.bind_eq_ok.mp done
  obtain rfl := Record.object_eq_ok.mp object
  cases wrong : Config.defect? fields with
  | some defect =>
    simp only [wrong] at checked
    cases checked
  | none =>
    simp only [wrong] at checked
    obtain rfl : fields = config := Except.ok.inj checked
    exact ⟨named.nodup, (Config.defect?_eq_none_iff named.nodup).mp wrong⟩

/-- A pattern that was read has a sound configuration. -/
theorem isSound_of_read (named : data.IsNamedOnce) (done : read data = .ok pattern) :
    (Fields.keys pattern.config).Nodup ∧ pattern.config.IsSound := by
  obtain ⟨fields, record, withUsage⟩ := Checked.bind_eq_ok.mp done
  obtain rfl := Record.record_eq_ok.mp record
  -- The configuration is one of ten parts that are read one after another.
  obtain ⟨_, _, withAttributes, -, rfl⟩ := Checked.apply_eq_ok.mp withUsage
  obtain ⟨_, _, withConfig, -, rfl⟩ := Checked.apply_eq_ok.mp withAttributes
  obtain ⟨_, config, withTags, read, rfl⟩ := Checked.apply_eq_ok.mp withConfig
  obtain ⟨_, _, withFrameworks, -, rfl⟩ := Checked.apply_eq_ok.mp withTags
  obtain ⟨_, _, withComplexity, -, rfl⟩ := Checked.apply_eq_ok.mp withFrameworks
  obtain ⟨_, _, withCategory, -, rfl⟩ := Checked.apply_eq_ok.mp withComplexity
  obtain ⟨_, _, withDescription, -, rfl⟩ := Checked.apply_eq_ok.mp withCategory
  obtain ⟨_, _, withName, -, rfl⟩ := Checked.apply_eq_ok.mp withDescription
  obtain ⟨_, _, withId, -, rfl⟩ := Checked.apply_eq_ok.mp withName
  obtain ⟨_, -, rfl⟩ := Checked.map_eq_ok.mp withId
  obtain ⟨value, said, made⟩ := Record.required_eq_ok.mp read
  exact isSound_of_readConfig (named.of_get? said) made

end Pattern

namespace Catalog

variable {catalog : Catalog} {data : Value} {ids : List String} {framework? : Option Framework}

theorem patterns_of_ofPatterns {version : Int} {patterns : List Pattern} (done : ofPatterns version patterns = .ok catalog) :
    catalog.patterns = patterns := by
  unfold ofPatterns at done
  split at done
  · cases done
  · obtain rfl := Except.ok.inj done
    rfl

/-- A reader of catalogs that checks the configurations of the patterns: what it accepts has no defect. -/
def Checks (reader : Value → Outcome Catalog) : Prop :=
  ∀ data catalog, data.IsNamedOnce → reader data = .ok catalog →
    ∀ pattern ∈ catalog.patterns, (Fields.keys pattern.config).Nodup ∧ pattern.config.defect? = none

theorem Checks.isSound {reader : Value → Outcome Catalog} (checks : Checks reader) (named : data.IsNamedOnce)
    (done : reader data = .ok catalog) :
    ∀ pattern ∈ catalog.patterns, (Fields.keys pattern.config).Nodup ∧ pattern.config.IsSound := by
  intro pattern member
  obtain ⟨once, passed⟩ := checks data catalog named done pattern member
  exact ⟨once, (Config.defect?_eq_none_iff once).mp passed⟩

/-- The configurations of a catalog that is read from data are checked. -/
theorem checks_ofValue : Checks ofValue := by
  intro data catalog named done
  have loaded : read data = .ok catalog := by
    unfold ofValue at done
    split at done
    · rename_i other made
      rw [made, Except.ok.inj done]
    · cases done
  obtain ⟨fields, record, rest⟩ := Checked.bind_eq_ok.mp loaded
  obtain rfl := Record.record_eq_ok.mp record
  obtain ⟨⟨version, patterns⟩, parts, made⟩ := Checked.bind_eq_ok.mp rest
  obtain ⟨f, found, given, listed, same⟩ := Checked.apply_eq_ok.mp parts
  obtain ⟨number, -, rfl⟩ := Checked.map_eq_ok.mp given
  obtain ⟨rfl, rfl⟩ := Prod.mk.inj same
  obtain ⟨value, said, read⟩ := Record.required_eq_ok.mp listed
  obtain ⟨items, rfl, each⟩ := Record.exists_of_listOf read
  rw [patterns_of_ofPatterns made]
  intro pattern member
  obtain ⟨item, among, one⟩ := each pattern member
  obtain ⟨once, sound⟩ := Pattern.isSound_of_read ((named.of_get? said).items item among) one
  exact ⟨once, (Config.defect?_eq_none_iff once).mpr sound⟩

/-! ### Patterns that are asked for -/

theorem mem_of_require {id : String} {pattern : Pattern} (found : catalog.require id framework? = .ok pattern) :
    pattern ∈ catalog.patterns := by
  unfold require at found
  split at found
  · cases found
  · rename_i other here
    have member : other ∈ catalog.patterns := List.mem_of_find?_eq_some here
    split at found
    · rwa [← Except.ok.inj found]
    · split at found
      · rwa [← Except.ok.inj found]
      · cases found

theorem mem_of_requireAll {patterns : List Pattern} (found : catalog.requireAll ids framework? = .ok patterns) :
    ∀ pattern ∈ patterns, pattern ∈ catalog.patterns := by
  unfold requireAll at found
  induction ids generalizing patterns with
  | nil =>
    obtain rfl : [] = patterns := Except.ok.inj found
    exact List.forall_mem_nil _
  | cons id rest ih =>
    rw [List.mapM_cons] at found
    obtain ⟨first, here, later⟩ := Outcome.bind_eq_ok.mp found
    obtain ⟨others, made, same⟩ := Outcome.bind_eq_ok.mp later
    obtain rfl : first :: others = patterns := Except.ok.inj same
    exact List.forall_mem_cons.mpr ⟨mem_of_require here, ih made⟩

theorem exists_require {id : String} (known : id ∈ catalog.ids) : ∃ pattern, catalog.require id none = .ok pattern := by
  obtain ⟨pattern, member, rfl⟩ := List.mem_map.mp known
  unfold require find?
  cases found : catalog.patterns.find? (·.id == pattern.id) with
  | some other => exact ⟨other, rfl⟩
  | none => exact absurd (beq_self_eq_true pattern.id) (List.find?_eq_none.mp found pattern member)

/-- Patterns that are there are found. -/
theorem exists_requireAll (known : ∀ id ∈ ids, id ∈ catalog.ids) : ∃ patterns, catalog.requireAll ids none = .ok patterns := by
  unfold requireAll
  induction ids with
  | nil => exact ⟨[], rfl⟩
  | cons id rest ih =>
    obtain ⟨here, others⟩ := List.forall_mem_cons.mp known
    obtain ⟨first, one⟩ := exists_require here
    obtain ⟨patterns, made⟩ := ih others
    refine ⟨first :: patterns, ?_⟩
    rw [List.mapM_cons, one, made]
    rfl

/-! ### The element of some patterns -/

theorem isSound_elementFor (sound : ∀ pattern ∈ catalog.patterns, (Fields.keys pattern.config).Nodup ∧ pattern.config.IsSound)
    {tag : String} {element : Element} (made : catalog.elementFor ids framework? tag = .ok element) :
    element.children = [] ∧ element.own.phases.keys.Nodup ∧ Config.IsSound element.own.phases := by
  obtain ⟨patterns, found, same⟩ := Outcome.bind_eq_ok.mp made
  obtain rfl := Except.ok.inj same
  refine ⟨rfl, Config.isSound_merge fun config member => ?_⟩
  obtain ⟨pattern, among, rfl⟩ := List.mem_map.mp member
  exact sound pattern (mem_of_requireAll found pattern among)

/-- Nothing but content is wrong with the element of some patterns. -/
theorem isOfContent_elementFor
    (sound : ∀ pattern ∈ catalog.patterns, (Fields.keys pattern.config).Nodup ∧ pattern.config.IsSound)
    {tag : String} {element : Element} (made : catalog.elementFor ids framework? tag = .ok element)
    {thresholds : Fields Value} {findings : List Finding} (checked : Shape.detect thresholds [element] = .ok findings) :
    Shape.IsOfContent findings := by
  obtain ⟨longest, -, same⟩ := Outcome.bind_eq_ok.mp checked
  obtain rfl := Except.ok.inj same
  obtain ⟨own, children⟩ := element
  obtain ⟨rfl, named, soundPhases⟩ := isSound_elementFor sound made
  rw [Shape.ofForest, Shape.ofForest, Shape.ofElement, Shape.ofForest, List.append_nil, List.append_nil]
  exact Shape.isOfContent_ofMotion named soundPhases

/-- Configurations without a defect have none together. In a catalog whose configurations were checked, patterns that are
there make an element, and the check of its form finds no unknown phase and no unknown label. -/
theorem detect_elementFor :
    (∀ configs : List Config, (∀ config ∈ configs, (Fields.keys config).Nodup ∧ config.defect? = none) →
      (Config.merge configs).defect? = none) ∧
    ∀ reader, Checks reader → ∀ (data : Value) (catalog : Catalog), data.IsNamedOnce → reader data = .ok catalog →
      ∀ (ids : List String) (tag : String),
      ((∀ id ∈ ids, id ∈ catalog.ids) → ∃ element findings, catalog.elementFor ids none tag = .ok element ∧
        Shape.detect [] [element] = .ok findings) ∧
      ∀ framework? element thresholds findings, catalog.elementFor ids framework? tag = .ok element →
        Shape.detect thresholds [element] = .ok findings →
        ∀ finding ∈ findings, finding.rule ≠ "unknown-phase" ∧ finding.rule ≠ "unknown-variant" := by
  constructor
  · intro configs each
    obtain ⟨once, sound⟩ := Config.isSound_merge fun config member =>
      ⟨(each config member).1, (Config.defect?_eq_none_iff (each config member).1).mp (each config member).2⟩
    exact (Config.defect?_eq_none_iff once).mpr sound
  · intro reader checks data catalog named loaded ids tag
    have sound := checks.isSound named loaded
    refine ⟨fun known => ?_, fun framework? element thresholds findings made checked finding member => ?_⟩
    · obtain ⟨patterns, found⟩ := exists_requireAll known
      have made : ∃ element, catalog.elementFor ids none tag = .ok element := by
        rw [elementFor, found]
        exact ⟨_, rfl⟩
      obtain ⟨element, made⟩ := made
      exact ⟨element, _, made, rfl⟩
    · have others : ∀ rule ∈ Shape.contentRules, rule ≠ "unknown-phase" ∧ rule ≠ "unknown-variant" := by decide
      exact others _ (isOfContent_elementFor sound made checked finding member)

/-- A configuration that reveals by a label of its own. -/
def revealing : Config :=
  [("animate", .text "shown"), ("variants", .object [("shown", .object [("opacity", .int 1)])])]

/-- A configuration that declares the same label, and starts from another. -/
def folding : Config :=
  [("initial", .list [.text "folded"]),
    ("variants", .object [("folded", .object [("scale", .int 0)]), ("shown", .object [("scale", .int 1)])])]

/-- A pattern with a configuration, as data. -/
def patternData (id : String) (config : Config) : Value :=
  .object [("id", .text id), ("name", .text id), ("description", .text ""), ("category", .text "entrance"),
    ("complexity", .text "basic"), ("frameworks", .list [.text "react"]), ("config", .object config)]

/-- Two patterns that share a label, as data. -/
def sharedLabel : Value := .object [("patterns", .list [patternData "reveal" revealing, patternData "fold" folding])]

/-- Two patterns that share a label, put together. -/
theorem detect_elementFor_sharedLabel :
    (Config.merge [revealing, folding]).defect? = none ∧
    ∃ catalog element findings, ofValue sharedLabel = .ok catalog ∧
      catalog.elementFor ["reveal", "fold"] none "div" = .ok element ∧ Shape.detect [] [element] = .ok findings ∧
      ∀ finding ∈ findings, finding.rule ≠ "unknown-phase" ∧ finding.rule ≠ "unknown-variant" := by
  have sound := detect_elementFor.1 [revealing, folding] (by decide)
  have named : sharedLabel.IsNamedOnce := by
    simp [sharedLabel, patternData, revealing, folding, Value.IsNamedOnce, Value.AreNamedOnce, Value.EntriesNamedOnce,
      Fields.keys]
  have loaded : ∃ catalog, ofValue sharedLabel = .ok catalog ∧ catalog.ids = ["reveal", "fold"] := ⟨_, by rfl, by rfl⟩
  obtain ⟨catalog, loaded, ids⟩ := loaded
  have whole := detect_elementFor.2 ofValue checks_ofValue sharedLabel catalog named loaded ["reveal", "fold"] "div"
  obtain ⟨element, findings, made, checked⟩ := whole.1 (by rw [ids]; exact fun id member => member)
  exact ⟨sound, catalog, element, findings, loaded, made, checked, whole.2 none element [] findings made checked⟩

end Catalog

end AnimationCode
