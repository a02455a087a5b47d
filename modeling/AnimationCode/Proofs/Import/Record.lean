/-
**What is recorded of the names that are used, and how it is read back.**

A record only grows. Each name of a source stays in it as it was first used, and each source and package in the order of its
first use. A source has at most two import lines, its types before its other names. So what the import lines of a record say
is the record again.

* `ImportRecord.entries_use`, `ImportRecord.packages_use`: what one use does;
* `ImportRecord.keys_ofUses`, `ImportRecord.mem_entries_ofUses`: what is recorded of some uses;
* `ImportRecord.render_eq`: the statements of a record are its import lines;
* `ImportRecord.ordered_lines`, `ImportRecord.perm_lines`: what its import lines say;
* `ImportRecord.isFaithful_ofUses`: the record, its packages and its import lines as they are read;
* `ImportRecord.not_isFaithful_ofUses_accented`: not so for an identifier that is not of word characters.
-/

import AnimationCode.Import.Record
import AnimationCode.Proofs.Account
import AnimationCode.Proofs.Import.Document
import AnimationCode.Proofs.Optimize.Text
import AnimationCode.Value.Printer

namespace AnimationCode

namespace ImportEntry

/-- What an entry names: a source, and a name of it. -/
def key (entry : ImportEntry) : String × String := (entry.source, entry.name)

/-- A use of an identifier, of word characters and dollar signs, from a source without quotes, as a value or as a type. -/
structure IsPlain (entry : ImportEntry) : Prop where
  isModule : ImportLine.IsModule entry.source.toList
  nonempty : entry.name ≠ ""
  parts : ∀ c ∈ entry.name.toList, Text.isNamePart c = true
  braced : entry.mode ≠ .whole

end ImportEntry

/-- What a line imports between its braces. -/
def ImportLine.entries (line : ImportLine) : List ImportEntry :=
  line.named.map fun name => ⟨line.source, name, if line.typeOnly then .typed else .named⟩

namespace ImportRecord

variable {uses : List ImportEntry} {entry : ImportEntry} {record : ImportRecord}

/-- The package of a source: the one that is known, or else the source itself. -/
def packageOf (source : String) : String := (knownPackages.lookup source).getD source

/-- The record after some uses, one after another. -/
def ofUses (uses : List ImportEntry) : ImportRecord :=
  uses.foldl (fun record entry => record.use entry.source entry.name entry.mode) empty

/-- An entry is the first of some uses that names what it names. -/
def IsFirstUse (uses : List ImportEntry) (entry : ImportEntry) : Prop :=
  uses.find? (fun use => use.key == entry.key) = some entry

/-! ### One use -/

theorem has_iff : record.has entry.source entry.name = true ↔ entry.key ∈ record.entries.map ImportEntry.key := by
  simp [has, ImportEntry.key, List.mem_map, List.any_eq_true]

theorem entries_use (record : ImportRecord) (entry : ImportEntry) : (record.use entry.source entry.name entry.mode).entries =
    if entry.key ∈ record.entries.map ImportEntry.key then record.entries else record.entries ++ [entry] := by
  have added : (record.add entry.source entry.name entry.mode).entries =
      if entry.key ∈ record.entries.map ImportEntry.key then record.entries else record.entries ++ [entry] := by
    unfold add
    by_cases known : record.has entry.source entry.name = true
    · rw [if_pos known, if_pos (has_iff.mp known)]
    · rw [if_neg known, if_neg (mt has_iff.mpr known)]
  unfold use
  dsimp only
  split <;> exact added

theorem packages_use (record : ImportRecord) (entry : ImportEntry) :
    (record.use entry.source entry.name entry.mode).packages = tell record.packages (packageOf entry.source) := by
  have added : (record.add entry.source entry.name entry.mode).packages = record.packages := by
    unfold add
    split <;> rfl
  have listed : (record.use entry.source entry.name entry.mode).packages =
      if record.packages.contains (packageOf entry.source) then record.packages
      else record.packages ++ [packageOf entry.source] := by
    unfold use packageOf
    dsimp only
    rw [added]
    split
    · exact added
    · rfl
  rw [listed, tell]
  simp only [List.contains_iff_mem]

theorem ofUses_concat (uses : List ImportEntry) (entry : ImportEntry) :
    ofUses (uses ++ [entry]) = (ofUses uses).use entry.source entry.name entry.mode := List.foldl_concat ..

/-! ### A run of uses -/

/-- Nothing that is recorded leaves its place. -/
theorem entries_ofUses_prefix (before after : List ImportEntry) :
    (ofUses before).entries <+: (ofUses (before ++ after)).entries := by
  induction after using List.reverseRecOn with
  | nil => rw [List.append_nil]
  | append_singleton after entry ih =>
    rw [← List.append_assoc, ofUses_concat, entries_use]
    split
    · exact ih
    · exact ih.trans (List.prefix_append _ _)

/-- Each name of a source is recorded once, in the order of the first uses. -/
theorem keys_ofUses (uses : List ImportEntry) :
    (ofUses uses).entries.map ImportEntry.key = tellAll [] (uses.map ImportEntry.key) := by
  induction uses using List.reverseRecOn with
  | nil => rfl
  | append_singleton uses entry ih =>
    rw [ofUses_concat, entries_use, List.map_append, List.map_singleton, tellAll_concat, ← ih, tell]
    split
    · rfl
    · rw [List.map_append, List.map_singleton]

theorem nodup_keys_ofUses (uses : List ImportEntry) : ((ofUses uses).entries.map ImportEntry.key).Nodup := by
  rw [keys_ofUses]
  exact nodup_tellAll List.nodup_nil _

theorem packages_ofUses (uses : List ImportEntry) :
    (ofUses uses).packages = tellAll [] (uses.map fun entry => packageOf entry.source) := by
  induction uses using List.reverseRecOn with
  | nil => rfl
  | append_singleton uses entry ih =>
    rw [ofUses_concat, packages_use, ih, List.map_append, List.map_singleton, tellAll_concat]

/-- The sources stand in the order of their first use. -/
theorem sources_ofUses (uses : List ImportEntry) : (ofUses uses).sources = tellAll [] (uses.map ImportEntry.source) := by
  have sources_ (entries : List ImportEntry) : entries.map ImportEntry.source = (entries.map ImportEntry.key).map Prod.fst :=
    (List.map_map (f := ImportEntry.key) (g := Prod.fst)).symm
  calc (ofUses uses).sources = tellAll [] ((ofUses uses).entries.map ImportEntry.source) := eraseDups_eq_tellAll _
    _ = tellAll [] ((tellAll [] (uses.map ImportEntry.key)).map Prod.fst) := by rw [sources_, keys_ofUses]
    _ = tellAll [] (uses.map ImportEntry.source) := by rw [tellAll_map_tellAll, sources_]

/-- Recorded is what names something for the first time. -/
theorem mem_entries_ofUses : entry ∈ (ofUses uses).entries ↔ IsFirstUse uses entry := by
  have known (uses : List ImportEntry) (key : String × String) :
      key ∈ (ofUses uses).entries.map ImportEntry.key ↔ ∃ use ∈ uses, use.key = key := by
    rw [keys_ofUses, mem_tellAll, or_iff_right List.not_mem_nil, List.mem_map]
  induction uses using List.reverseRecOn with
  | nil => exact iff_of_false List.not_mem_nil nofun
  | append_singleton uses last ih =>
    have found : IsFirstUse (uses ++ [last]) entry ↔ entry ∈ (ofUses uses).entries ∨
        (∀ earlier ∈ uses, ¬ (earlier.key == entry.key) = true) ∧
          (if last.key == entry.key then some last else none) = some entry := by
      rw [IsFirstUse, List.find?_append, Option.or_eq_some_iff, List.find?_singleton, List.find?_eq_none]
      exact or_congr_left ih.symm
    rw [ofUses_concat, entries_use, found]
    split
    · rename_i again
      refine (or_iff_left fun ⟨new, last_⟩ => ?_).symm
      obtain ⟨earlier, among, same⟩ := (known uses last.key).mp again
      split at last_
      · rename_i named
        exact new earlier among (by simpa [same] using named)
      · cases last_
    · rename_i fresh
      rw [List.mem_append, List.mem_singleton]
      refine or_congr_right ⟨?_, fun ⟨_, last_⟩ => ?_⟩
      · rintro rfl
        exact ⟨fun earlier among named => fresh ((known uses entry.key).mpr ⟨earlier, among, beq_iff_eq.mp named⟩),
          if_pos (beq_self_eq_true _)⟩
      · split at last_
        · exact (Option.some.inj last_).symm
        · cases last_

/-! ### The import lines of a record -/

/-- The line of the names of a source that are imported in a mode. -/
def lineOf (record : ImportRecord) (source : String) (mode : ImportMode) : ImportLine :=
  ⟨0, 0, source, none, record.namesOf source mode, mode == .typed⟩

/-- The import lines of a source: that of its types, and that of its other names. -/
def linesOf (record : ImportRecord) (source : String) : List ImportLine :=
  [record.lineOf source .typed, record.lineOf source .named].filter fun line => !line.named.isEmpty

/-- The import lines of a record. -/
def lines (record : ImportRecord) : List ImportLine := record.sources.flatMap record.linesOf

/-- The text of the import statements, each on a line of its own. -/
def text (record : ImportRecord) : List Char := ("\n".intercalate record.render).toList

theorem mem_linesOf {source : String} {line : ImportLine} : line ∈ record.linesOf source ↔
    line.named ≠ [] ∧ (line = record.lineOf source .typed ∨ line = record.lineOf source .named) := by
  simp [linesOf, and_comm]

/-- A line of a record is that of a source and a mode. -/
theorem exists_of_mem_lines {line : ImportLine} (member : line ∈ record.lines) : line.named ≠ [] ∧
    ∃ source ∈ record.sources, ∃ mode ≠ ImportMode.whole, line = record.lineOf source mode := by
  obtain ⟨source, known, among⟩ := List.mem_flatMap.mp member
  obtain ⟨some_, same | same⟩ := mem_linesOf.mp among
  · exact ⟨some_, source, known, .typed, by decide, same⟩
  · exact ⟨some_, source, known, .named, by decide, same⟩

theorem mem_namesOf {source name : String} {mode : ImportMode} :
    name ∈ record.namesOf source mode ↔ ⟨source, name, mode⟩ ∈ record.entries := by
  simp only [namesOf, List.mem_map, List.mem_filter, Bool.and_eq_true, beq_iff_eq]
  constructor
  · rintro ⟨entry, ⟨member, rfl, rfl⟩, rfl⟩
    exact member
  · exact fun member => ⟨_, ⟨member, rfl, rfl⟩, rfl⟩

/-- A line says which entries there are of its source in its mode. -/
theorem entries_lineOf (source : String) {mode : ImportMode} (braced : mode ≠ .whole) : (record.lineOf source mode).entries =
    record.entries.filter fun entry => entry.source == source && entry.mode == mode := by
  have mode_ : (if mode == .typed then .typed else .named) = mode := by
    cases mode
    · rfl
    · exact absurd rfl braced
    · rfl
  rw [ImportLine.entries, lineOf, namesOf, List.map_map]
  refine (List.map_congr_left fun entry member => ?_).trans (List.map_id _)
  obtain ⟨-, kept⟩ := List.mem_filter.mp member
  obtain ⟨rfl, rfl⟩ : entry.source = source ∧ entry.mode = mode := by simpa using kept
  exact congrArg (ImportEntry.mk entry.source entry.name) mode_

/-- The statements of a record are its import lines. -/
theorem render_eq (braced : ∀ entry ∈ record.entries, entry.mode ≠ .whole) : record.render = record.lines.map ImportLine.render := by
  have written (source : String) (mode : ImportMode) (keyword : String)
      (known : keyword = if mode == .typed then "import type " else "import ") :
      statement keyword [] (record.namesOf source mode) source =
        ([record.lineOf source mode].filter fun line => !line.named.isEmpty).map ImportLine.render := by
    cases names : record.namesOf source mode with
    | nil => simp [statement, lineOf, names]
    | cons name rest =>
      simp [statement, lineOf, names, ImportLine.render, ImportLine.binds, ImportLine.clauseText, known]
  have none_ (source : String) : record.namesOf source .whole = [] := by
    rw [List.eq_nil_iff_forall_not_mem]
    exact fun name member => braced _ (mem_namesOf.mp member) rfl
  rw [render, lines, List.map_flatMap]
  refine List.flatMap_congr fun source _ => ?_
  rw [none_, written source .typed "import type " rfl, written source .named "import " rfl, ← List.map_append,
    ← List.filter_append]
  rfl

theorem text_eq (braced : ∀ entry ∈ record.entries, entry.mode ≠ .whole) :
    record.text = Imports.document (record.lines.map .statement) := by
  rw [text, String.toList_intercalate, render_eq braced, Imports.document, List.map_map, List.map_map]
  rfl

/-! ### What the lines say -/

/-- A line stands before another if its source was used first, or if it has the types of the same source. -/
def StandsBefore (uses : List ImportEntry) (first second : ImportLine) : Prop :=
  let sources := uses.map ImportEntry.source
  sources.idxOf first.source < sources.idxOf second.source ∨
    first.source = second.source ∧ first.typeOnly = true ∧ second.typeOnly = false

/-- Import lines that say what was recorded of some uses: each entry once, on a line of its source and its mode, and nothing
else. -/
structure IsListing (uses entries : List ImportEntry) (lines : List ImportLine) : Prop where
  perm : (lines.flatMap ImportLine.entries).Perm entries
  braced : ∀ line ∈ lines, line.default? = none ∧ line.named ≠ []
  ordered : lines.Pairwise (StandsBefore uses)

/-- A line without its place. -/
def placeless (line : ImportLine) : ImportLine := { line with start := 0, stop := 0 }

theorem IsListing.of_placeless {entries : List ImportEntry} {lines : List ImportLine}
    (listing : IsListing uses entries (lines.map placeless)) : IsListing uses entries lines where
  perm := by
    have said := listing.perm
    rwa [List.flatMap_map] at said
  braced := List.forall_mem_map.mp listing.braced
  ordered := by
    have before := listing.ordered
    rwa [List.pairwise_map] at before

/-- The lines stand in the order of the first uses of their sources. -/
theorem ordered_lines : (ofUses uses).lines.Pairwise (StandsBefore uses) := by
  refine List.pairwise_flatMap.mpr ⟨fun source _ => List.Pairwise.filter _ ?_, ?_⟩
  · exact List.pairwise_pair.mpr (.inr ⟨rfl, rfl, rfl⟩)
  · have source_ {source : String} {line : ImportLine} (member : line ∈ (ofUses uses).linesOf source) :
        line.source = source := by
      obtain ⟨-, rfl | rfl⟩ := mem_linesOf.mp member <;> rfl
    rw [sources_ofUses]
    refine (pairwise_tellAll _).imp fun before first here second there => .inl ?_
    rwa [source_ here, source_ there]

/-- No two lines have an entry in common. -/
theorem disjoint_of_standsBefore {first second : ImportLine} (before : StandsBefore uses first second) :
    first.entries.Disjoint second.entries := by
  intro entry here there
  obtain ⟨_, -, rfl⟩ := List.mem_map.mp here
  obtain ⟨_, -, same⟩ := List.mem_map.mp there
  obtain ⟨source, -, mode⟩ := ImportEntry.mk.inj same
  rcases before with earlier | ⟨-, types, others⟩
  · rw [source] at earlier
    exact absurd earlier (Nat.lt_irrefl _)
  · simp [types, others] at mode

/-- Each entry stands on one line, once. -/
theorem perm_lines (braced : ∀ entry ∈ (ofUses uses).entries, entry.mode ≠ .whole) :
    ((ofUses uses).lines.flatMap ImportLine.entries).Perm (ofUses uses).entries := by
  have once : (ofUses uses).entries.Nodup := List.Nodup.of_map _ (nodup_keys_ofUses uses)
  have each {line : ImportLine} (member : line ∈ (ofUses uses).lines) :
      ∃ keeps, line.entries = (ofUses uses).entries.filter keeps := by
    obtain ⟨-, source, -, mode, braced, rfl⟩ := exists_of_mem_lines member
    exact ⟨_, entries_lineOf source braced⟩
  have said : ((ofUses uses).lines.flatMap ImportLine.entries).Nodup := by
    refine List.nodup_flatMap.mpr ⟨fun line member => ?_, ordered_lines.imp disjoint_of_standsBefore⟩
    obtain ⟨keeps, same⟩ := each member
    exact same ▸ once.filter keeps
  refine (List.perm_ext_iff_of_nodup said once).mpr fun entry => ⟨fun member => ?_, fun member => ?_⟩
  · obtain ⟨line, known, inside⟩ := List.mem_flatMap.mp member
    obtain ⟨keeps, same⟩ := each known
    exact List.mem_of_mem_filter (same ▸ inside)
  · have inside : entry ∈ ((ofUses uses).lineOf entry.source entry.mode).entries := by
      rw [entries_lineOf _ (braced entry member)]
      simpa using member
    refine List.mem_flatMap.mpr ⟨_, List.mem_flatMap.mpr ⟨entry.source, ?_, mem_linesOf.mpr ⟨?_, ?_⟩⟩, inside⟩
    · rw [ImportRecord.sources, List.mem_eraseDups]
      exact List.mem_map_of_mem member
    · exact List.ne_nil_of_mem (mem_namesOf.mpr member)
    · cases mode : entry.mode with
      | typed => exact .inl rfl
      | named => exact .inr rfl
      | whole => exact absurd mode (braced entry member)

/-! ### Reading the lines -/

/-- An identifier is the one word of its text. -/
theorem isSpecifier_of_isNamePart {name : List Char} (some_ : name ≠ []) (parts : ∀ c ∈ name, Text.isNamePart c = true) :
    ImportLine.IsSpecifier name := by
  have part {c : Char} (member : c ∈ name) : Text.isWord c = true ∨ c = '$' := by
    simpa [Text.isNamePart] using parts c member
  have solid : ∀ c ∈ name, Text.isBlank c = false := fun c member =>
    (part member).elim TextPass.isBlank_of_isWord fun sign => sign ▸ by decide
  have free {c sign : Char} (other : Text.isNamePart sign = false) (member : c ∈ name) : c ≠ sign := by
    rintro rfl
    rw [parts c member] at other
    cases other
  refine ⟨some_, ?_, fun c member => ⟨?_, free (by decide) member, free (by decide) member⟩⟩
  · rw [Text.squeeze, Text.IsWord.words ⟨some_, solid⟩, List.intercalate_singleton]
  · rcases part member with word | rfl
    · simp [ImportLine.isClausePart, word]
    · decide

section Plain

variable (plain : ∀ entry ∈ uses, entry.IsPlain)
include plain

theorem isPlain_of_mem_entries : ∀ entry ∈ (ofUses uses).entries, entry.IsPlain :=
  fun entry member => plain entry (List.mem_of_find?_eq_some (mem_entries_ofUses.mp member))

theorem isPlain_of_mem_lines : ∀ line ∈ (ofUses uses).lines, line.IsPlain := by
  intro line member
  obtain ⟨some_, source, known, mode, -, rfl⟩ := exists_of_mem_lines member
  rw [sources_ofUses, mem_tellAll, or_iff_right List.not_mem_nil] at known
  obtain ⟨use, used, rfl⟩ := List.mem_map.mp known
  exact {
    source := (plain use used).isModule
    default := nofun
    named := fun name among => by
      have named := isPlain_of_mem_entries plain _ (mem_namesOf.mp among)
      exact isSpecifier_of_isNamePart (by simpa using named.nonempty) named.parts
    typed := fun _ => by simpa [ImportLine.binds] using Or.inl some_
    untyped := nofun }

/-- The lines that are read say what was recorded. -/
theorem isListing_readAll : IsListing uses (ofUses uses).entries (ImportLine.readAll (ofUses uses).text) := by
  have braced : ∀ entry ∈ (ofUses uses).entries, entry.mode ≠ .whole :=
    fun entry member => (isPlain_of_mem_entries plain entry member).braced
  have written : ∀ piece ∈ (ofUses uses).lines.map Imports.Piece.statement, piece.IsWritten :=
    List.forall_mem_map.mpr (isPlain_of_mem_lines plain)
  have same : (Imports.placed 0 ((ofUses uses).lines.map .statement)).map placeless = (ofUses uses).lines := by
    rw [Imports.map_placed fun _ _ _ => rfl, Imports.statements_map]
    refine (List.map_congr_left fun line member => ?_).trans (List.map_id _)
    obtain ⟨-, source, -, mode, -, rfl⟩ := exists_of_mem_lines member
    rfl
  rw [text_eq braced, Imports.readAll_document written]
  refine IsListing.of_placeless ?_
  rw [same]
  refine ⟨perm_lines braced, fun line member => ?_, ordered_lines⟩
  obtain ⟨some_, source, -, mode, -, rfl⟩ := exists_of_mem_lines member
  exact ⟨rfl, some_⟩

end Plain

/-- What a record is after some uses: it has all that was recorded before, in its place, each name of a source once, as it was
first used, and the packages of the sources; and its import lines are read as what is recorded. -/
structure IsFaithful (record : ImportRecord) (uses : List ImportEntry) : Prop where
  appends : ∀ earlier, earlier <+: uses → (ofUses earlier).entries <+: record.entries
  once : (record.entries.map ImportEntry.key).Nodup
  first : ∀ entry, entry ∈ record.entries ↔ IsFirstUse uses entry
  packages : record.packages = (uses.map fun entry => packageOf entry.source).eraseDups
  listed : IsListing uses record.entries (ImportLine.readAll record.text)

/-- **A record is faithful to the uses of names, whatever their order.** -/
theorem isFaithful_ofUses (plain : ∀ entry ∈ uses, entry.IsPlain) : IsFaithful (ofUses uses) uses where
  appends := by
    rintro earlier ⟨later, rfl⟩
    exact entries_ofUses_prefix earlier later
  once := nodup_keys_ofUses uses
  first _ := mem_entries_ofUses
  packages := (packages_ofUses uses).trans (eraseDups_eq_tellAll _).symm
  listed := isListing_readAll plain

/-- A name of three sources, two of them of one package, and a name that is used as a value and again as a type. -/
def severalUses : List ImportEntry := [
  ⟨"framer-motion", "motion", .named⟩, ⟨"react", "ReactNode", .typed⟩, ⟨"motion/react", "motion", .named⟩,
  ⟨"framer-motion", "motion", .typed⟩, ⟨"motion", "motion", .named⟩, ⟨"react", "$state", .named⟩,
  ⟨"framer-motion", "Variants", .typed⟩]

theorem isFaithful_ofUses_several :
    (∀ entry ∈ severalUses, entry.IsPlain) ∧ IsFaithful (ofUses severalUses) severalUses := by
  have checked : ∀ entry ∈ severalUses, (entry.source.toList ≠ [] ∧ ∀ c ∈ entry.source.toList, ImportLine.isQuote c = false) ∧
      entry.name ≠ "" ∧ (∀ c ∈ entry.name.toList, Text.isNamePart c = true) ∧ entry.mode ≠ .whole := by
    decide +kernel
  have plain : ∀ entry ∈ severalUses, entry.IsPlain := fun entry member =>
    let ⟨isModule, nonempty, parts, braced⟩ := checked entry member
    ⟨isModule, nonempty, parts, braced⟩
  exact ⟨plain, isFaithful_ofUses plain⟩

/-- A name with a combining mark: an identifier, but not of word characters. -/
def accentedUses : List ImportEntry := [⟨"m", "e\u0301tat", .named⟩]

/-- The import line of a name with a combining mark is not read back. -/
theorem not_isFaithful_ofUses_accented :
    ImportLine.readAll (ofUses accentedUses).text = [] ∧ ¬ IsFaithful (ofUses accentedUses) accentedUses := by
  have unread : ImportLine.readAll (ofUses accentedUses).text = [] := by decide +kernel
  refine ⟨unread, fun faithful => ?_⟩
  have listed := faithful.listed.perm
  rw [unread] at listed
  exact List.cons_ne_nil _ _ listed.nil_eq.symm

end ImportRecord

end AnimationCode
