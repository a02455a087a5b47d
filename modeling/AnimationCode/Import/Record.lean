/-
**What generated code imports.**

Names are recorded in the order of their first use and never leave the record. A name of a source is
recorded once, in the way in which it was first used.

* `motionSources`: the modules of the animation libraries;
* `packageOf?`: the package that a module belongs to;
* `ImportRecord.add`: one more name;
* `ImportRecord.use`: one more name together with the package of its source;
* `ImportRecord.render`: the import statements, the type-only one of each source first.
-/

import AnimationCode.Text.Blank

namespace AnimationCode

/-- The modules of the animation libraries. -/
def motionSources : List String :=
  ["framer-motion", "motion", "motion/react", "@vueuse/motion", "motion-v"]

/-- The packages that the known modules belong to. -/
def knownPackages : List (String × String) := [
  ("framer-motion", "framer-motion"), ("motion", "motion"), ("motion/react", "motion"),
  ("motion-v", "motion-v"), ("@vueuse/motion", "@vueuse/motion"), ("react", "react"),
  ("vue", "vue")]

/-- The package that a module belongs to: its name up to the first slash, or up to the second if it has
a scope. A file of the project belongs to none. -/
def packageOf? (source : String) : Option String :=
  if source.startsWith "." || source.startsWith "/" then none
  else match knownPackages.lookup source with
    | some package_ => some package_
    | none =>
      let parts := Text.splitAt '/' source.toList
      let kept := if source.startsWith "@" then 2 else 1
      some (String.ofList (List.intercalate ['/'] (parts.take kept)))

/-- How a name is imported. -/
inductive ImportMode where
  | named | whole | typed
deriving DecidableEq, Repr, Inhabited

/-- A name of a source and how it is imported. -/
structure ImportEntry where
  source : String
  name : String
  mode : ImportMode
deriving DecidableEq, Repr, Inhabited

/-- The names recorded and the packages that they need. -/
structure ImportRecord where
  entries : List ImportEntry
  packages : List String
deriving DecidableEq, Repr, Inhabited

namespace ImportRecord

/-- Nothing recorded. -/
def empty : ImportRecord := ⟨[], []⟩

/-- Whether a name of a source is recorded. -/
def has (record : ImportRecord) (source name : String) : Bool :=
  record.entries.any fun entry => entry.source == source && entry.name == name

/-- Records a name unless it is recorded. -/
def add (record : ImportRecord) (source name : String) (mode : ImportMode) : ImportRecord :=
  if record.has source name then record
  else { record with entries := record.entries ++ [⟨source, name, mode⟩] }

/-- Records a name and the package of its source. -/
def use (record : ImportRecord) (source name : String) (mode : ImportMode) : ImportRecord :=
  let package_ := (knownPackages.lookup source).getD source
  let added := record.add source name mode
  if added.packages.contains package_ then added
  else { added with packages := added.packages ++ [package_] }

/-- The sources in the order of their first use. -/
def sources (record : ImportRecord) : List String := (record.entries.map (·.source)).eraseDups

/-- The names of a source that are imported in a mode. -/
def namesOf (record : ImportRecord) (source : String) (mode : ImportMode) : List String :=
  (record.entries.filter fun entry => entry.source == source && entry.mode == mode).map (·.name)

/-- The import statement of a source from its keyword, its defaults and its braced names. -/
def statement (keyword : String) (defaults named : List String) (source : String) : List String :=
  let braced := if named.isEmpty then [] else ["\x7b " ++ ", ".intercalate named ++ " \x7d"]
  if defaults.isEmpty && named.isEmpty then []
  else [keyword ++ ", ".intercalate (defaults ++ braced) ++ " from '" ++ source ++ "';"]

/-- The import statements. -/
def render (record : ImportRecord) : List String :=
  record.sources.flatMap fun source =>
    statement "import type " [] (record.namesOf source .typed) source ++
      statement "import " (record.namesOf source .whole) (record.namesOf source .named) source

end ImportRecord

end AnimationCode
