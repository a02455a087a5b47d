/-
**Names with properties and arguments after them.**

* `callNode`, `memberNode`: the nodes of a call and of a property;
* `follows_arguments`, `follows_property`: what one suffix builds;
* `exists_built`: what a list of suffixes builds, each on what those before it built;
* `takes_chained`: a name with suffixes as an expression.
-/

import AnimationCode.Proofs.Script.Object

namespace AnimationCode

namespace Script

open Reader Expression

/-! ### Suffixes -/

/-- The signs of suffixes: a statement does not end before them on its line. -/
theorem statementEnds_suffix {c : Char} (suffix : c ∈ ['(', '.', ';']) (typed afterOperand : Bool)
    (rest : List Char) : statementEnds typed afterOperand (c :: rest) = false := by
  simp only [List.mem_cons, List.not_mem_nil, or_false] at suffix
  rcases suffix with rfl | rfl | rfl <;> cases typed <;> rfl

/-- A call: what is called, and the arguments from their bracket on. -/
def callNode (role : Role) (start bracket stop : Nat) (callee : Node) (arguments : List Node) : Node :=
  .mk .call role ⟨start, stop⟩
    [callee.as .callee, .mk .arguments .arguments ⟨bracket, stop⟩ arguments]

/-- A property: what it is taken from, and its name. -/
def memberNode (start place length : Nat) (object : Node) : Node :=
  .mk .member .plain ⟨start, place + length⟩ [object.as .object, (leaf .propertyName place length).as .property]

/-- A suffix of an operand: a property, or the arguments of a call. -/
inductive Suffix where
  | property (name : List Char)
  | arguments (items : List Item)

namespace Suffix

/-- The text of a suffix. -/
def text : Suffix → List Char
  | property name => '.' :: name
  | arguments items => '(' :: (commaText items ++ [')'])

/-- What a suffix makes of a node, given the offset of its text. -/
def Builds (suffix : Suffix) (build : Node → Nat → Node) : Prop :=
  match suffix with
  | property name => build = fun base n => memberNode base.span.start (n + 1) name.length base
  | arguments items => ∃ nodes, Lays items nodes ∧ build = fun base n =>
    callNode .plain base.span.start n (n + (arguments items).text.length) base (nodes (n + 1))

/-- The words and the items of a suffix can be read. -/
def IsReadable (suffix : Suffix) (rule : Grammar) (d : Dialect) : Prop :=
  match suffix with
  | property name => IsWord name
  | arguments items => (∀ item ∈ items, Readable (firstOf [spread rule, rule (.expression false)]) d item) ∧
    ∀ rest, Refuses (firstOf [spread rule, rule (.expression false)]) d (')' :: rest)

theorem exists_first (suffix : Suffix) : ∃ c rest, suffix.text = c :: rest ∧ c ∈ ['.', '('] := by
  cases suffix with
  | property name => exact ⟨'.', name, rfl, by decide⟩
  | arguments items => exact ⟨'(', _, rfl, by decide⟩

end Suffix

/-- The text of several suffixes. -/
def suffixText (suffixes : List Suffix) : List Char := suffixes.flatMap Suffix.text

/-- What several suffixes make of a node, given the offset of their text. -/
def Built : List Suffix → (Node → Nat → Node) → Prop
  | [], build => build = fun base _ => base
  | suffix :: rest, build => ∃ first others, suffix.Builds first ∧ Built rest others ∧
    build = fun base n => others (first base n) (n + suffix.text.length)

variable {rule : Grammar} {d : Dialect} {space after : List Char}

theorem endsName_suffixText (suffixes : List Suffix) (ends_ : EndsName after) :
    EndsName (suffixText suffixes ++ after) := by
  cases suffixes with
  | nil => exact ends_
  | cons suffix rest =>
    obtain ⟨c, more, text, sign⟩ := suffix.exists_first
    rw [suffixText, List.flatMap_cons, text]
    rintro e ⟨⟩
    have signs : ∀ e ∈ ['.', '('], isNameRest e = false ∧ e ≠ '\\' := by decide
    exact signs c sign

theorem follows_arguments {ends : Bool} {base : Node} {inner : List Char} {args : Nat → List Node}
    (takes : Takes (arguments rule) d ('(' :: inner) after fun n =>
      .mk .arguments .plain ⟨n, n + ('(' :: inner).length⟩ (args n)) :
    Follows (suffix rule ends base) d ('(' :: inner) after fun n =>
      callNode .plain base.span.start n (n + ('(' :: inner).length) base (args n) := by
  have solid : Solid ('(' :: (inner ++ after)) := solid_cons _ (by decide) (by decide)
  have noPoint : Refuses (signBut "." ".") d ('(' :: inner ++ after) :=
    refuses_signBut (s := []) blank_nil solid rfl
  unfold suffix
  refine follows_unlessEnded (fun _ => statementEnds_suffix (by decide) _ _ _) (Takes.follows ?_)
  refine noPoint.bind.takes_firstOf (Takes.firstOf ?_ _)
  refine (takes.bind (m := []) (b := fun n m => .mk .call .plain ⟨base.span.start, m⟩
    [base.as .callee, .mk .arguments .arguments ⟨n, n + ('(' :: inner).length⟩ (args n)])
    fun n => ?_).congr (List.append_nil _) fun _ => rfl
  exact follows_extend .call base _

theorem follows_property {ends : Bool} {base : Node} {name : List Char} (isWord : IsWord name) (ends_ : EndsName after) :
    Follows (suffix rule ends base) d ('.' :: name) after fun n =>
      memberNode base.span.start (n + 1) name.length base := by
  have solid : Solid ('.' :: (name ++ after)) := solid_cons _ (by decide) (by decide)
  have noSecond : ((name ++ after).head?.any fun c => ".".toList.contains c) = false := by
    obtain ⟨all, -, nonempty⟩ := isWord
    cases name with
    | nil => exact absurd rfl nonempty
    | cons c rest =>
      have other := (unopened_of_isNameRest (all c List.mem_cons_self)).2
      simpa using other
  have point : Takes (signBut "." ".") d ([] ++ ".".toList) (name ++ after) fun _ => () :=
    takes_signBut "." "." blank_nil solid noSecond
  have property : Takes (firstOf [anyName .propertyName,
      construct .propertyName (sign "#" *> anyName .propertyName *> pure [])]) d ([] ++ name) after
      fun n => leaf .propertyName n name.length :=
    (takes_anyName .propertyName blank_nil isWord ends_).firstOf _
  unfold suffix
  refine follows_unlessEnded (fun _ => statementEnds_suffix (by decide) _ _ _) (Takes.follows ?_)
  refine Takes.firstOf ?_ _
  refine point.bind (b := fun _ m => memberNode base.span.start m name.length base) fun _ => ?_
  refine (property.bind (m := []) (b := fun n m => .mk .member .plain ⟨base.span.start, m⟩
    [base.as .object, (leaf .propertyName n name.length).as .property]) fun n => ?_).follows.congr
    (List.append_nil _) fun _ => rfl
  exact follows_extend .member base _

/-! ### Several suffixes -/

theorem exists_builds (ends : Bool) {suffix_ : Suffix} (readable : suffix_.IsReadable rule d) (ends_ : EndsName after) :
    ∃ build, suffix_.Builds build ∧
      ∀ base, Follows (suffix rule ends base) d suffix_.text after (build base) := by
  cases suffix_ with
  | property name => exact ⟨_, rfl, fun base => follows_property readable ends_⟩
  | arguments items =>
    obtain ⟨reads, refuses⟩ := readable
    have solid : ∀ rest, Solid ("(".toList ++ rest) := fun rest => solid_cons rest (by decide) (by decide)
    have taken : ∃ nodes, Lays items nodes ∧
        Takes (Expression.arguments rule) d (Suffix.arguments items).text after fun n =>
          .mk .arguments .plain ⟨n, n + (Suffix.arguments items).text.length⟩ (nodes (n + 1)) := by
      rcases eq_or_ne items [] with rfl | some_
      · exact ⟨fun _ => [], fun _ => rfl, takes_enclosed_nil .arguments (refuses after) rfl (by decide)
          (by decide) blank_nil solid⟩
      · exact takes_enclosed .arguments some_ reads rfl (by decide) (by decide) blank_nil blank_nil solid
          after
    obtain ⟨nodes, laid, takes⟩ := taken
    exact ⟨_, ⟨nodes, laid, rfl⟩, fun base => follows_arguments takes⟩

theorem exists_built (ends : Bool) {suffixes : List Suffix} (readable : ∀ suffix ∈ suffixes, suffix.IsReadable rule d)
    (lacks : Lacks suffixMarks after) (ends_ : EndsName after) :
    ∃ build, Built suffixes build ∧
      ∀ base, Grows (suffix rule ends) d (suffixText suffixes) after base (build base) := by
  induction suffixes with
  | nil => exact ⟨_, rfl, fun base => (refuses_suffix lacks base).grows⟩
  | cons suffix_ rest ih =>
    obtain ⟨others, builtRest, grows⟩ := ih fun other member =>
      readable other (List.mem_cons_of_mem _ member)
    obtain ⟨first, builds, follows⟩ := exists_builds ends
      (readable suffix_ List.mem_cons_self) (endsName_suffixText rest ends_)
    refine ⟨_, ⟨first, others, builds, builtRest, rfl⟩, fun base => ?_⟩
    obtain ⟨c, more, text, -⟩ := suffix_.exists_first
    have moves : suffix_.text ≠ [] := by
      rw [text]
      exact List.cons_ne_nil c more
    exact (follows base).grows moves fun n => grows (first base n)

/-- A name with suffixes, as an operand. -/
theorem takes_suffixed_chain (ends : Bool) {name : List Char} (isIdentifier : IsIdentifier name) {first : Suffix}
    {others : List Suffix} (readable : ∀ suffix ∈ first :: others, suffix.IsReadable rule d)
    (blank : Blank space) (lacks : Lacks suffixMarks after) (ends_ : EndsName after) :
    ∃ build, Built (first :: others) build ∧
      Takes (suffixed rule ends) d (space ++ (name ++ suffixText (first :: others))) after fun n =>
        build (leaf .identifier (n + space.length) name.length) (n + space.length + name.length) := by
  obtain ⟨build, built, grows⟩ := exists_built ends readable lacks ends_
  have follow := endsName_suffixText (first :: others) ends_
  have noArrow : Lacks [("=>", "")] (suffixText (first :: others) ++ after) := by
    obtain ⟨c, more, text, sign⟩ := first.exists_first
    have signs : ∀ e ∈ ['.', '('], isSpace e = false ∧ e ≠ '/' ∧ '=' ≠ e := by decide
    obtain ⟨plain, slash, other⟩ := signs c sign
    rw [suffixText, List.flatMap_cons, text, List.cons_append, List.cons_append] at follow ⊢
    refine lacks_of_all blank_nil (solid_cons _ plain slash) follow ?_
    rw [List.all_cons, List.all_nil, Bool.and_true, begins,
      show "=>".toList = ['=', '>'] from rfl, startsWith_cons_of_ne _ _ other]
    rfl
  refine ⟨build, built, ?_⟩
  have takesName : Takes (primary rule ends) d (space ++ name) _ _ :=
    takes_identifier isIdentifier blank follow noArrow
  refine (takes_suffixed takesName (fun _ same => by cases same) (fun n => grows _) lacks).congr
    (List.append_assoc _ _ _) fun n => ?_
  rw [List.length_append, ← Nat.add_assoc]

/-- A name with suffixes, as an expression. -/
theorem takes_chained (ends : Bool) {name : List Char} (isIdentifier : IsIdentifier name) {first : Suffix}
    {others : List Suffix} (readable : ∀ suffix ∈ first :: others, suffix.IsReadable rule d)
    (blank : Blank space) (stops : Stops after) :
    ∃ build, Built (first :: others) build ∧
      Takes (single rule ends) d (space ++ (name ++ suffixText (first :: others))) after fun n =>
        build (leaf .identifier (n + space.length) name.length) (n + space.length + name.length) := by
  obtain ⟨build, built, takes⟩ := takes_suffixed_chain ends isIdentifier readable blank
    stops.suffix stops.endsName
  have follow := endsName_suffixText (first :: others) stops.endsName
  obtain ⟨isPlain, word⟩ := isIdentifier.plain follow
  rw [← List.append_assoc] at isPlain word
  exact ⟨build, built, takes_single_of_suffixed blank isPlain word takes stops⟩

/-- A name with suffixes, as an item among others. -/
def chainedItem (name : List Char) (suffixes : List Suffix) : Item where
  text := name ++ suffixText suffixes
  Fits := fun tree => ∃ build, Built suffixes build ∧
    tree = fun n => build (leaf .identifier n name.length) (n + name.length)

theorem readable_chained (ends : Bool) {name : List Char} (isIdentifier : IsIdentifier name) {first : Suffix}
    {others : List Suffix} (readable : ∀ suffix ∈ first :: others, suffix.IsReadable rule d) :
    Readable (single rule ends) d (chainedItem name (first :: others)) := by
  intro space after blank stops
  obtain ⟨build, built, takes⟩ := takes_chained ends isIdentifier readable blank stops
  exact ⟨_, ⟨build, built, rfl⟩, takes⟩

end Script

end AnimationCode
