/-
**Where elements lie.**

The place of an element is where its tag or its first call begins; what is read of it later does not move it. Lines and
columns count from one, except that the first line of a fragment leaves out what was put before it.

* `Markup.location?_of_motion`: the place of an animated element of markup;
* `Motion.IsPlaced`: an element whose place counts from one;
* `Source.isPlaced_read`: so are those of a source, unless it was read as a fragment.
-/

import AnimationCode.Proofs.Element.Lift
import AnimationCode.Proofs.Element.Reach

namespace AnimationCode

open Outcome

/-- A line and a column that count from one. -/
def Location.IsCounted (place : Location) : Prop := 1 ≤ place.line ∧ 1 ≤ place.column

theorem Location.isCounted_inBytes (text : List Char) (offset : Nat) : (Location.inBytes text offset).IsCounted :=
  ⟨Nat.succ_pos _, Nat.succ_pos _⟩

theorem LineIndex.isCounted_location (index : LineIndex) (offset : Nat) : (index.location offset).IsCounted :=
  ⟨Nat.succ_pos _, Nat.succ_pos _⟩

/-- An element whose place counts from one, if it has one. -/
def Motion.IsPlaced (motion : Motion) : Prop := ∀ place ∈ motion.location?, place.IsCounted

theorem Motion.isPlaced_of_some {motion : Motion} {place : Location} (same : motion.location? = some place)
    (counted : place.IsCounted) : motion.IsPlaced := by
  intro other member
  rw [same] at member
  exact Option.mem_some.mp member ▸ counted

/-- The motions of elements that have nothing inside. -/
theorem Forest.motions_leaves (motions : List Motion) : Forest.motions (motions.map fun motion => ⟨motion, []⟩) = motions := by
  induction motions with
  | nil => rfl
  | cons motion rest ih =>
    show motion :: Forest.motions _ = _
    rw [ih]

/-! ### Markup -/

namespace Markup

open Script (Node)

variable {fragment : Fragment}

theorem isCounted_location (whole : fragment.wrapped = 0) (node : Node) : (fragment.location node).IsCounted := by
  have counted := Location.isCounted_inBytes fragment.text node.span.start
  unfold Fragment.location
  dsimp only
  split
  · rw [whole, Nat.sub_zero]
    exact ⟨Nat.le_refl 1, counted.2⟩
  · exact counted

theorem location?_addAttribute (motion : Motion) (name : String) (value : Value) :
    (addAttribute motion name value).1.location? = motion.location? := by
  unfold addAttribute
  dsimp only
  split
  · split <;> rfl
  · split <;> rfl
  · rfl

theorem location?_addAttributes {nodes : List Node} {motion drawn : Motion} {warnings said : List String}
    (done : addAttributes fragment motion warnings nodes = .ok (drawn, said)) : drawn.location? = motion.location? := by
  induction nodes generalizing motion warnings with
  | nil =>
    cases done
    rfl
  | cons node rest ih =>
    obtain ⟨changed, more, adds, later⟩ := exists_adds done
    rw [ih later]
    cases adds with
    | titled title others value => exact location?_addAttribute motion _ value
    | spread => rfl
    | nothing => rfl

/-- The place of an animated element is that of its opening tag. -/
theorem location?_of_motion {node : Node} {own : Motion} {said : List String}
    (drawn : motion fragment node = .ok (some own, said)) :
    ∃ opening, openingTag? node = some opening ∧ own.location? = some (fragment.location opening) := by
  obtain ⟨opening, tag, read, opens, added, rfl⟩ := motion_eq_ok drawn
  exact ⟨opening, opens, location?_addAttributes added⟩

/-- The elements of a script that was read as it stands. -/
theorem isPlaced_of_extract {root : Node} {found : Found} (whole : fragment.wrapped = 0)
    (done : extract fragment root = .ok found) : ∀ motion ∈ found.elements.motions, motion.IsPlaced := by
  have placed (node : Node) (drawn : Motion) (draws : Draws fragment node drawn) : drawn.IsPlaced := by
    obtain ⟨own, said, made, same⟩ := draws
    obtain ⟨opening, -, place⟩ := location?_of_motion made
    rw [same]
    exact Motion.isPlaced_of_some place (isCounted_location whole opening)
  have all : List.Forall₂ (fun drawn node => drawn.IsPlaced ∧ Draws fragment node drawn) found.elements.motions
      (reached fragment root) := (forall₂_reached done).flip.imp fun drawn node draws => ⟨placed node drawn draws, draws⟩
  exact ((List.forall₂_and_left _ _).mp all).1

end Markup

/-! ### Calls -/

namespace Calls

open Script (Node)

variable {source : List Char}

/-- A call that animates, if a node is one, lies where it begins. -/
def Recognition.IsPlaced (recognition : Recognition) : Prop :=
  ∀ call, recognition = .call call → call.location.IsCounted

theorem yields_recognize (source : List Char) (known : Fields String) (node : Node) (ancestors : List Node) :
    Yields Recognition.IsPlaced (recognize source known node ancestors) := by
  have none_ : Recognition.IsPlaced .none := nofun
  unfold recognize
  refine yields_ite (fun _ => ?_) fun _ => yields_ok none_
  split
  · rename_i target frames others _
    refine yields_bind fun value => ?_
    split
    · cases others
      -- the place does not depend on the options
      all_goals
        refine yields_bind fun options => yields_bind fun phase => ?_
        split
        · exact yields_ok nofun
        · have placed (call : Recognized) (counted : call.location.IsCounted) : Recognition.IsPlaced (.call call) :=
            fun other same => Recognition.call.inj same ▸ counted
          cases known.get? (String.ofList (target.text source)) with
          | none => exact yields_bind fun _ => yields_ok (placed _ (Location.isCounted_inBytes _ _))
          | some selector =>
            exact yields_ite (fun _ => yields_bind fun _ => yields_ok (placed _ (Location.isCounted_inBytes _ _)))
              fun _ => yields_ok (placed _ (Location.isCounted_inBytes _ _))
    · exact yields_ok none_
  · exact yields_ok none_

theorem yields_recognizeAll (source : List Char) (known : Fields String) (nodes : List (Node × List Node)) :
    Yields (fun recognitions => ∀ recognition ∈ recognitions, recognition.IsPlaced) (recognizeAll source known nodes) := by
  induction nodes with
  | nil => exact yields_ok (List.forall_mem_nil _)
  | cons entry rest ih =>
    obtain ⟨node, ancestors⟩ := entry
    rw [recognizeAll]
    exact (yields_recognize source known node ancestors).bind fun here placed =>
      ih.bind fun others later => yields_ok (List.forall_mem_cons.mpr ⟨placed, later⟩)

theorem isPlaced_startMotion {call : Recognized} (counted : call.location.IsCounted) : (startMotion call).IsPlaced := by
  unfold startMotion
  dsimp only
  split
  · split <;> exact Motion.isPlaced_of_some rfl counted
  · exact Motion.isPlaced_of_some rfl counted

theorem mem_values_set {α : Type} {fields : Fields α} {name : String} {value other : α}
    (member : other ∈ (fields.set name value).values) : other = value ∨ other ∈ fields.values := by
  induction fields with
  | nil => exact .inl (List.mem_singleton.mp member)
  | cons field rest ih =>
    obtain ⟨key, old⟩ := field
    rw [Fields.set] at member
    split at member
    · rcases List.mem_cons.mp member with same | later
      · exact .inl same
      · exact .inr (List.mem_cons_of_mem _ later)
    · rcases List.mem_cons.mp member with same | later
      · exact .inr (same ▸ List.mem_cons_self)
      · exact (ih later).imp_right (List.mem_cons_of_mem _)

/-- A group lies where its first call does. -/
theorem isPlaced_addCall {groups : Fields Group} {call : Recognized} (counted : call.location.IsCounted)
    (placed : ∀ group ∈ groups.values, group.motion.IsPlaced) :
    ∀ group ∈ (addCall groups call).values, group.motion.IsPlaced := by
  intro group member
  rcases mem_values_set member with rfl | before
  · show Motion.IsPlaced _
    have start : ((groups.get? call.target).getD ⟨startMotion call, []⟩).motion.IsPlaced := by
      cases known : groups.get? call.target with
      | none => exact isPlaced_startMotion counted
      | some group => exact placed group (List.mem_map_of_mem (Fields.mem_of_get? known))
    exact start
  · exact placed group before

theorem isPlaced_foldl (calls : List Recognized) {groups : Fields Group} (counted : ∀ call ∈ calls, call.location.IsCounted)
    (placed : ∀ group ∈ groups.values, group.motion.IsPlaced) :
    ∀ group ∈ (calls.foldl addCall groups).values, group.motion.IsPlaced := by
  induction calls generalizing groups with
  | nil => exact placed
  | cons call rest ih =>
    exact ih (fun other member => counted other (List.mem_cons_of_mem _ member))
      (isPlaced_addCall (counted call List.mem_cons_self) placed)

theorem isPlaced_close {group : Group} (placed : group.motion.IsPlaced) : group.close.IsPlaced := by
  unfold Group.close
  split <;> exact placed

/-- The elements of calls lie where their first calls begin. -/
theorem isPlaced_of_extract {root : Node} {found : Found} (done : extract source root = .ok found) :
    ∀ motion ∈ found.elements.motions, motion.IsPlaced := by
  unfold extract at done
  obtain ⟨known, -, done⟩ := Outcome.bind_eq_ok.mp done
  obtain ⟨recognitions, recognized, done⟩ := Outcome.bind_eq_ok.mp done
  cases done
  have placed := yields_recognizeAll source known _ recognitions recognized
  intro motion member
  rw [Forest.motions_leaves] at member
  obtain ⟨group, among, rfl⟩ := List.mem_map.mp (List.mem_of_mem_filter member)
  refine isPlaced_close (isPlaced_foldl _ (fun call member => ?_) (List.forall_mem_nil _) group among)
  obtain ⟨recognition, inside, same⟩ := List.mem_filterMap.mp member
  split at same
  · cases same
    exact placed _ inside call rfl
  · cases same

end Calls

/-! ### Templates -/

namespace TemplateMotion

theorem location?_addAttribute {carrier : Carrier} {place : Location} {motion read : Motion} {written : Template.Attribute}
    {said : List String} (done : addAttribute parse carrier place motion written = .ok (read, said)) :
    read.location? = motion.location? := by
  have yields : Yields (fun result => result.1.location? = motion.location?) (addAttribute parse carrier place motion written) := by
    unfold addAttribute
    dsimp only
    split
    · exact yields_ok rfl
    · refine yields_bind fun value => ?_
      split
      · exact yields_ok rfl
      · exact yields_ok rfl
      · exact yields_ite (fun _ => yields_ok rfl) fun _ => yields_ok rfl
    · exact yields_bind fun text => yields_ok rfl
    · exact yields_bind fun value => yields_ok rfl
  exact yields _ done

theorem location?_addAttributes {carrier : Carrier} {place : Location} {attributes : List Template.Attribute}
    {motion read : Motion} {warnings said : List String}
    (done : addAttributes parse carrier place motion warnings attributes = .ok (read, said)) :
    read.location? = motion.location? := by
  induction attributes generalizing motion warnings with
  | nil =>
    cases done
    rfl
  | cons written rest ih =>
    rw [addAttributes] at done
    obtain ⟨⟨middle, more⟩, one, later⟩ := Outcome.bind_eq_ok.mp done
    exact (ih later).trans (location?_addAttribute one)

theorem location?_lift {carrier : Carrier} {motion lifted : Motion} (done : lift carrier motion = .ok lifted) :
    lifted.location? = motion.location? := by
  unfold lift at done
  obtain ⟨_, -, made⟩ := Outcome.bind_eq_ok.mp done
  cases made
  rfl

theorem isPlaced_motion {index : LineIndex} {node : TemplateNode} {own : Motion} {said : List String}
    (done : motion parse index node = .ok (some own, said)) : own.IsPlaced := by
  unfold motion at done
  split at done
  · cases done
  · rename_i carrier _
    obtain ⟨⟨read, warnings⟩, added, later⟩ := Outcome.bind_eq_ok.mp done
    obtain ⟨lifted, up, made⟩ := Outcome.bind_eq_ok.mp later
    have place : lifted.location? = some (index.location node.start) := (location?_lift up).trans (location?_addAttributes added)
    split at made
    · cases made
    · cases made
      exact Motion.isPlaced_of_some place (index.isCounted_location _)

mutual

theorem isPlaced_collectOne {index : LineIndex} {found : Found} : (node : TemplateNode) →
    collectOne parse index node = .ok found → ∀ motion ∈ found.elements.motions, motion.IsPlaced
  | ⟨tag, attributes, start, stop, texts, children⟩, done => by
    rw [collectOne] at done
    obtain ⟨⟨own?, warnings⟩, moved, later⟩ := Outcome.bind_eq_ok.mp done
    obtain ⟨inner, inside, made⟩ := Outcome.bind_eq_ok.mp later
    have placed := isPlaced_collect children inside
    cases own? with
    | none =>
      cases made
      exact placed
    | some own =>
      cases made
      have own_ : own.IsPlaced := isPlaced_motion moved
      intro motion member
      rcases List.mem_cons.mp (show motion ∈ { own with plainMarkup := inner.plainMarkup } :: inner.elements.motions by
        simpa [Forest.motions, Element.motionsEach, Element.motions] using member) with rfl | below
      · exact own_
      · exact placed motion below

theorem isPlaced_collect {index : LineIndex} {found : Found} : (nodes : List TemplateNode) →
    collect parse index nodes = .ok found → ∀ motion ∈ found.elements.motions, motion.IsPlaced
  | [], done => by
    rw [collect] at done
    cases done
    exact List.forall_mem_nil _
  | node :: rest, done => by
    rw [collect] at done
    obtain ⟨here, one, later⟩ := Outcome.bind_eq_ok.mp done
    obtain ⟨others, more, made⟩ := Outcome.bind_eq_ok.mp later
    cases made
    intro motion member
    rw [show (here.append others).elements = here.elements ++ others.elements from rfl, Forest.motions_append] at member
    rcases List.mem_append.mp member with first | last
    · exact isPlaced_collectOne node one motion first
    · exact isPlaced_collect rest more motion last

end

/-- The elements of a template lie where their tags begin. -/
theorem isPlaced_of_extract {source : List Char} {root : TemplateNode} {found : Found}
    (done : extract parse source root = .ok found) : ∀ motion ∈ found.elements.motions, motion.IsPlaced :=
  isPlaced_collect root.children done

end TemplateMotion

/-! ### Sources -/

namespace Source

variable {parse : Script.Parser} {source : Source} {component : Component}

/-- A component is what a reader of templates or of scripts made of the source. -/
theorem read_cases (done : source.read parse = .ok component) :
    readTemplateComponent parse source = .ok component ∨ readScriptComponent parse source component.framework = .ok component := by
  by_cases script : component.framework = .vue
  · unfold read at done
    cases blank : Text.isBlankText source.code with
    | true =>
      rw [blank] at done
      cases done
    | false =>
      rw [blank] at done
      obtain ⟨kind, -, done⟩ := Outcome.bind_eq_ok.mp done
      cases kind with
      | vue => exact .inl done
      | _ =>
        obtain ⟨reading, found, made⟩ := exists_isMadeOf done
        cases made.framework.symm.trans script
  · exact .inr (readScriptComponent_of_read script done)

/-- A component keeps its source and the tree that was made of it. -/
theorem kept_read (done : source.read parse = .ok component) :
    component.source = source.code ∧ source.code ≠ [] ∧ component.tree?.isSome = true := by
  have filled : source.code ≠ [] := by
    intro empty
    unfold read at done
    rw [empty] at done
    cases done
  rcases read_cases done with template | script
  · obtain ⟨blocks, -, template⟩ := Outcome.bind_eq_ok.mp template
    obtain ⟨root?, -, template⟩ := Outcome.bind_eq_ok.mp template
    obtain ⟨facts, -, template⟩ := Outcome.bind_eq_ok.mp template
    obtain ⟨found, -, template⟩ := Outcome.bind_eq_ok.mp template
    cases template
    exact ⟨rfl, filled, rfl⟩
  · obtain ⟨reading, found, made⟩ := exists_isMadeOf script
    exact ⟨made.source, filled, by rw [made.tree?]; rfl⟩

theorem framework_read {kind : Framework} (known : source.framework = .ok kind) (done : source.read parse = .ok component) :
    component.framework = kind := by
  unfold read at done
  cases blank : Text.isBlankText source.code with
  | true =>
    rw [blank] at done
    cases done
  | false =>
    rw [blank, known] at done
    cases kind with
    | vue => exact framework_of_readTemplateComponent done
    | _ => exact (readScriptComponent_eq_ok done).1

/-- The elements of a source lie where their tags or their first calls begin, unless it was read as a fragment. -/
theorem isPlaced_read (done : source.read parse = .ok component) (whole : component.tree?.any (·.wrapped != 0) = false) :
    ∀ motion ∈ component.elements.motions, motion.IsPlaced := by
  rcases read_cases done with template | script
  · obtain ⟨blocks, -, template⟩ := Outcome.bind_eq_ok.mp template
    obtain ⟨root?, -, template⟩ := Outcome.bind_eq_ok.mp template
    obtain ⟨facts, -, template⟩ := Outcome.bind_eq_ok.mp template
    obtain ⟨found, extracted, template⟩ := Outcome.bind_eq_ok.mp template
    cases template
    cases root? with
    | none =>
      cases extracted
      exact List.forall_mem_nil _
    | some root => exact TemplateMotion.isPlaced_of_extract extracted
  · obtain ⟨reading, found, made⟩ := exists_isMadeOf script
    have extracted := made.extracted
    rw [made.tree?] at whole
    rw [made.elements]
    unfold ScriptReading.tree at extracted whole
    split at extracted
    · rename_i react
      rw [if_pos react] at whole
      exact Markup.isPlaced_of_extract (by simpa [SourceTree.wrapped] using whole) extracted
    · exact Calls.isPlaced_of_extract extracted

end Source

end AnimationCode
