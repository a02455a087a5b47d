/-
**Converting a component to a framework with markup.**

Frameworks with markup share the phases, so a conversion between them keeps all of a motion but what only one of them
knows: the spelling of some phases, some attributes, and options that delay children.

* `Component.carriesOver_revise`: what the forest of a component keeps in another framework with markup, and that
  there is nothing to report on a component which such a framework understands.
-/

import AnimationCode.Proofs.Convert.Passes
import AnimationCode.Proofs.Convert.Phases
import AnimationCode.Proofs.Element.Forest

namespace AnimationCode

/-- What a motion keeps in another framework with markup. The phases that frameworks share keep their values and their
order; the transition may differ if delays are written out there. -/
structure Motion.CarriesOver (delayed : Prop) (before after : Motion) : Prop where
  tag : after.tag = before.tag
  content : after.content? = before.content?
  reducedMotion : after.reducedMotion = before.reducedMotion
  states : ∀ phase, phase ≠ .transition → after.phase? phase = before.phase? phase
  order : (after.phases.keys.filter Phase.names.contains).filter before.phases.has =
    (before.phases.keys.filter Phase.names.contains).filter after.phases.has
  transition : ¬ delayed → after.phase? .transition = before.phase? .transition

/-- A forest keeps its shape, and its motions what carries over to a framework. Delays are written out only in
templates, on an element that asks for them and on the elements right inside it. -/
def Forest.CarriesOver (target : Framework) : Forest → Forest → Prop :=
  Forest.Pairs fun around before after =>
    before.CarriesOver (target = .vue ∧ (Stagger.asks before = true ∨ around.any Stagger.asks = true)) after

/-- A motion that a framework understands: shared phases but dragging, portable attributes, and no other elements
inside. -/
structure Motion.IsPortable (target : Framework) (motion : Motion) : Prop where
  phases : ∀ name ∈ motion.phases.keys, name ∈ Phase.names ∧ name ≠ Phase.drag.name
  plainMarkup : motion.plainMarkup = 0
  attributes : Attributes.ArePortable target motion.attributes

/-- A component that a framework understands, with nothing around its animated elements. -/
structure Component.IsPortable (target : Framework) (component : Component) : Prop where
  hooks : component.hooks = []
  logic : component.logic = []
  plainMarkup : component.plainMarkup = 0
  bindings : component.bindings = []
  motions : ∀ motion ∈ component.elements.motions, motion.IsPortable target

namespace Phase

theorem exists_of_mem_names {name : String} (member : name ∈ names) : ∃ phase : Phase, phase.name = name := by
  obtain ⟨phase, -, same⟩ := List.mem_map.mp member
  exact ⟨phase, same⟩

end Phase

namespace Stagger

theorem asks_of_respelled {before after : Motion} (respelled : before.Respelled after) : asks after = asks before := by
  rw [asks, optionsOf, respelled.shared]
  rfl

end Stagger

/-- Phases spelled for another framework, and then delays written out. -/
theorem Motion.Respelled.carriesOver {before middle last after : Motion} {asked delayed : Prop}
    (respelled : before.Respelled middle) (staggered : middle.Staggered asked last)
    (attributes : after = { last with attributes := after.attributes }) (only : asked → delayed) :
    before.CarriesOver delayed after where
  tag := by rw [attributes, staggered.same, respelled.same]
  content := by rw [attributes, staggered.same, respelled.same]
  reducedMotion := by rw [attributes, staggered.same, respelled.same]
  states phase other := by
    have away : phase.name ≠ Phase.transition.name := by
      revert other
      cases phase <;> decide
    rw [← respelled.shared, attributes]
    exact staggered.differs.get?_eq away
  order := by
    have shared : ∀ name ∈ Phase.names, before.phases.has name = middle.phases.has name := by
      intro name member
      obtain ⟨phase, rfl⟩ := Phase.exists_of_mem_names member
      exact congrArg Option.isSome (respelled.shared phase).symm
    have here : after.phases = last.phases := by rw [attributes]
    have known : (last.phases.keys.filter Phase.names.contains).filter before.phases.has =
        (last.phases.keys.filter Phase.names.contains).filter middle.phases.has :=
      List.filter_congr fun name member => shared name (by simpa using (List.mem_filter.mp member).2)
    have swap (keys : List String) (keeps : String → Bool) :
        (keys.filter Phase.names.contains).filter keeps = (keys.filter keeps).filter Phase.names.contains := by
      rw [List.filter_filter, List.filter_filter]
      exact List.filter_congr fun name _ => Bool.and_comm _ _
    rw [here, known, swap, staggered.differs.order, ← swap, respelled.order]
  transition silent := by
    rw [← respelled.shared, attributes]
    change last.phases.get? _ = middle.phases.get? _
    rw [staggered.unless_ fun asked => silent (only asked)]

namespace Component

variable {target : Framework} {component converted : Component} {account told : Account}

/-- What a forest keeps in another framework with markup. -/
theorem carriesOver_convert (markup : target = .react ∨ target = .vue)
    (named : ∀ motion ∈ component.elements.motions, motion.phases.keys.Nodup)
    (done : component.convert target account = .ok (converted, told)) :
    Forest.CarriesOver target component.elements converted.elements := by
  obtain ⟨staggered, noted, expanded, after, -⟩ := convert_eq_ok done
  have unlabelled : labelled target component.elements = spelled target component.elements := by
    rw [labelled, resolveLabels, if_neg (by rcases markup with rfl | rfl <;> decide)]
  have first : Forest.Pairs (fun _ => Motion.Respelled) component.elements (spelled target component.elements) :=
    Forest.pairs_map fun motion member => Convert.respelled_phases (named motion member)
  have second := pairs_expandStagger expanded
  have third : Forest.Pairs (fun _ own after => after = { own with attributes := after.attributes }) staggered
      converted.elements := by
    rw [after]
    exact Forest.pairs_map fun motion _ => carryOver_fst target component.bindings motion
  rw [unlabelled] at second
  have later : Forest.Pairs (fun around own after => ∃ middle, own.Staggered ((target = .vue ∨ target = .js) ∧
      (Stagger.asks own = true ∨ around.any Stagger.asks = true)) middle ∧
        after = { middle with attributes := after.attributes }) (spelled target component.elements) converted.elements :=
    second.after third fun _ _ middle _ staggered attributes => ⟨middle, staggered, attributes⟩
  refine first.before later ?_
  rintro around outer own middle last surround respelled ⟨between, staggered, attributes⟩
  refine respelled.carriesOver staggered attributes fun asked => ⟨?_, ?_⟩
  · rcases asked.1 with template | calls
    · exact template
    · rcases markup with rfl | rfl <;> cases calls
  · have outside : outer.any Stagger.asks = around.any Stagger.asks := by
      cases surround with
      | none => rfl
      | some respelled => exact Stagger.asks_of_respelled respelled
    rw [← Stagger.asks_of_respelled respelled, ← outside]
    exact asked.2

/-! ### A component that the framework understands -/

theorem phaseRemarks_of_portable {motion : Motion} (markup : target = .react ∨ target = .vue)
    (portable : motion.IsPortable target) : Convert.phaseRemarks target motion = [] := by
  have drag : motion.hasPhase .drag = false := by
    rw [← Bool.not_eq_true, Motion.hasPhase, Fields.has_iff]
    exact fun member => (portable.phases _ member).2 rfl
  have calls : (target == Framework.js) = false := by
    rcases markup with rfl | rfl <;> rfl
  simp [Convert.phaseRemarks, drag, calls]

/-- Nothing is reported on a component that the framework understands. -/
theorem told_convert_of_portable (markup : target = .react ∨ target = .vue) (portable : component.IsPortable target)
    (done : component.convert target account = .ok (converted, told)) :
    told.limitations = account.limitations ∧ told.placeholders = account.placeholders := by
  obtain ⟨staggered, noted, expanded, -, same⟩ := convert_eq_ok done
  have other : target ≠ .js := by rcases markup with rfl | rfl <;> decide
  have spelling : ∀ motion ∈ component.elements.motions, Convert.phases target motion = (motion, []) := by
    intro motion member
    have fit := portable.motions motion member
    rw [Convert.phases_of_known fun name known => (fit.phases name known).1, phaseRemarks_of_portable markup fit]
  have still : spelled target component.elements = component.elements :=
    Forest.map_eq_self fun motion member => by rw [spelling motion member]
  have unlabelled : resolveLabels target component.elements = (component.elements, []) := if_neg other
  rw [labelled, still, unlabelled] at expanded
  have carrying : ∀ motion ∈ staggered.motions, (carryOver target component.bindings motion).2 = [] := by
    intro motion member
    obtain ⟨around, own, known, related⟩ := (pairs_expandStagger expanded).exists_of_mem motion member
    have fit := portable.motions own known
    have attributes : Attributes.ArePortable target motion.attributes := by
      rw [related.same]
      exact fit.attributes
    have plain : motion.plainMarkup = 0 := by
      rw [related.same]
      exact fit.plainMarkup
    have unmarked : Attributes.markupRemarks motion = [] := if_pos plain
    rw [carryOver, Attributes.convert_of_portable other attributes, portable.bindings]
    simp only [List.nil_append, unmarked, References.remarks_of_unbound]
  have first : (component.elements.revise (Convert.phases target)).2 = [] :=
    List.flatMap_eq_nil_iff.mpr fun motion member => by rw [spelling motion member]
  have last : (staggered.revise (carryOver target component.bindings)).2 = [] := List.flatMap_eq_nil_iff.mpr carrying
  have nested : flattened target (carried target component.bindings staggered) = [] := by
    have calls : (target == Framework.js) = false := by simpa using other
    rw [flattened, calls]
    rfl
  have around : component.surroundings target = [] := by
    rw [surroundings, if_pos portable.plainMarkup, portable.logic]
    rfl
  rw [same, forestRemarks, first, still, unlabelled, last, nested, around, portable.hooks, Account.addRemarks_eq]
  have notes := remark_of_expandStagger expanded
  have silent : noted.filterMap Remark.limitation? = [] ∧ noted.filterMap Remark.placeholder? = [] := by
    constructor <;> exact List.filterMap_eq_nil_iff.mpr fun remark member => by rw [notes remark member]; rfl
  simp [silent, tellAll]

theorem moderate_spelled {forest : Forest} (named : ∀ motion ∈ forest.motions, motion.phases.keys.Nodup)
    (moderate : Stagger.AreModerate forest.motions) : Stagger.AreModerate (spelled target forest).motions := by
  rw [spelled, Forest.motions_map]
  refine ⟨?_, by rw [List.length_map]; exact moderate.2⟩
  intro motion member
  obtain ⟨before, known, rfl⟩ := List.mem_map.mp member
  have respelled : before.Respelled (Convert.phases target before).1 := Convert.respelled_phases (named before known)
  intro options found
  rw [Stagger.optionsOf, respelled.shared] at found
  exact moderate.1 before known options found

/-- A component is converted unless a delay in it is too large. -/
theorem exists_convert (markup : target = .react ∨ target = .vue)
    (named : ∀ motion ∈ component.elements.motions, motion.phases.keys.Nodup)
    (moderate : target = .vue → Stagger.AreModerate component.elements.motions) (account : Account) :
    ∃ converted told, component.convert target account = .ok (converted, told) := by
  have unlabelled : labelled target component.elements = spelled target component.elements := by
    rw [labelled, resolveLabels, if_neg (by rcases markup with rfl | rfl <;> decide)]
  have modest : target ≠ .react → Stagger.AreModerate (labelled target component.elements).motions := fun other => by
    rw [unlabelled]
    exact moderate_spelled named (moderate (markup.resolve_left other))
  obtain ⟨staggered, noted, expanded⟩ := exists_expandStagger modest
  unfold labelled spelled at expanded
  unfold convert convertForest
  simp only [Forest.revise, expanded, bind, Except.bind]
  exact ⟨_, _, rfl⟩

/-- Nothing is optimized without a focus. -/
theorem optimize_none (thresholds : Fields Value) (component : Component) (account : Account) :
    component.optimize Focus.none thresholds account = .ok (component, account) := rfl

/-- What the forest of a component keeps in another framework with markup, and that nothing is reported on a component
which such a framework understands. A revision fails only if a delay is too large. -/
theorem carriesOver_revise {component : Component} {account : Account} {context : Context} {thresholds : Fields Value}
    (away : context.framework ≠ component.framework) (markup : context.framework = .react ∨ context.framework = .vue)
    (plain : context.focus = Focus.none)
    (named : ∀ motion ∈ component.elements.motions, motion.phases.keys.Nodup) :
    (∀ converted told, component.revise account context thresholds = .ok (converted, told) →
      Forest.CarriesOver context.framework component.elements converted.elements ∧
      (component.IsPortable context.framework →
        told.limitations = account.limitations ∧ told.placeholders = account.placeholders)) ∧
    ((context.framework = .vue → Stagger.AreModerate component.elements.motions) →
      ∃ converted told, component.revise account context thresholds = .ok (converted, told)) := by
  have revised : component.revise account context thresholds =
      Except.bind (component.convert context.framework account) fun found =>
        .ok ({ found.1 with typescript := context.typescript }, found.2) := by
    unfold revise
    rw [plain, optimize_none]
    exact if_pos away
  rw [revised]
  constructor
  · intro converted told done
    cases result : component.convert context.framework account with
    | error failure =>
      rw [result] at done
      cases done
    | ok found =>
      obtain ⟨first, said⟩ := found
      rw [result] at done
      cases done
      have carried : Forest.CarriesOver context.framework component.elements first.elements :=
        carriesOver_convert markup named result
      exact ⟨carried, fun portable => told_convert_of_portable markup portable result⟩
  · intro moderate
    obtain ⟨converted, told, done⟩ := exists_convert markup named moderate account
    rw [done]
    exact ⟨_, _, rfl⟩

/-- A list whose only item appears after a while. -/
def delaying : Component :=
  .ofForest .react false "Listing"
    [⟨{ Motion.ofTag "ul" with phases := [("transition", .object [("delayChildren", .int 1)])] },
      [⟨{ Motion.ofTag "li" with phases := [("animate", .object [("opacity", .int 1)])] }, []⟩]⟩]

theorem carriesOver_revise_delaying :
    ∃ converted told, delaying.revise (Account.start .react) ⟨.vue, false, "Listing", Focus.none⟩ [] =
        .ok (converted, told) ∧
      Forest.CarriesOver .vue delaying.elements converted.elements ∧ told.limitations = [] ∧ told.placeholders = [] := by
  have moderate : Stagger.AreModerate delaying.elements.motions := by
    refine ⟨List.forall_mem_cons.mpr ⟨?_, List.forall_mem_singleton.mpr nofun⟩, by decide⟩
    intro options found name timing n stated
    obtain rfl : [("delayChildren", Value.int 1)] = options := Option.some.inj found
    rw [Fields.get?_cons] at stated
    split at stated <;> cases stated
    decide
  have portable : delaying.IsPortable .vue :=
    ⟨rfl, rfl, rfl, rfl, List.forall_mem_cons.mpr ⟨⟨by decide, rfl, ⟨nofun, rfl, nofun⟩⟩,
      List.forall_mem_singleton.mpr ⟨by decide, rfl, ⟨nofun, rfl, nofun⟩⟩⟩⟩
  obtain ⟨kept, exists_⟩ := @carriesOver_revise delaying (Account.start .react) ⟨.vue, false, "Listing", Focus.none⟩ []
    (by decide) (.inr rfl) rfl (by decide)
  obtain ⟨converted, told, done⟩ := exists_ fun _ => moderate
  exact ⟨converted, told, done, (kept converted told done).1, (kept converted told done).2 portable⟩

end Component

end AnimationCode
