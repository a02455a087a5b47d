/-
**Delays over a whole forest.**

Delays are written out from the outside in. An element that asks for delays gives them to the elements right inside it and
keeps the rest of its options; only then is it the turn of those, which have their delay by then and may ask for delays
in their turn.

* `Stagger.AsksFor`: the delays that a motion asks for in numbers;
* `Stagger.Unfolds`: what becomes of one motion, given the seat that it has in the element around it;
* `Forest.Unfolds`: what becomes of the motions of a forest at every depth;
* `Component.expandStagger_iff_unfolds`: writing out delays makes this of a forest, and nothing else.
-/

import AnimationCode.Proofs.Convert.Passes
import AnimationCode.Proofs.Element.States

namespace AnimationCode

namespace Stagger

/-- Options that say a number under a name, or nothing, which counts as zero. Truth values are no numbers. -/
def Says (options : Fields Value) (name : String) (number : Quantity) : Prop :=
  (options.get? name).getD (.int 0) = Value.ofQuantity number

/-- The delays that a motion asks for in numbers: that of the first element inside it, and the step to the next. One of the
two is said at least. -/
structure AsksFor (motion : Motion) (options : Fields Value) (first step : Quantity) : Prop where
  transition : (motion.phase? .transition).map Value.unguarded = some (.object options)
  some_ : options.has "staggerChildren" = true ∨ options.has "delayChildren" = true
  first : Says options "delayChildren" first
  step : Says options "staggerChildren" step

/-- A motion that gives delays to so many elements right inside it. -/
def Gives (motion : Motion) (count : Nat) : Prop := 0 < count ∧ ∃ options first step, AsksFor motion options first step

/-- Where an element stands: the motion around it at the time when it gives its delays, the number of elements there, and
the place among them. -/
structure Seat where
  around : Motion
  count : Nat
  place : Nat

/-- The steps that a seat comes after the first: they are counted from the last one if the options run backwards. -/
def Seat.steps (seat : Seat) (options : Fields Value) : Nat :=
  if isBackwards options then seat.count - 1 - seat.place else seat.place

/-- A delay is the one that was there, that of the first, and as many steps as there are, added up in this order and
rounded to six places. -/
def IsDelay (before first step : Quantity) (steps : Nat) (delay : Quantity) : Prop :=
  ∃ begun stepped sum, before.add? first = some begun ∧ (Quantity.whole steps).mul? step = some stepped ∧
    begun.add? stepped = some sum ∧ delay = sum.roundTo 6

/-- The options of a motion with a delay; a transition that is no options leaves nothing. -/
def delaying (motion : Motion) (delay : Quantity) : Fields Value :=
  (plainOptions motion).set "delay" (Value.ofQuantity delay)

/-- Options without those that say how elements follow one another. -/
def settled (options : Fields Value) : Fields Value := options.filter fun field => !keys.contains field.1

/-- What becomes of a motion with so many elements right inside it: how it is when its turn comes, and in the end. -/
structure Unfolds (seat? : Option Seat) (own : Motion) (count : Nat) (reached after : Motion) : Prop where
  untouched : (∀ seat ∈ seat?, ∀ options first step, ¬ AsksFor seat.around options first step) → reached = own
  delayed : ∀ seat ∈ seat?, ∀ options first step, AsksFor seat.around options first step → ∃ delay,
    IsDelay (ownDelay (plainOptions own)) first step (seat.steps options) delay ∧
      reached = withOptions own (delaying own delay) ∧
      (Gives reached count → after.phase? .transition = some (.object (settled (delaying own delay)))) ∧
      (¬ Gives reached count → after.phase? .transition = some (.object (delaying own delay)))
  gave : 0 < count → ∀ options first step, AsksFor reached options first step →
    after = { reached with
      phases := if (settled options).isEmpty then reached.phases.erase Phase.transition.name
        else reached.phases.set Phase.transition.name (.object (settled options)) }
  still : ¬ Gives reached count → after = reached

end Stagger

mutual

/-- What becomes of an element and of all inside it. -/
inductive Element.Unfolds : Option Stagger.Seat → Element → Element → Prop
  | intro {seat? : Option Stagger.Seat} {own reached after : Motion} {children others : List Element}
      (here : Stagger.Unfolds seat? own children.length reached after)
      (inside : Element.UnfoldsEach (some (reached, children.length)) 0 children others) :
      Element.Unfolds seat? ⟨own, children⟩ ⟨after, others⟩

/-- What becomes of elements side by side from a place on, given the motion around them and the number of elements in it. -/
inductive Element.UnfoldsEach : Option (Motion × Nat) → Nat → List Element → List Element → Prop
  | nil {around? : Option (Motion × Nat)} {place : Nat} : Element.UnfoldsEach around? place [] []
  | cons {around? : Option (Motion × Nat)} {place : Nat} {element other : Element} {rest others : List Element}
      (here : Element.Unfolds (around?.map fun around => ⟨around.1, around.2, place⟩) element other)
      (beside : Element.UnfoldsEach around? (place + 1) rest others) :
      Element.UnfoldsEach around? place (element :: rest) (other :: others)

end

/-- What becomes of the motions of a forest at every depth. -/
def Forest.Unfolds (forest others : Forest) : Prop := Element.UnfoldsEach none 0 forest others

namespace Stagger

variable {motion own reached after : Motion} {options : Fields Value} {first step delay before : Quantity} {stagger : Stagger}
  {children : List Element}

/-! ### What is asked for -/

theorem quantity?_eq_some_iff {value : Value} {number : Quantity} :
    value.quantity? = some number ↔ value = Value.ofQuantity number := by
  constructor
  · intro found
    cases value with
    | int n =>
      cases found
      rfl
    | real x =>
      cases found
      rfl
    | _ => cases found
  · rintro rfl
    cases number <;> rfl

theorem quantityOr0?_eq_some_iff {name : String} {number : Quantity} :
    quantityOr0? options name = some number ↔ Says options name number := by
  unfold quantityOr0? Says
  cases options.get? name with
  | none => exact @quantity?_eq_some_iff (.int 0) number
  | some value => exact quantity?_eq_some_iff

theorem optionsOf_eq_some_iff :
    optionsOf motion = some options ↔ (motion.phase? .transition).map Value.unguarded = some (.object options) := by
  rw [optionsOf, Option.bind_eq_some_iff, Option.map_eq_some_iff]
  exact exists_congr fun value => and_congr_right fun _ => Value.fields?_eq_some_iff

/-- The delays that are read off a motion are those that it asks for. -/
theorem ofMotion?_eq_some_iff :
    ofMotion? motion = some stagger ↔
      ∃ options, AsksFor motion options stagger.first stagger.step ∧ stagger.backwards = isBackwards options := by
  rw [ofMotion?, Option.bind_eq_some_iff]
  refine exists_congr fun options => ?_
  rw [optionsOf_eq_some_iff]
  constructor
  · rintro ⟨transition, made⟩
    unfold ofOptions? at made
    split at made
    · rename_i said
      obtain ⟨first, first_, made⟩ := Option.bind_eq_some_iff.mp made
      obtain ⟨step, step_, made⟩ := Option.bind_eq_some_iff.mp made
      cases made
      exact ⟨⟨transition, (Bool.or_eq_true ..).mp said, quantityOr0?_eq_some_iff.mp first_,
        quantityOr0?_eq_some_iff.mp step_⟩, rfl⟩
    · cases made
  · rintro ⟨asks, backwards⟩
    refine ⟨asks.transition, ?_⟩
    rw [ofOptions?, if_pos ((Bool.or_eq_true ..).mpr asks.some_), quantityOr0?_eq_some_iff.mpr asks.first,
      quantityOr0?_eq_some_iff.mpr asks.step, ← backwards]
    rfl

theorem AsksFor.ofMotion? (asks : AsksFor motion options first step) :
    ofMotion? motion = some ⟨first, step, isBackwards options⟩ := ofMotion?_eq_some_iff.mpr ⟨options, asks, rfl⟩

/-- An element gives delays if it asks for some and there are elements inside it. -/
theorem isSome_given_iff : (given own children).isSome = true ↔ Gives own children.length := by
  unfold given Gives
  cases children with
  | nil => simp
  | cons element rest =>
    rw [if_neg (by simp), Option.isSome_iff_exists]
    constructor
    · rintro ⟨stagger, found⟩
      obtain ⟨options, asks, -⟩ := ofMotion?_eq_some_iff.mp found
      exact ⟨Nat.succ_pos _, options, stagger.first, stagger.step, asks⟩
    · rintro ⟨-, options, first, step, asks⟩
      exact ⟨_, asks.ofMotion?⟩

/-! ### One motion -/

theorem delay?_eq_some_iff {steps : Nat} :
    stagger.delay? before steps = some delay ↔ IsDelay before stagger.first stagger.step steps delay := by
  constructor
  · intro found
    obtain ⟨begun, added, rest⟩ := Option.bind_eq_some_iff.mp found
    obtain ⟨stepped, times, rest⟩ := Option.bind_eq_some_iff.mp rest
    obtain ⟨sum, total, same⟩ := Option.bind_eq_some_iff.mp rest
    exact ⟨begun, stepped, sum, added, times, total, (Option.some.inj same).symm⟩
  · rintro ⟨begun, stepped, sum, added, times, total, rfl⟩
    rw [Stagger.delay?, added, times]
    simp only [bind, Option.bind, total]
    rfl

theorem delayed_eq_ok_iff {steps : Nat} : stagger.delayed steps own = .ok reached ↔
    ∃ delay, IsDelay (ownDelay (plainOptions own)) stagger.first stagger.step steps delay ∧
      reached = withOptions own (delaying own delay) := by
  constructor
  · intro done
    obtain ⟨delay, reckoned, same⟩ := exists_delay_of_delayed done
    exact ⟨delay, delay?_eq_some_iff.mp reckoned, same⟩
  · rintro ⟨delay, sum, rfl⟩
    have reckoned := delay?_eq_some_iff.mpr sum
    unfold plainOptions at reckoned
    unfold Stagger.delayed
    dsimp only
    rw [reckoned]
    rfl

/-- The delay that a seat brings along. -/
def Seat.outer (seat : Seat) : Option (Stagger × Nat) :=
  (ofMotion? seat.around).map fun stagger => (stagger, stagger.steps seat.count seat.place)

/-- A motion is reached with the delay of its seat, and as it was if there is none. -/
theorem receive_eq_ok_iff {seat? : Option Seat} : receive (seat?.bind Seat.outer) own = .ok reached ↔
    ((∀ seat ∈ seat?, ∀ options first step, ¬ AsksFor seat.around options first step) → reached = own) ∧
      ∀ seat ∈ seat?, ∀ options first step, AsksFor seat.around options first step → ∃ delay,
        IsDelay (ownDelay (plainOptions own)) first step (seat.steps options) delay ∧
          reached = withOptions own (delaying own delay) := by
  cases seat? with
  | none =>
    constructor
    · intro received
      cases received
      exact ⟨fun _ => rfl, nofun⟩
    · rintro ⟨untouched, -⟩
      rw [untouched nofun]
      rfl
  | some seat =>
    simp only [Option.mem_some_iff, forall_eq', Option.bind_some, Seat.outer]
    cases found : ofMotion? seat.around with
    | none =>
      have silent : ∀ options first step, ¬ AsksFor seat.around options first step := by
        intro options first step asks
        cases found.symm.trans asks.ofMotion?
      constructor
      · intro received
        cases received
        exact ⟨fun _ => rfl, fun options first step asks => absurd asks (silent options first step)⟩
      · rintro ⟨untouched, -⟩
        rw [untouched silent]
        rfl
    | some stagger =>
      refine delayed_eq_ok_iff.trans ?_
      constructor
      · rintro ⟨delay, sum, same⟩
        obtain ⟨options, asks, backwards⟩ := ofMotion?_eq_some_iff.mp found
        refine ⟨fun silent => absurd asks (silent options _ _), fun others first step again => ⟨delay, ?_, same⟩⟩
        cases found.symm.trans again.ofMotion?
        exact sum
      · rintro ⟨-, delayed⟩
        obtain ⟨options, asks, backwards⟩ := ofMotion?_eq_some_iff.mp found
        have sum := delayed options _ _ asks
        rwa [Seat.steps, ← backwards] at sum

theorem withoutKeys_eq (found : optionsOf motion = some options) :
    withoutKeys motion = { motion with
      phases := if (settled options).isEmpty then motion.phases.erase Phase.transition.name
        else motion.phases.set Phase.transition.name (.object (settled options)) } := by
  unfold withoutKeys
  rw [found]
  rfl

/-- A delay is not among the options that are taken out. -/
theorem isEmpty_settled_delaying (motion : Motion) (delay : Quantity) : (settled (delaying motion delay)).isEmpty = false := by
  have kept : (settled (delaying motion delay)).get? "delay" = some (Value.ofQuantity delay) := by
    rw [settled, Fields.get?_filter _ fun key => !keys.contains key, if_pos (by decide)]
    exact (Fields.get?_set ..).trans (if_pos rfl)
  cases found : settled (delaying motion delay) with
  | nil =>
    rw [found] at kept
    cases kept
  | cons _ _ => rfl

theorem optionsOf_delaying (own : Motion) (delay : Quantity) :
    optionsOf (withOptions own (delaying own delay)) = some (delaying own delay) := optionsOf_withOptions own _

/-- What is written out at one motion is what becomes of it, and nothing else does. -/
theorem receive_settle_iff_unfolds {seat? : Option Seat} :
    (receive (seat?.bind Seat.outer) own = .ok reached ∧ after = settle reached children) ↔
      Unfolds seat? own children.length reached after := by
  constructor
  · rintro ⟨received, rfl⟩
    obtain ⟨untouched, delayed⟩ := receive_eq_ok_iff.mp received
    have gave : ∀ options, Gives reached children.length → optionsOf reached = some options →
        settle reached children = { reached with
          phases := if (settled options).isEmpty then reached.phases.erase Phase.transition.name
            else reached.phases.set Phase.transition.name (.object (settled options)) } := by
      intro options gives found
      rw [settle, if_pos (isSome_given_iff.mpr gives)]
      exact withoutKeys_eq found
    have still : ¬ Gives reached children.length → settle reached children = reached := fun silent => by
      rw [settle, if_neg fun asked => silent (isSome_given_iff.mp asked)]
    refine ⟨untouched, fun seat member options first step asks => ?_, fun some_ options first step asks =>
      gave options ⟨some_, options, first, step, asks⟩ (optionsOf_eq_some_iff.mpr asks.transition), still⟩
    obtain ⟨delay, sum, same⟩ := delayed seat member options first step asks
    refine ⟨delay, sum, same, fun gives => ?_, fun silent => ?_⟩
    · rw [gave _ gives (by rw [same]; exact optionsOf_delaying own delay), isEmpty_settled_delaying]
      exact (Fields.get?_set ..).trans (if_pos rfl)
    · rw [still silent, same]
      exact (Fields.get?_set ..).trans (if_pos rfl)
  · rintro ⟨untouched, delayed, gave, still⟩
    refine ⟨receive_eq_ok_iff.mpr ⟨untouched, fun seat member options first step asks => ?_⟩, ?_⟩
    · obtain ⟨delay, sum, same, -⟩ := delayed seat member options first step asks
      exact ⟨delay, sum, same⟩
    · by_cases gives : Gives reached children.length
      · obtain ⟨some_, options, first, step, asks⟩ := id gives
        rw [gave some_ options first step asks, settle, if_pos (isSome_given_iff.mpr gives)]
        exact (withoutKeys_eq (optionsOf_eq_some_iff.mpr asks.transition)).symm
      · rw [still gives, settle, if_neg fun asked => gives (isSome_given_iff.mp asked)]

/-! ### Whole forests -/

/-- The delays that the motion around gives to the elements in it. -/
def around (around? : Option (Motion × Nat)) : Option Stagger := around?.bind fun around => ofMotion? around.1

theorem around_map (around? : Option (Motion × Nat)) {count : Nat} (counted : ∀ around ∈ around?, around.2 = count)
    (place : Nat) : (around around?).map (fun stagger => (stagger, stagger.steps count place)) =
      (around?.map fun around => (⟨around.1, around.2, place⟩ : Seat)).bind Seat.outer := by
  cases around? with
  | none => rfl
  | some pair =>
    cases counted pair rfl
    rfl

theorem given_eq_around (own : Motion) {children : List Element} (some_ : children ≠ []) :
    given own children = around (some (own, children.length)) := if_neg (by simpa using some_)

mutual

/-- What is written out in an element is what becomes of it. -/
theorem unfolds_expand {seat? : Option Seat} {result : Element} {found : Bool} : (element : Element) →
    expand (seat?.bind Seat.outer) element = .ok (result, found) → element.Unfolds seat? result
  | ⟨own, children⟩, done => by
    obtain ⟨reached, others, more, received, inside, rfl⟩ := expand_eq_ok done
    refine .intro (receive_settle_iff_unfolds.mp ⟨received, rfl⟩) ?_
    cases children with
    | nil =>
      cases inside
      exact .nil
    | cons element rest =>
      rw [given_eq_around reached (List.cons_ne_nil _ _)] at inside
      refine unfolds_expandEach _ (fun around member => ?_) (element :: rest) inside
      rw [← Option.some.inj member]

theorem unfolds_expandEach (around? : Option (Motion × Nat)) {count place : Nat} {results : List Element} {found : Bool}
    (counted : ∀ around ∈ around?, around.2 = count) : (elements : List Element) →
    expandEach (around around?) count place elements = .ok (results, found) →
    Element.UnfoldsEach around? place elements results
  | [], done => by
    cases done
    exact .nil
  | element :: rest, done => by
    obtain ⟨first, others, here, there, one, more, rfl⟩ := expandEach_cons_eq_ok done
    rw [around_map around? counted] at one
    exact .cons (unfolds_expand element one) (unfolds_expandEach around? counted rest more)

end

mutual

/-- What becomes of an element is written out in it. -/
theorem expand_of_unfolds {seat? : Option Seat} {result : Element} : (element : Element) → element.Unfolds seat? result →
    ∃ found, expand (seat?.bind Seat.outer) element = .ok (result, found)
  | ⟨own, children⟩, @Element.Unfolds.intro _ _ reached _ _ _ here inside => by
    obtain ⟨received, rfl⟩ := receive_settle_iff_unfolds.mpr here
    rw [expand_eq, received]
    cases children with
    | nil =>
      cases inside
      exact ⟨_, rfl⟩
    | cons element rest =>
      obtain ⟨found, done⟩ := expandEach_of_unfolds _ (element :: rest).length
        (fun around member => by rw [← Option.some.inj member]) (element :: rest) inside
      rw [← given_eq_around reached (List.cons_ne_nil _ _)] at done
      simp only [bind, Except.bind, done]
      exact ⟨_, rfl⟩

theorem expandEach_of_unfolds (around? : Option (Motion × Nat)) (count : Nat) {place : Nat} {results : List Element}
    (counted : ∀ around ∈ around?, around.2 = count) : (elements : List Element) →
    Element.UnfoldsEach around? place elements results →
    ∃ found, expandEach (around around?) count place elements = .ok (results, found)
  | [], .nil => ⟨false, rfl⟩
  | element :: rest, .cons here beside => by
    obtain ⟨found, one⟩ := expand_of_unfolds element here
    obtain ⟨more, others⟩ := expandEach_of_unfolds around? count counted rest beside
    rw [expandEach, around_map around? counted, one]
    simp only [bind, Except.bind, others]
    exact ⟨_, rfl⟩

end

end Stagger

namespace Component

/-- **Delays are written out at every depth.** Where a framework has no options for them, the forest in the end is the one
that unfolds from the forest before, as long as no delay is a sum that is too large. -/
theorem expandStagger_iff_unfolds {target : Framework} (written : target = .vue ∨ target = .js) (forest : Forest) :
    (Stagger.AreModerate forest.motions → ∃ staggered noted, expandStagger target forest = .ok (staggered, noted)) ∧
      ∀ staggered, (∃ noted, expandStagger target forest = .ok (staggered, noted)) ↔ forest.Unfolds staggered := by
  refine ⟨fun moderate => exists_expandStagger fun _ => moderate, fun staggered => ⟨?_, fun unfolds => ?_⟩⟩
  · rintro ⟨noted, done⟩
    rcases expandStagger_eq_ok done with ⟨-, found, result, -⟩ | ⟨other, -, -⟩
    · exact Stagger.unfolds_expandEach none nofun forest result
    · exact absurd written other
  · obtain ⟨found, done⟩ := Stagger.expandEach_of_unfolds none 0 nofun forest unfolds
    rw [expandStagger, if_pos written]
    simp only [Stagger.around, Option.bind_none] at done
    rw [done]
    exact ⟨_, rfl⟩

/-- A list that begins with its last item, whose first item makes what is inside it follow in turn. -/
def cascade : Forest :=
  [⟨{ Motion.ofTag "ul" with
      phases := [("transition", .object [("staggerChildren", .int 1), ("delayChildren", .int 2),
        ("staggerDirection", .int (-1)), ("duration", .int 3)])] },
    [⟨{ Motion.ofTag "li" with
        phases := [("transition", .object [("staggerChildren", .int 10), ("delay", .int 5)])] },
      [⟨Motion.ofTag "em", []⟩, ⟨{ Motion.ofTag "em" with phases := [("transition", .object [("delay", .int 4)])] }, []⟩]⟩,
      ⟨Motion.ofTag "li", []⟩]⟩]

theorem areModerate_cascade : Stagger.AreModerate cascade.motions := by
  have few : cascade.motions.length ≤ 2 ^ 3 := by decide
  have said : ∀ motion ∈ cascade.motions, ∀ options ∈ Stagger.optionsOf motion, ∀ field ∈ options,
      field.2.quantity? ∈ [-1, 1, 2, 3, 4, 5, 10].map fun n => some (Quantity.whole n) := by decide
  have small : ∀ n ∈ ([-1, 1, 2, 3, 4, 5, 10] : List Int), n.natAbs ≤ 2 ^ 4 := by decide
  refine ⟨fun motion member options given name _ n known => ?_, few.trans (Nat.pow_le_pow_right (by decide) (by decide))⟩
  obtain ⟨whole, among, same⟩ := List.mem_map.mp (said motion member options given _ (Fields.mem_of_get? known))
  cases same
  exact (small n among).trans (Nat.pow_le_pow_right (by decide) (by decide))

/-- The first item, which comes last, begins at eight; what is inside it follows from zero on. -/
theorem expandStagger_iff_unfolds_cascade : Stagger.AreModerate cascade.motions ∧ ∃ staggered noted,
    expandStagger .vue cascade = .ok (staggered, noted) ∧
    staggered.motions.map Motion.phases = [
      [("transition", .object [("duration", .int 3)])],
      [("transition", .object [("delay", .int 8)])],
      [("transition", .object [("delay", .int 0)])],
      [("transition", .object [("delay", .int 14)])],
      [("transition", .object [("delay", .int 2)])]] ∧
    cascade.Unfolds staggered :=
  ⟨areModerate_cascade, _, _, rfl, rfl, ((expandStagger_iff_unfolds (.inl rfl) cascade).2 _).mp ⟨_, rfl⟩⟩

end Component

end AnimationCode
