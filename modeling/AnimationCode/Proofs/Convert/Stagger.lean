/-
**Delays written out in a forest.**

Writing out delays touches the transition of an element alone, and only if the element asks for delays of its
children or the element around it does. Elements stay where they are.

* `Stagger.expand_eq_ok`: what becomes of an element when delays are written out;
* `Stagger.pairs_expandForest`: at every place, what is written out there is all that changes;
* `Stagger.related_settle`: only the transition may differ, and only where delays are asked for;
* `Stagger.settled_expandEach`: an element with children asks for no more delays that are numbers;
* `Stagger.exists_expandEach`: numbers that are not too large have all delays written out.
-/

import AnimationCode.Convert.Stagger
import AnimationCode.Proofs.Element.Pairs
import AnimationCode.Proofs.Fields
import AnimationCode.Proofs.Number.Bounds
import AnimationCode.Proofs.Outcome

namespace AnimationCode

namespace Fields

variable {α : Type}

theorem erase_set (fields : Fields α) (name : String) (value : α) : (fields.set name value).erase name = fields.erase name := by
  induction fields with
  | nil => simp [set, erase]
  | cons field rest ih =>
    obtain ⟨key, old⟩ := field
    unfold erase at ih ⊢
    by_cases here : key = name
    · simp [set, here]
    · simp [set, here, ih]

/-- Fields that differ in one at most: it was written, or taken out. -/
def DiffersAt (name : String) (before after : Fields α) : Prop :=
  after = before ∨ (∃ value, after = before.set name value) ∨ after = before.erase name

variable {name other : String} {before after : Fields α}

theorem DiffersAt.get?_eq (differs : DiffersAt name before after) (away : other ≠ name) :
    after.get? other = before.get? other := by
  rcases differs with rfl | ⟨value, rfl⟩ | rfl
  · rfl
  · rw [get?_set, if_neg away]
  · rw [get?_erase, if_neg away]

/-- A field that was written and then differs, differs from what it was before. -/
theorem DiffersAt.of_set {value : α} (differs : (before.set name value).DiffersAt name after) : before.DiffersAt name after := by
  rcases differs with rfl | ⟨again, rfl⟩ | rfl
  · exact .inr (.inl ⟨value, rfl⟩)
  · exact .inr (.inl ⟨again, set_set before name value again⟩)
  · exact .inr (.inr (erase_set before name value))

/-- The names in both keep their order. -/
theorem DiffersAt.order (differs : DiffersAt name before after) :
    after.keys.filter before.has = before.keys.filter after.has := by
  have all : before.keys.filter before.has = before.keys := List.filter_eq_self.mpr fun _ member => has_iff.mpr member
  rcases differs with rfl | ⟨value, rfl⟩ | rfl
  · rfl
  · have still : before.keys.filter (before.set name value).has = before.keys := by
      refine List.filter_eq_self.mpr fun one member => has_iff.mpr ?_
      rw [keys_set]
      split
      · exact member
      · exact List.mem_append_left _ member
    rw [still, keys_set]
    split
    · exact all
    · rename_i fresh
      have absent : before.has name = false := by
        rw [← Bool.not_eq_true, has_iff]
        exact fresh
      rw [List.filter_append, all, List.filter_cons_of_neg (by simp [absent]), List.filter_nil, List.append_nil]
  · rw [keys_erase, List.filter_filter]
    refine List.filter_congr fun one member => ?_
    have here : before.has one = true := has_iff.mpr member
    rw [here, Bool.true_and, has, get?_erase]
    by_cases same : one = name
    · simp [same]
    · rw [if_neg same]
      exact (bne_iff_ne.mpr same).trans here.symm

end Fields

/-- A motion with delays written out: its transition differs at most, and only if delays were asked for. -/
structure Motion.Staggered (asked : Prop) (before after : Motion) : Prop where
  same : after = { before with phases := after.phases }
  differs : before.phases.DiffersAt Phase.transition.name after.phases
  unless_ : ¬ asked → after.phases = before.phases

namespace Stagger

/-- Whether an element asks for delays of its children. -/
def asks (motion : Motion) : Bool :=
  (optionsOf motion).any fun options => options.has "staggerChildren" || options.has "delayChildren"

/-- The motion of an element with the delay that it gets from the element around it. -/
def receive (outer : Option (Stagger × Nat)) (own : Motion) : Outcome Motion :=
  match outer with
  | some (stagger, steps) => stagger.delayed steps own
  | none => .ok own

/-- The delays that an element with such children writes out. -/
def given (own : Motion) (children : List Element) : Option Stagger := if children.isEmpty then none else ofMotion? own

/-- The motion of an element whose delays are written out in its children. -/
def settle (own : Motion) (children : List Element) : Motion :=
  if (given own children).isSome then withoutKeys own else own

variable {outer : Option (Stagger × Nat)} {own : Motion} {children : List Element} {result : Element} {found : Bool}

theorem expand_eq (outer : Option (Stagger × Nat)) (own : Motion) (children : List Element) :
    expand outer ⟨own, children⟩ = (do
      let delayed ← receive outer own
      let (settled, more) ← expandEach (given delayed children) children.length 0 children
      return (⟨settle delayed children, settled⟩, (given delayed children).isSome || more)) := by
  unfold expand receive given settle
  cases outer <;> rfl

/-- What becomes of an element when delays are written out. -/
theorem expand_eq_ok (done : expand outer ⟨own, children⟩ = .ok (result, found)) :
    ∃ delayed settled more, receive outer own = .ok delayed ∧
      expandEach (given delayed children) children.length 0 children = .ok (settled, more) ∧
      result = ⟨settle delayed children, settled⟩ := by
  rw [expand_eq] at done
  obtain ⟨delayed, received, rest⟩ := Outcome.bind_eq_ok.mp done
  obtain ⟨settled, inside, same⟩ := Outcome.bind_eq_ok.mp rest
  cases same
  exact ⟨delayed, settled.1, settled.2, received, inside, rfl⟩

theorem expandEach_cons_eq_ok {outer : Option Stagger} {count place : Nat} {element : Element} {rest elements : List Element}
    (done : expandEach outer count place (element :: rest) = .ok (elements, found)) :
    ∃ first others here there,
      expand (outer.map fun stagger => (stagger, stagger.steps count place)) element = .ok (first, here) ∧
      expandEach outer count (place + 1) rest = .ok (others, there) ∧ elements = first :: others := by
  rw [expandEach] at done
  obtain ⟨first, one, later⟩ := Outcome.bind_eq_ok.mp done
  obtain ⟨others, more, same⟩ := Outcome.bind_eq_ok.mp later
  cases same
  exact ⟨first.1, others.1, first.2, others.2, one, more, rfl⟩

/-! ### One motion -/

/-- The options of a transition that nothing guards. -/
def plainOptions (motion : Motion) : Fields Value := ((motion.phase? .transition).bind Value.fields?).getD []

theorem optionsOf_eq {motion : Motion} {options : Fields Value}
    (plain : motion.phase? .transition = some (.object options)) : optionsOf motion = some options := by
  rw [optionsOf, plain]
  rfl

/-- A motion with other options of its transition. -/
def withOptions (motion : Motion) (options : Fields Value) : Motion :=
  { motion with phases := motion.phases.set Phase.transition.name (.object options) }

theorem optionsOf_withOptions (motion : Motion) (options : Fields Value) :
    optionsOf (withOptions motion options) = some options :=
  optionsOf_eq (by rw [Motion.phase?, withOptions, Fields.get?_set, if_pos rfl])

/-- The delay of a child, reckoned on top of the one that it has. -/
theorem exists_delay_of_delayed {stagger : Stagger} {steps : Nat} {child delayed : Motion}
    (done : stagger.delayed steps child = .ok delayed) :
    ∃ delay, stagger.delay? (ownDelay (plainOptions child)) steps = some delay ∧
      delayed = withOptions child (Fields.set (plainOptions child) "delay" (Value.ofQuantity delay)) := by
  unfold Stagger.delayed at done
  dsimp only at done
  split at done
  · rename_i delay reckoned
    cases done
    exact ⟨delay, reckoned, rfl⟩
  · cases done

theorem delayed_eq_ok {stagger : Stagger} {steps : Nat} {child delayed : Motion}
    (done : stagger.delayed steps child = .ok delayed) :
    ∃ delay, delayed = withOptions child (Fields.set (plainOptions child) "delay" delay) := by
  obtain ⟨delay, -, same⟩ := exists_delay_of_delayed done
  exact ⟨_, same⟩

/-- A delay from outside is no reason to ask for delays. -/
theorem asks_of_receive {outer : Option (Stagger × Nat)} {own delayed : Motion} (received : receive outer own = .ok delayed)
    (asked : asks delayed = true) : asks own = true := by
  cases outer with
  | none =>
    cases received
    exact asked
  | some given =>
    obtain ⟨delay, rfl⟩ := delayed_eq_ok received
    rw [asks, optionsOf_withOptions, Option.any_some] at asked
    simp only [Fields.has, Fields.get?_set] at asked
    unfold plainOptions at asked
    cases plain : (own.phase? .transition).bind Value.fields? with
    | none =>
      rw [plain] at asked
      cases asked
    | some options =>
      obtain ⟨value, transition, fields⟩ := Option.bind_eq_some_iff.mp plain
      cases value with
      | object _ =>
        cases fields
        rw [plain] at asked
        rw [asks, optionsOf_eq transition]
        exact asked
      | _ => cases fields

theorem asks_of_given {own : Motion} {children : List Element} (some_ : (given own children).isSome = true) :
    asks own = true := by
  unfold given ofMotion? at some_
  split at some_
  · cases some_
  · obtain ⟨stagger, made⟩ := Option.isSome_iff_exists.mp some_
    obtain ⟨options, found, asked⟩ := Option.bind_eq_some_iff.mp made
    rw [asks, found, Option.any_some]
    unfold ofOptions? at asked
    split at asked
    · assumption
    · cases asked

theorem withoutKeys_differs (own : Motion) :
    withoutKeys own = { own with phases := (withoutKeys own).phases } ∧
      own.phases.DiffersAt Phase.transition.name (withoutKeys own).phases := by
  refine ⟨rfl, ?_⟩
  unfold withoutKeys
  dsimp only
  split
  · exact .inr (.inr rfl)
  · exact .inr (.inl ⟨_, rfl⟩)

theorem settle_differs (own : Motion) (children : List Element) :
    settle own children = { own with phases := (settle own children).phases } ∧
      own.phases.DiffersAt Phase.transition.name (settle own children).phases := by
  unfold settle
  split
  · exact withoutKeys_differs own
  · exact ⟨rfl, .inl rfl⟩

/-- What delays change of one motion. -/
theorem staggered_settle {outer : Option (Stagger × Nat)} {own delayed : Motion} (received : receive outer own = .ok delayed)
    (children : List Element) : own.Staggered (asks own = true ∨ outer.isSome = true) (settle delayed children) := by
  obtain ⟨same, differs⟩ := settle_differs delayed children
  have unless_ : asks own = false → settle delayed children = delayed := by
    intro silent
    unfold settle
    split
    · rename_i given_
      have asked := asks_of_receive received (asks_of_given given_)
      rw [silent] at asked
      cases asked
    · rfl
  cases outer with
  | none =>
    cases received
    refine ⟨same, differs, fun nothing => ?_⟩
    rw [unless_ (by simpa using nothing)]
  | some stagger =>
    obtain ⟨delay, rfl⟩ := delayed_eq_ok received
    exact ⟨by rw [same]; rfl, differs.of_set, fun nothing => absurd (.inr rfl) nothing⟩

/-! ### Whole forests -/

/-- What delays change of a motion, given the motion around it. -/
def Related (around : Option Motion) (own after : Motion) : Prop :=
  own.Staggered (asks own = true ∨ around.any asks = true) after

section Pairs

variable {related : Option Motion → Motion → Motion → Prop}

/-- What is written out at an element is related to what it was, whatever delay it gets. Delays come from outside only where
the motion around asks for them. -/
def Relates (related : Option Motion → Motion → Motion → Prop) : Prop :=
  ∀ (outer : Option (Stagger × Nat)) (around : Option Motion) (own delayed : Motion) (children : List Element),
    (outer.isSome = true → around.any asks = true) → receive outer own = .ok delayed → related around own (settle delayed children)

mutual

/-- At every place of an element, what is written out there is all that changes. -/
theorem pairs_expand (each : Relates related) {outer : Option (Stagger × Nat)} {around : Option Motion} {result : Element}
    {found : Bool} (asked : outer.isSome = true → around.any asks = true) : (element : Element) →
    expand outer element = .ok (result, found) → Element.Pairs related around element result
  | ⟨own, children⟩, done => by
    obtain ⟨delayed, settled, more, received, inside, rfl⟩ := expand_eq_ok done
    have askedInside : (given delayed children).isSome = true → Option.any asks (some own) = true :=
      fun given_ => asks_of_receive received (asks_of_given given_)
    exact .intro (each outer around own delayed children asked received) (pairs_expandEach each askedInside children inside)

theorem pairs_expandEach (each : Relates related) {outer : Option Stagger} {around : Option Motion} {count place : Nat}
    {results : List Element} {found : Bool} (asked : outer.isSome = true → around.any asks = true) :
    (elements : List Element) → expandEach outer count place elements = .ok (results, found) →
    Element.PairsEach related around elements results
  | [], done => by
    cases done
    exact .nil
  | element :: rest, done => by
    obtain ⟨first, others, here, there, one, more, rfl⟩ := expandEach_cons_eq_ok done
    refine .cons (pairs_expand each (fun given_ => asked ?_) element one) (pairs_expandEach each asked rest more)
    rwa [Option.isSome_map] at given_

end

/-- No delays come from outside a forest. -/
theorem pairs_expandForest (each : Relates related) {forest staggered : Forest} {count : Nat} {found : Bool}
    (done : expandEach none count 0 forest = .ok (staggered, found)) : Forest.Pairs related forest staggered := by
  refine pairs_expandEach each (fun outside => ?_) forest done
  cases outside

end Pairs

/-- At every place, only the transition may differ, and only where delays are asked for. -/
theorem related_settle : Relates Related := by
  intro outer around own delayed children asked received
  have here := staggered_settle received children
  exact ⟨here.same, here.differs, fun nothing => here.unless_ fun one => nothing (one.imp_right asked)⟩

theorem length_expandEach {outer : Option Stagger} {count place : Nat} {results : List Element} {found : Bool} :
    (elements : List Element) → expandEach outer count place elements = .ok (results, found) →
    results.length = elements.length
  | [], done => by
    cases done
    rfl
  | element :: rest, done => by
    obtain ⟨first, others, here, there, one, more, rfl⟩ := expandEach_cons_eq_ok done
    exact congrArg (· + 1) (length_expandEach rest more)

/-! ### Nothing more to write out -/

theorem ofMotion?_withoutKeys (own : Motion) : ofMotion? (withoutKeys own) = none := by
  unfold withoutKeys
  dsimp only
  split
  · have gone : optionsOf { own with phases := own.phases.erase Phase.transition.name } = none := by
      rw [optionsOf, Motion.phase?, Fields.get?_erase, if_pos rfl]
      rfl
    rw [ofMotion?, gone]
    rfl
  · have lacks (name : String) (member : name ∈ keys) (options : Fields Value) :
        Fields.has (options.filter fun field => !keys.contains field.1) name = false := by
      rw [Fields.has, Fields.get?_filter options fun key => !keys.contains key]
      simp [member]
    rw [ofMotion?]
    change (optionsOf (withOptions own _)).bind ofOptions? = none
    rw [optionsOf_withOptions, Option.bind_some, ofOptions?, lacks _ (by decide), lacks _ (by decide)]
    rfl

theorem ofMotion?_settle (own : Motion) {children : List Element} (some_ : children ≠ []) :
    ofMotion? (settle own children) = none := by
  have asked : given own children = ofMotion? own := by
    rw [given, if_neg (by simpa using some_)]
  unfold settle
  split
  · exact ofMotion?_withoutKeys own
  · rename_i nothing
    rwa [asked, Option.not_isSome_iff_eq_none] at nothing

mutual

/-- An element with children asks for no more delays that are numbers, and neither do those inside it. -/
theorem settled_expand {outer : Option (Stagger × Nat)} {result : Element} {found : Bool} : (element : Element) →
    expand outer element = .ok (result, found) →
    ∀ part ∈ Element.parts result, part.children ≠ [] → ofMotion? part.own = none
  | ⟨own, children⟩, done => by
    obtain ⟨delayed, settled, more, received, inside, rfl⟩ := expand_eq_ok done
    have length := length_expandEach children inside
    rw [Element.parts]
    refine List.forall_mem_cons.mpr ⟨fun some_ => ofMotion?_settle delayed fun nothing => some_ ?_,
      settled_expandEach children inside⟩
    exact List.length_eq_zero_iff.mp (length.trans (by rw [nothing]; rfl))

theorem settled_expandEach {outer : Option Stagger} {count place : Nat} {results : List Element} {found : Bool} :
    (elements : List Element) → expandEach outer count place elements = .ok (results, found) →
    ∀ part ∈ Element.partsEach results, part.children ≠ [] → ofMotion? part.own = none
  | [], done => by
    cases done
    exact List.forall_mem_nil _
  | element :: rest, done => by
    obtain ⟨first, others, here, there, one, more, rfl⟩ := expandEach_cons_eq_ok done
    rw [Element.partsEach]
    exact List.forall_mem_append.mpr ⟨settled_expand element one, settled_expandEach rest more⟩

end

/-! ### Numbers that are not too large -/

/-- A size of whole timings up to which no delay is too large. -/
def mostTiming : Nat := 2 ^ 200

/-- A number of motions up to which no delay is too large. -/
def mostMotions : Nat := 2 ^ 50

theorem mostTiming_lt : mostTiming < 2 ^ 1023 := by
  rw [mostTiming, Nat.pow_lt_pow_iff_right (by decide)]
  decide

theorem mostMotions_lt : mostMotions < 2 ^ 1023 := by
  rw [mostMotions, Nat.pow_lt_pow_iff_right (by decide)]
  decide

theorem mostTiming_add_lt : mostTiming + mostTiming < 2 ^ 1023 := by
  rw [mostTiming, ← Nat.two_mul, ← Nat.pow_succ', Nat.pow_lt_pow_iff_right (by decide)]
  decide

theorem mostMotions_mul_lt : mostMotions * mostTiming < 2 ^ 1023 := by
  rw [mostMotions, mostTiming, ← Nat.pow_add, Nat.pow_lt_pow_iff_right (by decide)]
  decide

/-- The timings from which delays are reckoned. -/
def timings : List String := ["delay", "delayChildren", "staggerChildren"]

/-- The whole numbers among the timings of a motion are not too large. -/
def IsModerate (motion : Motion) : Prop :=
  ∀ options ∈ optionsOf motion, ∀ name ∈ timings, ∀ n : Int, options.get? name = some (.int n) → n.natAbs ≤ mostTiming

/-- Delays that are not too large. -/
def Fits (stagger : Stagger) : Prop := stagger.first.Within mostTiming ∧ stagger.step.Within mostTiming

theorem within_quantityOr0? {options : Fields Value} {name : String} {quantity : Quantity}
    (moderate : ∀ n : Int, options.get? name = some (.int n) → n.natAbs ≤ mostTiming)
    (found : quantityOr0? options name = some quantity) : quantity.Within mostTiming := by
  unfold quantityOr0? at found
  split at found
  · rename_i value known
    cases value with
    | int n =>
      cases found
      exact moderate n known
    | real x =>
      cases found
      trivial
    | _ => cases found
  · cases found
    exact Nat.zero_le _

theorem fits_of_ofOptions? {options : Fields Value} {stagger : Stagger}
    (moderate : ∀ name ∈ timings, name ≠ "delay" → ∀ n : Int, options.get? name = some (.int n) → n.natAbs ≤ mostTiming)
    (found : ofOptions? options = some stagger) : stagger.Fits := by
  unfold ofOptions? at found
  split at found
  · obtain ⟨first, first_, found⟩ := Option.bind_eq_some_iff.mp found
    obtain ⟨step, step_, found⟩ := Option.bind_eq_some_iff.mp found
    cases found
    exact ⟨within_quantityOr0? (moderate _ (by decide) (by decide)) first_,
      within_quantityOr0? (moderate _ (by decide) (by decide)) step_⟩
  · cases found

theorem moderate_plainOptions {motion : Motion} (moderate : IsModerate motion) :
    ∀ name ∈ timings, ∀ n : Int, (plainOptions motion).get? name = some (.int n) → n.natAbs ≤ mostTiming := by
  intro name member n found
  unfold plainOptions at found
  cases plain : motion.phase? .transition with
  | none =>
    rw [plain] at found
    cases found
  | some value =>
    cases value with
    | object options =>
      rw [plain] at found
      exact moderate options (optionsOf_eq plain) name member n found
    | _ =>
      rw [plain] at found
      cases found

theorem fits_of_given {outer : Option (Stagger × Nat)} {own delayed : Motion} {children : List Element} {stagger : Stagger}
    (moderate : IsModerate own) (received : receive outer own = .ok delayed)
    (found : given delayed children = some stagger) : stagger.Fits := by
  unfold given ofMotion? at found
  split at found
  · cases found
  · obtain ⟨options, options_, made⟩ := Option.bind_eq_some_iff.mp found
    cases outer with
    | none =>
      cases received
      exact fits_of_ofOptions? (fun name member _ => moderate options options_ name member) made
    | some given_ =>
      obtain ⟨delay, rfl⟩ := delayed_eq_ok received
      rw [optionsOf_withOptions] at options_
      cases options_
      refine fits_of_ofOptions? (fun name member other n known => ?_) made
      rw [Fields.get?_set, if_neg other] at known
      exact moderate_plainOptions moderate name member n known

theorem exists_delayed {stagger : Stagger} {steps : Nat} {child : Motion} (fits : stagger.Fits) (moderate : IsModerate child)
    (few : steps ≤ mostMotions) : ∃ delayed, stagger.delayed steps child = .ok delayed := by
  have own : (ownDelay (plainOptions child)).Within mostTiming := by
    unfold ownDelay
    split
    · rename_i b known
      cases b
      · exact Nat.zero_le _
      · exact Nat.one_le_two_pow
    · rename_i value truth known
      cases value with
      | int n => exact moderate_plainOptions moderate _ (by decide) n known
      | real x => trivial
      | _ => exact Nat.zero_le _
    · exact Nat.zero_le _
  have counted : (Quantity.whole steps).Within mostMotions := by
    rw [Quantity.Within, Int.natAbs_natCast]
    exact few
  obtain ⟨begun, begun_, first⟩ := own.add? fits.1 ⟨mostTiming_lt, mostTiming_lt⟩
  obtain ⟨stepped, stepped_, second⟩ := counted.mul? fits.2 ⟨mostMotions_lt, mostTiming_lt⟩
  obtain ⟨delay, sum, -⟩ := first.add? second ⟨mostTiming_add_lt, mostMotions_mul_lt⟩
  have delay_ : stagger.delay? (ownDelay (plainOptions child)) steps = some (delay.roundTo places) := by
    rw [Stagger.delay?, begun_, stepped_]
    simp only [bind, Option.bind, sum]
    rfl
  unfold plainOptions at delay_
  unfold Stagger.delayed
  dsimp only
  rw [delay_]
  exact ⟨_, rfl⟩

theorem length_le_motionsEach (elements : List Element) : elements.length ≤ (Element.motionsEach elements).length := by
  induction elements with
  | nil => exact Nat.le_refl 0
  | cons element rest ih =>
    obtain ⟨own, children⟩ := element
    rw [Element.motionsEach, Element.motions, List.length_append, List.length_cons, List.length_cons]
    omega

/-- Elements whose timings are not too large, and that are not too many. -/
def AreModerate (motions : List Motion) : Prop := (∀ motion ∈ motions, IsModerate motion) ∧ motions.length ≤ mostMotions

theorem steps_le (stagger : Stagger) {count place : Nat} (inside : place < count) : stagger.steps count place ≤ count := by
  unfold steps
  split <;> omega

mutual

/-- Delays of an element are written out if none is too large. -/
theorem exists_expand {outer : Option (Stagger × Nat)} (fits : ∀ given ∈ outer, given.1.Fits ∧ given.2 ≤ mostMotions) :
    (element : Element) → AreModerate (Element.motions element) → ∃ result found, expand outer element = .ok (result, found)
  | ⟨own, children⟩, moderate => by
    rw [Element.motions] at moderate
    obtain ⟨each, few⟩ := moderate
    obtain ⟨here, inside⟩ := List.forall_mem_cons.mp each
    rw [List.length_cons] at few
    obtain ⟨delayed, received⟩ : ∃ delayed, receive outer own = .ok delayed := by
      cases outer with
      | none => exact ⟨own, rfl⟩
      | some given => exact exists_delayed (fits given rfl).1 here (fits given rfl).2
    have count : children.length ≤ mostMotions := by
      have least := length_le_motionsEach children
      omega
    have within : ∀ stagger ∈ given delayed children, stagger.Fits ∧ 0 + children.length ≤ children.length ∧
        children.length ≤ mostMotions :=
      fun stagger found => ⟨fits_of_given here received found, by omega, count⟩
    obtain ⟨settled, more, done⟩ := exists_expandEach children within ⟨inside, by omega⟩
    rw [expand_eq, received]
    simp only [bind, Except.bind, done]
    exact ⟨_, _, rfl⟩

theorem exists_expandEach {outer : Option Stagger} {count place : Nat} : (elements : List Element) →
    (∀ stagger ∈ outer, stagger.Fits ∧ place + elements.length ≤ count ∧ count ≤ mostMotions) →
    AreModerate (Element.motionsEach elements) → ∃ results found, expandEach outer count place elements = .ok (results, found)
  | [], _, _ => ⟨[], false, rfl⟩
  | element :: rest, fits, moderate => by
    rw [Element.motionsEach] at moderate
    obtain ⟨each, many⟩ := moderate
    rw [List.length_append] at many
    rw [List.length_cons] at fits
    have here : ∀ given ∈ outer.map fun stagger => (stagger, stagger.steps count place),
        given.1.Fits ∧ given.2 ≤ mostMotions := by
      rintro given member
      obtain ⟨stagger, known, rfl⟩ := Option.mem_map.mp member
      obtain ⟨fit, counted, few⟩ := fits stagger known
      exact ⟨fit, (steps_le stagger (by omega)).trans few⟩
    have beside : ∀ stagger ∈ outer, stagger.Fits ∧ place + 1 + rest.length ≤ count ∧ count ≤ mostMotions := by
      intro stagger known
      obtain ⟨fit, counted, few⟩ := fits stagger known
      exact ⟨fit, by omega, few⟩
    obtain ⟨first, found, one⟩ := exists_expand here element
      ⟨fun motion member => each motion (List.mem_append_left _ member), by omega⟩
    obtain ⟨others, there, more⟩ := exists_expandEach rest beside
      ⟨fun motion member => each motion (List.mem_append_right _ member), by omega⟩
    rw [expandEach, one]
    simp only [bind, Except.bind, more]
    exact ⟨_, _, rfl⟩

end

end Stagger

end AnimationCode
