/-
**Forests of one shape.**

Two forests have one shape if their motions lie in pairs at the same places. What a pass over a forest does to a
motion is a relation between the two of a pair; it may depend on the motion around them.

* `Forest.Pairs`: the motions of two forests lie in pairs that are related;
* `Forest.pairs_map`: a change of every motion;
* `Forest.Pairs.exists_of_mem`: a motion that lies there lies in a pair;
* `Forest.Pairs.forall₂_motions`: the motions of both in document order;
* `Forest.Pairs.map_eq`: a view in which the motions of each pair are alike;
* `Forest.Pairs.after`, `Forest.Pairs.before`: a pass and one that looks at each motion alone, in either order.
-/

import AnimationCode.Element.Basic
import Mathlib.Data.List.Forall2

namespace AnimationCode

namespace Element

variable {first second : Option Motion → Motion → Motion → Prop} {alone : Motion → Motion → Prop}

mutual

/-- Two elements of one shape, whose motions are related at every place, given the motion around the first. -/
inductive Pairs (related : Option Motion → Motion → Motion → Prop) : Option Motion → Element → Element → Prop
  | intro {around : Option Motion} {own other : Motion} {children others : List Element} (here : related around own other)
      (inside : PairsEach related (some own) children others) : Pairs related around ⟨own, children⟩ ⟨other, others⟩

/-- Elements side by side, each of one shape with the element in its place. -/
inductive PairsEach (related : Option Motion → Motion → Motion → Prop) :
    Option Motion → List Element → List Element → Prop
  | nil {around : Option Motion} : PairsEach related around [] []
  | cons {around : Option Motion} {element other : Element} {rest others : List Element}
      (here : Pairs related around element other) (beside : PairsEach related around rest others) :
      PairsEach related around (element :: rest) (other :: others)

end

mutual

/-- An element and all inside it, parents first. -/
def parts : Element → List Element
  | ⟨own, children⟩ => ⟨own, children⟩ :: partsEach children

/-- Several elements and all inside them. -/
def partsEach : List Element → List Element
  | [] => []
  | element :: rest => parts element ++ partsEach rest

end

mutual

theorem parts_map (change : Motion → Motion) : (element : Element) → parts (map change element) = (parts element).map (map change)
  | ⟨own, children⟩ => by
    have inside := partsEach_mapEach change children
    rw [map, parts, parts, inside]
    rfl

theorem partsEach_mapEach (change : Motion → Motion) : (elements : List Element) →
    partsEach (mapEach change elements) = (partsEach elements).map (map change)
  | [] => rfl
  | element :: rest => by
    rw [mapEach, partsEach, partsEach, List.map_append, parts_map change element, partsEach_mapEach change rest]

end

theorem partsEach_append (elements others : List Element) : partsEach (elements ++ others) = partsEach elements ++ partsEach others := by
  induction elements with
  | nil => rfl
  | cons element rest ih => rw [List.cons_append, partsEach, partsEach, ih, List.append_assoc]

mutual

/-- The motions of an element and of all inside it are those of its parts. -/
theorem map_own_parts : (element : Element) → (parts element).map own = motions element
  | ⟨own, children⟩ => by rw [parts, motions, List.map_cons, map_own_partsEach children]

theorem map_own_partsEach : (elements : List Element) → (partsEach elements).map own = motionsEach elements
  | [] => rfl
  | element :: rest => by
    rw [partsEach, motionsEach, List.map_append, map_own_parts element, map_own_partsEach rest]

end

mutual

theorem pairs_map {change : Motion → Motion} (around : Option Motion) : (element : Element) →
    (∀ motion ∈ motions element, alone motion (change motion)) →
    Pairs (fun _ => alone) around element (map change element)
  | ⟨own, children⟩, changes => by
    have inside := pairs_mapEach (some own) children fun motion member => changes motion (by simp [motions, member])
    exact .intro (changes own (by simp [motions])) inside

theorem pairs_mapEach {change : Motion → Motion} (around : Option Motion) : (elements : List Element) →
    (∀ motion ∈ motionsEach elements, alone motion (change motion)) →
    PairsEach (fun _ => alone) around elements (mapEach change elements)
  | [], _ => .nil
  | element :: rest, changes =>
    .cons (pairs_map around element fun motion member => changes motion (by simp [motionsEach, member]))
      (pairs_mapEach around rest fun motion member => changes motion (by simp [motionsEach, member]))

end

mutual

theorem pairs_self (same : ∀ around own, first around own own) (around : Option Motion) : (element : Element) →
    Pairs first around element element
  | ⟨own, children⟩ => .intro (same around own) (pairsEach_self same (some own) children)

theorem pairsEach_self (same : ∀ around own, first around own own) (around : Option Motion) : (elements : List Element) →
    PairsEach first around elements elements
  | [] => .nil
  | element :: rest => .cons (pairs_self same around element) (pairsEach_self same around rest)

end

mutual

theorem Pairs.exists_of_mem {around : Option Motion} {element other : Element} : Pairs first around element other →
    ∀ after ∈ motions other, ∃ outer, ∃ own ∈ motions element, first outer own after
  | .intro here inside => by
    intro after member
    rw [motions] at member
    rcases List.mem_cons.mp member with rfl | deeper
    · exact ⟨_, _, by simp [motions], here⟩
    · obtain ⟨outer, own, known, related⟩ := PairsEach.exists_of_mem inside after deeper
      exact ⟨outer, own, by simp [motions, known], related⟩

theorem PairsEach.exists_of_mem {around : Option Motion} {elements others : List Element} :
    PairsEach first around elements others →
    ∀ after ∈ motionsEach others, ∃ outer, ∃ own ∈ motionsEach elements, first outer own after
  | .nil => List.forall_mem_nil _
  | .cons here beside => by
    intro after member
    rw [motionsEach] at member
    rcases List.mem_append.mp member with inside | later
    · obtain ⟨outer, own, known, related⟩ := Pairs.exists_of_mem here after inside
      exact ⟨outer, own, by simp [motionsEach, known], related⟩
    · obtain ⟨outer, own, known, related⟩ := PairsEach.exists_of_mem beside after later
      exact ⟨outer, own, by simp [motionsEach, known], related⟩

end

mutual

theorem Pairs.forall₂_motions {around : Option Motion} {element other : Element} :
    Pairs (fun _ => alone) around element other → List.Forall₂ alone (motions element) (motions other)
  | .intro here inside => by
    rw [motions, motions]
    exact .cons here (PairsEach.forall₂_motions inside)

theorem PairsEach.forall₂_motions {around : Option Motion} {elements others : List Element} :
    PairsEach (fun _ => alone) around elements others → List.Forall₂ alone (motionsEach elements) (motionsEach others)
  | .nil => .nil
  | .cons here beside => by
    rw [motionsEach, motionsEach]
    exact List.rel_append (Pairs.forall₂_motions here) (PairsEach.forall₂_motions beside)

end

mutual

theorem Pairs.map_eq {view : Motion → Motion} (same : ∀ around own after, first around own after → view after = view own)
    {around : Option Motion} {element other : Element} : Pairs first around element other → map view other = map view element
  | .intro here inside => by rw [map, map, same _ _ _ here, PairsEach.map_eq same inside]

theorem PairsEach.map_eq {view : Motion → Motion} (same : ∀ around own after, first around own after → view after = view own)
    {around : Option Motion} {elements others : List Element} :
    PairsEach first around elements others → mapEach view others = mapEach view elements
  | .nil => rfl
  | .cons here beside => by rw [mapEach, mapEach, Pairs.map_eq same here, PairsEach.map_eq same beside]

end

mutual

theorem Pairs.mono (weaker : ∀ around own after, first around own after → second around own after) {around : Option Motion}
    {element other : Element} : Pairs first around element other → Pairs second around element other
  | .intro here inside => .intro (weaker _ _ _ here) (PairsEach.mono weaker inside)

theorem PairsEach.mono (weaker : ∀ around own after, first around own after → second around own after)
    {around : Option Motion} {elements others : List Element} :
    PairsEach first around elements others → PairsEach second around elements others
  | .nil => .nil
  | .cons here beside => .cons (Pairs.mono weaker here) (PairsEach.mono weaker beside)

end

mutual

theorem Pairs.after (both : ∀ around own middle last, first around own middle → alone middle last → second around own last)
    {around outer : Option Motion} {element middle last : Element} : Pairs first around element middle →
      Pairs (fun _ => alone) outer middle last → Pairs second around element last
  | .intro here inside, .intro later insideLater =>
    .intro (both _ _ _ _ here later) (PairsEach.after both inside insideLater)

theorem PairsEach.after
    (both : ∀ around own middle last, first around own middle → alone middle last → second around own last)
    {around outer : Option Motion} {elements middle last : List Element} : PairsEach first around elements middle →
      PairsEach (fun _ => alone) outer middle last → PairsEach second around elements last
  | .nil, .nil => .nil
  | .cons here beside, .cons later besideLater => .cons (Pairs.after both here later) (PairsEach.after both beside besideLater)

end

mutual

theorem Pairs.before
    (both : ∀ around outer own middle last, Option.Rel alone around outer → alone own middle → first outer middle last →
      second around own last) {around outer : Option Motion} (surround : Option.Rel alone around outer)
    {element middle last : Element} : Pairs (fun _ => alone) around element middle →
      Pairs first outer middle last → Pairs second around element last
  | .intro here inside, .intro later insideLater =>
    .intro (both _ _ _ _ _ surround here later) (PairsEach.before both (.some here) inside insideLater)

theorem PairsEach.before
    (both : ∀ around outer own middle last, Option.Rel alone around outer → alone own middle → first outer middle last →
      second around own last) {around outer : Option Motion} (surround : Option.Rel alone around outer)
    {elements middle last : List Element} : PairsEach (fun _ => alone) around elements middle →
      PairsEach first outer middle last → PairsEach second around elements last
  | .nil, .nil => .nil
  | .cons here beside, .cons later besideLater =>
    .cons (Pairs.before both surround here later) (PairsEach.before both surround beside besideLater)

end

end Element

namespace Forest

/-- Two forests of one shape, whose motions are related at every place, given the motion around the first. -/
def Pairs (related : Option Motion → Motion → Motion → Prop) (forest others : Forest) : Prop :=
  Element.PairsEach related none forest others

variable {first second : Option Motion → Motion → Motion → Prop} {alone : Motion → Motion → Prop}
  {forest middle last : Forest}

/-- A change of every motion. -/
theorem pairs_map {change : Motion → Motion} (changes : ∀ motion ∈ forest.motions, alone motion (change motion)) :
    Pairs (fun _ => alone) forest (forest.map change) :=
  Element.pairs_mapEach none forest changes

/-- A forest beside itself. -/
theorem pairs_self (same : ∀ around own, first around own own) (forest : Forest) : Pairs first forest forest :=
  Element.pairsEach_self same none forest

/-- A motion that lies there lies in a pair. -/
theorem Pairs.exists_of_mem (pairs : Pairs first forest last) :
    ∀ after ∈ last.motions, ∃ outer, ∃ own ∈ forest.motions, first outer own after :=
  Element.PairsEach.exists_of_mem pairs

/-- The motions of two forests of one shape, in document order. -/
theorem Pairs.forall₂_motions (pairs : Pairs (fun _ => alone) forest last) : List.Forall₂ alone forest.motions last.motions :=
  Element.PairsEach.forall₂_motions pairs

/-- Forests whose motions are related alike in a view are alike in it. -/
theorem Pairs.map_eq {view : Motion → Motion} (same : ∀ around own after, first around own after → view after = view own)
    (pairs : Pairs first forest last) : last.map view = forest.map view :=
  Element.PairsEach.map_eq same pairs

theorem Pairs.mono (weaker : ∀ around own after, first around own after → second around own after)
    (pairs : Pairs first forest last) : Pairs second forest last :=
  Element.PairsEach.mono weaker pairs

/-- A pass, and after it one that looks at each motion alone. -/
theorem Pairs.after (earlier : Pairs first forest middle) (later : Pairs (fun _ => alone) middle last)
    (both : ∀ around own middle last, first around own middle → alone middle last → second around own last) :
    Pairs second forest last :=
  Element.PairsEach.after both earlier later

/-- A pass that looks at each motion alone, and after it another one. -/
theorem Pairs.before (earlier : Pairs (fun _ => alone) forest middle) (later : Pairs first middle last)
    (both : ∀ around outer own middle last, Option.Rel alone around outer → alone own middle → first outer middle last →
      second around own last) : Pairs second forest last :=
  Element.PairsEach.before both .none earlier later

end Forest

end AnimationCode
