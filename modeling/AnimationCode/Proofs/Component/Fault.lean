/-
**Where the errors of a template stand.**

A template error is about a tag: a template that is not closed, a closing tag that closes nothing, a tag that stays open, or
one with a binding that is no expression. The tag stands in the source at the offset to which the error points. With a column
the place is counted in the source. The line of a template that is not closed is counted after style blocks have given way to
blanks, so that it is the line of the source only if no style block before it goes over several lines.

* `Template.Tag.sign`, `Template.Matches.standsAt`: what a tag begins with stands where its match starts;
* `TemplateMotion.Misbinds`, `TemplateMotion.misbinds_collect`: a binding that is blamed is one of an opening tag;
* `Source.Blames`: what an error is about, and where that stands;
* `Source.read_pointsTo`: every template error of a source points to what it is about.
-/

import AnimationCode.Proofs.Component.Unfit
import AnimationCode.Proofs.Template.Blanked
import AnimationCode.Proofs.Template.Nesting
import AnimationCode.Proofs.Template.Tag

namespace AnimationCode

open Outcome
open Text (StandsAt)

namespace Template

variable {cs rest last : List Char} {offset : Nat} {found : List Match} {one : Match} {opened : List Heading}
  {heading : Heading}

/-! ### Tags in a text -/

/-- What a tag begins with: its sign and its name. -/
def Tag.sign : Tag → List Char
  | .opening name _ _ => '<' :: name.toList
  | .closing name => '<' :: '/' :: name.toList

theorem not_mem_of_isTagPart {name : List Char} (parts : ∀ c ∈ name, isTagPart c = true) : ' ' ∉ name := by
  intro member
  have part := parts ' ' member
  revert part
  decide +kernel

theorem exists_of_tagBody? {closing : Bool} {body : List Char} {tag : Tag} (read : tagBody? closing body = some (tag, rest)) :
    ∃ name more, body = name ++ more ∧ ' ' ∉ name ∧
      tag.sign = (if closing then ['<', '/'] else ['<']) ++ name := by
  unfold tagBody? at read
  split at read
  · cases read
  · obtain ⟨⟨attributes, after⟩, listed, ended⟩ := Option.bind_eq_some_iff.mp read
    obtain ⟨⟨selfClosing, stop⟩, closed, same⟩ := Option.map_eq_some_iff.mp ended
    obtain rfl := congrArg Prod.fst same
    refine ⟨body.takeWhile isTagPart, body.dropWhile isTagPart, (List.takeWhile_append_dropWhile).symm,
      not_mem_of_isTagPart (List.all_eq_true.mp List.all_takeWhile), ?_⟩
    cases closing <;> simp [Tag.sign]

theorem exists_of_tag? {tag : Tag} (read : tag? cs = some (tag, rest)) :
    ∃ more, cs = tag.sign ++ more ∧ ' ' ∉ tag.sign := by
  have begins : ∃ body, cs = '<' :: body := by
    unfold tag? at read
    split at read
    · exact ⟨_, rfl⟩
    · cases read
  obtain ⟨body, rfl⟩ := begins
  by_cases stroke : body.head? = some '/'
  · obtain ⟨inner, rfl⟩ := List.head?_eq_some_iff.mp stroke
    rw [tag?_closing] at read
    obtain ⟨name, more, rfl, solid, sign⟩ := exists_of_tagBody? read
    rw [if_pos rfl] at sign
    exact ⟨more, by rw [sign]; rfl, by rw [sign]; simpa using solid⟩
  · rw [tag?_opening stroke] at read
    obtain ⟨name, more, rfl, solid, sign⟩ := exists_of_tagBody? read
    rw [if_neg Bool.false_ne_true] at sign
    exact ⟨more, by rw [sign]; rfl, by rw [sign]; simpa using solid⟩

theorem exists_of_token? {tag : Tag} (read : token? cs = some (some tag, rest)) :
    ∃ more, cs = tag.sign ++ more ∧ ' ' ∉ tag.sign := by
  unfold token? at read
  split at read
  · cases read
  · obtain ⟨⟨tag, after⟩, here, same⟩ := Option.map_eq_some_iff.mp read
    cases same
    exact exists_of_tag? here

/-- What a tag begins with stands where its match starts. -/
theorem Matches.standsAt (matches_ : Matches offset cs found last) (member : one ∈ found) {tag : Tag}
    (isTag : one.tag? = some tag) :
    ∃ distance, one.start = offset + distance ∧ StandsAt cs distance tag.sign ∧ ' ' ∉ tag.sign := by
  induction matches_ with
  | done noMore => cases member
  | @next offset before written rest last tag? others first here later ih =>
    rcases List.mem_cons.mp member with rfl | member
    · obtain rfl : tag? = some tag := isTag
      obtain ⟨more, whole, solid⟩ := exists_of_token? here
      exact ⟨before.length, rfl, ⟨before, more, by rw [whole], rfl⟩, solid⟩
    · obtain ⟨distance, start, ⟨front, after, rfl, rfl⟩, solid⟩ := ih member
      refine ⟨before.length + written.length + front.length, by omega,
        ⟨before ++ (written ++ front), after, ?_, ?_⟩, solid⟩
      · simp only [List.append_assoc]
      · simp only [List.length_append, Nat.add_assoc]

/-! ### Opening tags -/

/-- The match of an opening tag. -/
theorem tag?_of_heading? (opens : one.heading? = some heading) :
    ∃ selfClosing, one.tag? = some (.opening heading.tag heading.attributes selfClosing) ∧ one.start = heading.start := by
  unfold Match.heading? at opens
  split at opens
  · rename_i name attributes selfClosing isTag
    cases opens
    exact ⟨selfClosing, isTag, rfl⟩
  · cases opens

/-- Tags that are open were opened before, or by a match. -/
theorem exists_of_mem_openAfter (member : heading ∈ openAfter opened found) :
    heading ∈ opened ∨ ∃ one ∈ found, one.heading? = some heading := by
  induction found generalizing opened with
  | nil => exact .inl member
  | cons one found ih =>
    rw [openAfter_cons] at member
    rcases ih member with here | ⟨other, later, opens⟩
    · unfold Match.leaves at here
      split at here
      · rename_i name attributes selfClosing isTag
        split at here
        · rcases List.mem_cons.mp here with rfl | before
          · exact .inr ⟨one, List.mem_cons_self, by rw [Match.heading?, isTag]⟩
          · exact .inl before
        · exact .inl here
      · exact .inl (List.mem_of_mem_tail here)
      · exact .inl here
    · exact .inr ⟨other, List.mem_cons_of_mem _ later, opens⟩

theorem exists_of_mem_enclosures {around : Option Heading} (member : (around, heading) ∈ enclosures opened found) :
    ∃ one ∈ found, one.heading? = some heading := by
  induction found generalizing opened with
  | nil => cases member
  | cons one found ih =>
    rw [enclosures, List.mem_append] at member
    rcases member with here | later
    · obtain ⟨other, opens, same⟩ := Option.map_eq_some_iff.mp (Option.mem_toList.mp here)
      cases same
      exact ⟨one, List.mem_cons_self, opens⟩
    · obtain ⟨other, among, opens⟩ := ih later
      exact ⟨other, List.mem_cons_of_mem _ among, opens⟩

end Template

/-! ### Bindings -/

/-- A failure that points into the source. -/
def Failure.Points (failure : Failure) : Prop := failure.place? ≠ none

namespace TemplateMotion

open Template (Heading childEnclosures nodeEnclosures)

variable {parse : Script.Parser} {index : LineIndex}

/-- An opening tag with a binding that is no expression, as it is told. -/
inductive Misbinds (parse : Script.Parser) (index : LineIndex) (heading : Heading) : Failure → Prop
  | mk {written : Template.Attribute} {name cause : String} {text : List Char} (member : written ∈ heading.attributes)
      (bound : AttributeForm.ofName written.1 = .bound name) (resolved : unescaped written.2 = .ok text)
      (malformed : Script.evaluateText text parse = .error (.malformedExpression cause)) :
      Misbinds parse index heading (.malformedBinding (String.ofList ((Text.trim text).take 40))
        (Failure.malformedExpression cause).message (index.location heading.start))

/-- A failure that points into the source tells of a binding of an opening tag among some. -/
def BlamesBinding (parse : Script.Parser) (index : LineIndex) (headings : List Heading) (failure : Failure) : Prop :=
  failure.Points → ∃ heading ∈ headings, Misbinds parse index heading failure

theorem misbinds_mono {α : Type} {outcome : Outcome α} {headings more : List Heading}
    (fails : FailsOnly (BlamesBinding parse index headings) outcome) (within : headings ⊆ more) :
    FailsOnly (BlamesBinding parse index more) outcome :=
  fails.mono fun _ blames points => (blames points).imp fun _ both => both.imp_left fun member => within member

/-- An unfit value points nowhere. -/
theorem misbinds_of_unfit {α : Type} {outcome : Outcome α} {headings : List Heading}
    (unfit : FailsOnly (· = .unfitValue) outcome) : FailsOnly (BlamesBinding parse index headings) outcome :=
  unfit.mono fun _ same points => absurd (same ▸ rfl) points

theorem misbinds_boundValue {heading : Heading} {written : Template.Attribute} {name : String}
    (member : written ∈ heading.attributes) (bound : AttributeForm.ofName written.1 = .bound name) :
    FailsOnly (BlamesBinding parse index [heading]) (boundValue parse (index.location heading.start) written.2) := by
  refine (misbinds_of_unfit (failsOnly_unescaped written.2)).bind fun text resolved => ?_
  have fails := Script.failsOnly_evaluateText parse text
  split
  · rename_i cause malformed
    exact failsOnly_error fun _ => ⟨heading, List.mem_singleton.mpr rfl, .mk member bound resolved malformed⟩
  · rename_i other
    intro failure failed points
    rcases fails failure failed with ⟨cause, rfl⟩ | rfl
    · exact absurd failed (other cause)
    · exact absurd rfl points

theorem misbinds_addAttribute {heading : Heading} {written : Template.Attribute} (member : written ∈ heading.attributes)
    (carrier : Carrier) (motion : Motion) :
    FailsOnly (BlamesBinding parse index [heading]) (addAttribute parse carrier (index.location heading.start) motion written) := by
  unfold addAttribute
  dsimp only
  split
  · exact failsOnly_ok _
  · rename_i name bound
    refine (misbinds_boundValue member bound).bind fun value _ => ?_
    split
    · exact failsOnly_ok _
    · exact failsOnly_ok _
    · exact failsOnly_ite (fun _ => failsOnly_ok _) fun _ => failsOnly_ok _
  · exact (misbinds_of_unfit (failsOnly_unescaped _)).bind fun _ _ => failsOnly_ok _
  · exact (misbinds_of_unfit (failsOnly_plainValue _)).bind fun _ _ => failsOnly_ok _

theorem misbinds_addAttributes (heading : Heading) {attributes : List Template.Attribute}
    (within : attributes ⊆ heading.attributes) (carrier : Carrier) (motion : Motion) (warnings : List String) :
    FailsOnly (BlamesBinding parse index [heading])
      (addAttributes parse carrier (index.location heading.start) motion warnings attributes) := by
  induction attributes generalizing motion warnings with
  | nil => exact failsOnly_ok _
  | cons written rest ih =>
    obtain ⟨here, later⟩ := List.cons_subset.mp within
    rw [addAttributes]
    exact (misbinds_addAttribute here carrier motion).bind fun _ _ => ih later _ _

theorem misbinds_motion (index : LineIndex) (node : TemplateNode) :
    FailsOnly (BlamesBinding parse index [node.heading]) (motion parse index node) := by
  unfold motion
  split
  · exact failsOnly_ok _
  · rename_i carrier _
    refine (misbinds_addAttributes node.heading (List.Subset.refl _) carrier _ _).bind fun found _ => ?_
    obtain ⟨motion, warnings⟩ := found
    have lifted : FailsOnly (BlamesBinding parse index [node.heading]) (lift carrier motion) :=
      (failsOnly_lift carrier motion).mono fun failure same points => by
        cases same
        exact absurd rfl points
    exact lifted.bind fun _ _ => failsOnly_ite (fun _ => failsOnly_ok _) fun _ => failsOnly_ok _

mutual

theorem misbinds_collectOne (index : LineIndex) (around : Option Heading) : (node : TemplateNode) →
    FailsOnly (BlamesBinding parse index ((nodeEnclosures around node).map Prod.snd)) (collectOne parse index node)
  | ⟨tag, attributes, start, stop, texts, children⟩ => by
    rw [collectOne, nodeEnclosures, List.map_cons]
    refine (misbinds_mono (misbinds_motion index _) (List.cons_subset_cons _ (List.nil_subset _))).bind fun found _ => ?_
    refine (misbinds_mono (misbinds_collect index _ children) (List.subset_cons_self _ _)).bind fun inner _ => ?_
    obtain ⟨_ | motion, warnings⟩ := found
    · exact failsOnly_ok _
    · exact failsOnly_ok _

theorem misbinds_collect (index : LineIndex) (around : Option Heading) : (nodes : List TemplateNode) →
    FailsOnly (BlamesBinding parse index ((childEnclosures around nodes).map Prod.snd)) (collect parse index nodes)
  | [] => by
    rw [collect]
    exact failsOnly_ok _
  | node :: rest => by
    rw [collect, childEnclosures, List.map_append]
    refine (misbinds_mono (misbinds_collectOne index around node) (List.subset_append_left _ _)).bind fun _ _ => ?_
    exact (misbinds_mono (misbinds_collect index around rest) (List.subset_append_right _ _)).bind fun _ _ => failsOnly_ok _

end

end TemplateMotion

/-! ### Sources -/

namespace Source

open Blocks (templateOpening? untilLastClosing? withoutStyles foldCase HasFlatStyles)
open Template (Match Matches AreMatched Heading Tag openAfter)
open TemplateMotion (AttributeForm unescaped Misbinds)

variable {parse : Script.Parser} {code markup last : List Char} {offset : Nat} {found before after : List Match} {one : Match} {failure : Failure}

/-- The template that is read of a source, and its offset. -/
def HasTemplate (code markup : List Char) (offset : Nat) : Prop :=
  ∃ blocks, Blocks.ofSource (withoutStyles code) = .ok blocks ∧ blocks.template? = some (markup, offset)

/-- What an error of a template is about, and the offset at which that stands in the source. -/
inductive Blames (parse : Script.Parser) (code : List Char) : Nat → Failure → Prop
  /-- The first opening tag of a template, behind which no template is closed. -/
  | template {front rest name : List Char} {line : Nat} (first : templateOpening? (withoutStyles code) = some (front, rest))
      (unclosed : untilLastClosing? rest = none) (named : name.map foldCase = "<template".toList)
      (stands : StandsAt code front.length name) : Blames parse code front.length (.unclosedTemplate line)
  /-- The first closing tag that does not agree with the innermost open tag. -/
  | closing {markup last : List Char} {offset : Nat} {before after : List Match} {one : Match} {tag : String} {place : Location}
      (template : HasTemplate code markup offset) (matches_ : Matches offset markup (before ++ one :: after) last)
      (isClosing : one.tag? = some (.closing tag)) (matched : AreMatched [] before)
      (fails : ¬ one.Agrees (openAfter [] before)) (stands : StandsAt code one.start ('<' :: '/' :: tag.toList)) :
      Blames parse code one.start (.unexpectedClosingTag tag place)
  /-- The innermost tag that stays open. -/
  | opening {markup last : List Char} {offset : Nat} {found : List Match} {inner : Heading} {outer : List Heading}
      {place : Location} (template : HasTemplate code markup offset) (matches_ : Matches offset markup found last)
      (matched : AreMatched [] found) (stays : openAfter [] found = inner :: outer)
      (stands : StandsAt code inner.start ('<' :: inner.tag.toList)) : Blames parse code inner.start (.unclosedTag inner.tag place)
  /-- An opening tag with a binding that is no expression. -/
  | binding {markup last : List Char} {offset : Nat} {found : List Match} {one : Match} {tag name cause : String}
      {attributes : List Template.Attribute} {written : Template.Attribute} {selfClosing : Bool} {text : List Char}
      {place : Location} (template : HasTemplate code markup offset) (matches_ : Matches offset markup found last) (member : one ∈ found)
      (isTag : one.tag? = some (.opening tag attributes selfClosing)) (among : written ∈ attributes)
      (bound : AttributeForm.ofName written.1 = .bound name) (resolved : unescaped written.2 = .ok text)
      (malformed : Script.evaluateText text parse = .error (.malformedExpression cause))
      (stands : StandsAt code one.start ('<' :: tag.toList)) :
      Blames parse code one.start (.malformedBinding (String.ofList ((Text.trim text).take 40))
        (Failure.malformedExpression cause).message place)

/-- A failure that points into a source is about what stands there. With a column it points to its place. The line without a
column is counted after style blocks have given way to blanks. -/
def PointsTo (parse : Script.Parser) (code : List Char) (failure : Failure) : Prop :=
  ∀ line column?, failure.place? = some (line, column?) → ∃ offset, Blames parse code offset failure ∧
    (∀ column ∈ column?, Location.counted code offset = ⟨line, column⟩) ∧
    (column? = none → line = Text.lineFeeds ((withoutStyles code).take offset) + 1 ∧
      (HasFlatStyles code offset → line = (Location.counted code offset).line))

theorem pointsTo_of_place {place : Location} (placed : failure.place? = some (place.line, some place.column))
    (blames : Blames parse code offset failure) (counted : place = Location.counted code offset) : PointsTo parse code failure := by
  intro line column? same
  rw [placed] at same
  cases same
  refine ⟨offset, blames, fun column is_ => ?_, nofun⟩
  cases is_
  exact counted.symm

theorem pointsTo_of_not_points (unplaced : ¬ failure.Points) : PointsTo parse code failure := by
  intro line column? placed
  refine absurd ?_ unplaced
  rw [Failure.Points, placed]
  exact Option.some_ne_none _

/-- A tag of the template stands in the source where its match starts, and its place is counted there. -/
theorem standsAt_of_hasTemplate (template : HasTemplate code markup offset) (matches_ : Matches offset markup found last)
    (member : one ∈ found) {tag : Tag} (isTag : one.tag? = some tag) :
    StandsAt code one.start tag.sign ∧ Location.ofOffset code one.start = Location.counted code one.start := by
  obtain ⟨blocks, read, within⟩ := template
  obtain ⟨distance, start, inside, solid⟩ := matches_.standsAt member isTag
  have blanked : StandsAt (withoutStyles code) one.start tag.sign := by
    rw [start]
    exact (Blocks.standsAt_of_ofSource read within).within inside
  have stands := (Blocks.isBlanked_withoutStyles code).standsAt blanked solid
  exact ⟨stands, Location.ofOffset_eq_counted stands.offset_le⟩

/-! ### Each part of the reading -/

theorem pointsTo_ofSource (code : List Char) : FailsOnly (PointsTo parse code) (Blocks.ofSource (withoutStyles code)) := by
  intro failure failed line column? placed
  obtain ⟨front, rest, first, unclosed, rfl⟩ := Blocks.ofSource_eq_error failed
  cases placed
  obtain ⟨attributes, later, whole, opens⟩ := Blocks.exists_of_templateOpening? first
  obtain ⟨name, more, rfl, named, -⟩ := Blocks.exists_of_opening? opens
  have solid : ' ' ∉ name := fun member => by
    have folded : foldCase ' ' ∈ name.map foldCase := List.mem_map_of_mem member
    rw [named] at folded
    revert folded
    decide
  have stands := (Blocks.isBlanked_withoutStyles code).standsAt ⟨front, more, whole, rfl⟩ solid
  refine ⟨front.length, .template first unclosed named stands, nofun, fun _ => ?_⟩
  have line : Text.lineFeeds front = Text.lineFeeds ((withoutStyles code).take front.length) := by
    rw [whole, List.take_left]
  refine ⟨by rw [line], fun flat => ?_⟩
  rw [line, Blocks.lineFeeds_take_withoutStyles flat]
  rfl

theorem pointsTo_scan (template : HasTemplate code markup offset) :
    FailsOnly (PointsTo parse code) (Template.scan markup offset code) := by
  intro failure failed
  obtain ⟨found, last, matches_⟩ := Template.exists_matches offset markup
  by_cases matched : AreMatched [] found
  · cases stays : openAfter [] found with
    | nil =>
      obtain ⟨root, read⟩ := Template.scan_of_balanced code matches_ matched stays
      rw [read] at failed
      cases failed
    | cons inner outer =>
      rw [Template.scan_of_open code matches_ matched stays] at failed
      obtain rfl := Except.error.inj failed
      have opened : inner ∈ openAfter [] found := stays ▸ List.mem_cons_self
      obtain ⟨one, member, opens⟩ := (Template.exists_of_mem_openAfter opened).resolve_left List.not_mem_nil
      obtain ⟨selfClosing, isTag, start⟩ := Template.tag?_of_heading? opens
      obtain ⟨stands, counted⟩ := standsAt_of_hasTemplate template matches_ member isTag
      rw [start] at stands counted
      exact pointsTo_of_place rfl (.opening template matches_ matched stays stands) counted
  · obtain ⟨before, one, after, rfl, matched, fails⟩ := Template.exists_unmatched matched
    obtain ⟨tag, isClosing⟩ := Template.closing_of_not_agrees fails
    rw [Template.scan_of_disagreeing code matches_ isClosing matched fails] at failed
    obtain rfl := Except.error.inj failed
    obtain ⟨stands, counted⟩ :=
      standsAt_of_hasTemplate template matches_ (List.mem_append_right _ List.mem_cons_self) isClosing
    exact pointsTo_of_place rfl (.closing template matches_ isClosing matched fails stands) counted

theorem pointsTo_extract (template : HasTemplate code markup offset) {root : TemplateNode}
    (read : Template.scan markup offset code = .ok root) : FailsOnly (PointsTo parse code) (TemplateMotion.extract parse code root) := by
  intro failure failed
  by_cases points : failure.Points
  · obtain ⟨-, each⟩ := Template.scan_eq_ok_iff_balanced markup code offset
    obtain ⟨found, last, matches_⟩ := Template.exists_matches offset markup
    obtain ⟨-, -, -, -, -, tree⟩ := each found last matches_
    obtain ⟨heading, member, misbinds⟩ :=
      TemplateMotion.misbinds_collect (LineIndex.ofText code) none root.children failure failed points
    obtain ⟨⟨around, heading⟩, enclosed, rfl⟩ := List.mem_map.mp member
    rw [(tree root read).2.1] at enclosed
    obtain ⟨one, member, opens⟩ := Template.exists_of_mem_enclosures enclosed
    obtain ⟨selfClosing, isTag, start⟩ := Template.tag?_of_heading? opens
    obtain ⟨stands, counted⟩ := standsAt_of_hasTemplate template matches_ member isTag
    cases misbinds with
    | mk among bound resolved malformed =>
      refine pointsTo_of_place rfl (.binding template matches_ member isTag among bound resolved malformed stands) ?_
      rw [LineIndex.location_ofText, ← counted, start]
  · exact pointsTo_of_not_points points

theorem pointsTo_readTemplateComponent (source : Source) : FailsOnly (PointsTo parse source.code) (readTemplateComponent parse source) := by
  unfold readTemplateComponent
  refine (pointsTo_ofSource source.code).bind fun blocks read => ?_
  have blocksRead : FailsOnly (PointsTo parse source.code) (readBlocks parse source blocks.scripts) :=
    (failsOnly_readBlocks source blocks.scripts).mono fun failure unread => pointsTo_of_not_points fun points => by
      rcases unread with rfl | rfl <;> exact absurd rfl points
  cases here : blocks.template? with
  | none =>
    have template : source.readTemplate blocks = .ok none := by rw [readTemplate, here]
    rw [template]
    exact blocksRead.bind fun facts _ => (failsOnly_ok _).bind fun found _ => failsOnly_ok _
  | some found =>
    obtain ⟨markup, offset⟩ := found
    have template : source.readTemplate blocks = some <$> Template.scan markup offset source.code := by
      rw [readTemplate, here]
    rw [template]
    refine ((pointsTo_scan ⟨blocks, read, here⟩).map _).bind fun tree? made => ?_
    obtain ⟨root, scanned, rfl⟩ := Outcome.map_eq_ok.mp made
    refine blocksRead.bind fun facts _ => ?_
    exact (pointsTo_extract ⟨blocks, read, here⟩ scanned).bind fun found _ => failsOnly_ok _

/-- A source with styles on three lines before a template that is not closed. -/
def styledOpen : Source := ⟨"<style>\n.a\n</style>\n<template>\n<p>".toList, some "vue", none, none⟩

end Source

end AnimationCode
