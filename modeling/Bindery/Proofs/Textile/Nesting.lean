import Bindery.Proofs.Textile.Carried
import Bindery.Proofs.Textile.Tag

/-!
# Elements around phrases

A rule that puts an element around the phrases it takes leaves the tags nested exactly
if they were nested before and each phrase lies between tags, with its own tags nested
in it.
-/

set_option autoImplicit false

namespace Bindery.Textile

/-- The place of a reader who is between tags. -/
abbrev between : Place := .plain .text

/-- From a place and with some elements open, the text leads to a place with others open. -/
def Reads (place : Place) (stack : List (List Char)) (text : List Char) (last : Place)
    (after : List (List Char)) : Prop :=
  ∃ marks, run pass place text = some (marks, last) ∧ nest stack marks = some after

/-- The text leads from between tags back there, and leaves the elements open that were open,
exactly if the condition holds; if not, it cannot be read. -/
def Neutral (text : List Char) (condition : Prop) : Prop :=
  ∀ stack last after, Reads between stack text last after ↔
    condition ∧ last = between ∧ after = stack

section

variable {place last : Place} {stack after : List (List Char)} {text first second : List Char}
  {marks : List Mark} {name : List Char} {condition other : Prop} {c : Char}

theorem reads_append_iff :
    Reads place stack (first ++ second) last after ↔
      ∃ middle opened, Reads place stack first middle opened ∧
        Reads middle opened second last after := by
  constructor
  · intro read
    obtain ⟨marks, read, nested⟩ := read
    obtain ⟨here, middle, others, front, back, rfl⟩ := run_append_eq_some_iff.mp read
    obtain ⟨opened, below, above⟩ := nest_append_eq_some_iff.mp nested
    exact ⟨middle, opened, ⟨here, front, below⟩, ⟨others, back, above⟩⟩
  · intro read
    obtain ⟨middle, opened, ⟨here, front, below⟩, ⟨others, back, above⟩⟩ := read
    exact ⟨here ++ others, run_append front back,
      nest_append_eq_some_iff.mpr ⟨opened, below, above⟩⟩

/-- A text of which the tags are known leads where they tell. -/
theorem reads_of_run {middle : Place} {opened : List (List Char)}
    (read : run pass place text = some (marks, middle)) (nested : nest stack marks = some opened) :
    Reads place stack text last after ↔ last = middle ∧ after = opened := by
  constructor
  · intro reads
    obtain ⟨tags, again, others⟩ := reads
    cases read.symm.trans again
    cases nested.symm.trans others
    exact ⟨rfl, rfl⟩
  · rintro ⟨rfl, rfl⟩
    exact ⟨marks, read, nested⟩

theorem reads_append_of_run {middle : Place} {opened : List (List Char)}
    (read : run pass place first = some (marks, middle)) (nested : nest stack marks = some opened) :
    Reads place stack (first ++ second) last after ↔ Reads middle opened second last after := by
  rw [reads_append_iff]
  constructor
  · intro reads
    obtain ⟨place, inner, front, later⟩ := reads
    obtain ⟨rfl, rfl⟩ := (reads_of_run read nested).mp front
    exact later
  · intro later
    exact ⟨middle, opened, ⟨marks, read, nested⟩, later⟩

theorem reads_cons_iff :
    Reads place stack (c :: text) last after ↔ ∃ here next opened,
      pass place c = some (here, next) ∧ nest stack here = some opened ∧
        Reads next opened text last after := by
  constructor
  · intro reads
    obtain ⟨marks, read, nested⟩ := reads
    obtain ⟨here, next, others, stepped, later, rfl⟩ := run_cons_eq_some_iff.mp read
    obtain ⟨opened, below, above⟩ := nest_append_eq_some_iff.mp nested
    exact ⟨here, next, opened, stepped, below, ⟨others, later, above⟩⟩
  · intro reads
    obtain ⟨here, next, opened, stepped, below, ⟨others, later, above⟩⟩ := reads
    exact ⟨here ++ others, run_cons_eq_some_iff.mpr ⟨here, next, others, stepped, later, rfl⟩,
      nest_append_eq_some_iff.mpr ⟨opened, below, above⟩⟩

theorem reads_nil_iff : Reads place stack [] last after ↔ last = place ∧ after = stack :=
  reads_of_run rfl rfl

theorem neutral_nil : Neutral [] True := by
  intro stack last after
  rw [reads_nil_iff, true_and]

theorem Neutral.congr (neutral : Neutral text condition) (same : condition ↔ other) :
    Neutral text other := by
  intro stack last after
  rw [neutral, same]

theorem Neutral.append (front : Neutral first condition) (back : Neutral second other) :
    Neutral (first ++ second) (condition ∧ other) := by
  intro stack last after
  rw [reads_append_iff]
  constructor
  · intro reads
    obtain ⟨middle, opened, here, later⟩ := reads
    obtain ⟨holds, rfl, rfl⟩ := (front _ _ _).mp here
    obtain ⟨holding, rfl, rfl⟩ := (back _ _ _).mp later
    exact ⟨⟨holds, holding⟩, rfl, rfl⟩
  · rintro ⟨⟨holds, holding⟩, rfl, rfl⟩
    exact ⟨between, after, (front _ _ _).mpr ⟨holds, rfl, rfl⟩,
      (back _ _ _).mpr ⟨holding, rfl, rfl⟩⟩

/-- Nested tags are nested within any elements. -/
theorem neutral_of_run (read : run pass between text = some (marks, between))
    (nested : nest [] marks = some []) : Neutral text True := by
  intro stack last after
  have same : nest stack marks = some stack := nest_above nested stack
  rw [reads_of_run read same, true_and]

theorem neutral_of_plain (plain : '<' ∉ text ∧ '>' ∉ text) : Neutral text True := by
  refine neutral_of_run (run_of_stays fun c member => pass_of_step ?_) rfl
  have left : c ≠ '<' := fun same => plain.1 (same ▸ member)
  have right : c ≠ '>' := fun same => plain.2 (same ▸ member)
  rw [step, if_neg left, if_neg right]

theorem Neutral.flatMap {α : Type} {items : List α} {write : α → List Char}
    {condition : α → Prop} (each : ∀ item ∈ items, Neutral (write item) (condition item)) :
    Neutral (items.flatMap write) (∀ item ∈ items, condition item) := by
  induction items with
  | nil => exact neutral_nil.congr (by simp)
  | cons item items ih =>
      obtain ⟨here, others⟩ := List.forall_mem_cons.mp each
      rw [List.flatMap_cons]
      exact (here.append (ih others)).congr List.forall_mem_cons.symm

/-- An element is neutral if its content is. -/
theorem Neutral.within (neutral : Neutral text condition)
    (opens : run pass between first = some (marks, between))
    (opened : nest [] marks = some [name])
    (closes : run pass between second = some ([.finish name], between)) :
    Neutral (first ++ (text ++ second)) condition := by
  intro stack last after
  have inside : nest stack marks = some (name :: stack) := nest_above opened stack
  have closed : nest (name :: stack) [.finish name] = some stack := if_pos rfl
  rw [reads_append_of_run opens inside, reads_append_iff]
  constructor
  · intro reads
    obtain ⟨middle, opened, here, later⟩ := reads
    obtain ⟨holds, rfl, rfl⟩ := (neutral _ _ _).mp here
    exact ⟨holds, (reads_of_run closes closed).mp later⟩
  · intro reads
    exact ⟨between, name :: stack, (neutral _ _ _).mpr ⟨reads.1, rfl, rfl⟩,
      (reads_of_run closes closed).mpr reads.2⟩

end

/-! ## Rules that put elements around phrases -/

def startTag (name : String) : List Char := "<".toList ++ name.toList ++ ">".toList

def endTag (name : String) : List Char := "</".toList ++ name.toList ++ ">".toList

theorem element_append (name : String) (content rest : List Char) :
    element name content ++ rest = startTag name ++ (content ++ (endTag name ++ rest)) := by
  simp only [element, startTag, endTag, List.append_assoc]

/-- The tags of the element are read as such. -/
structure IsElement (name : String) : Prop where
  opens : run pass between (startTag name) = some ([.start name.toList], between)
  closes : run pass between (endTag name) = some ([.finish name.toList], between)

instance (name : String) : Decidable (IsElement name) :=
  decidable_of_iff (_ ∧ _) ⟨fun own => ⟨own.1, own.2⟩, fun own => ⟨own.opens, own.closes⟩⟩

/-- A rule that takes phrases between two marks, behind some characters that it keeps, and puts an
element around them. -/
structure Surrounds (rule : Text.Rule) (mark : Char) (lead : Nat) (name : String) : Prop where
  uses : Text.UsedAs rule fun taken written _ => ∃ before content, before.length = lead ∧
    mark ∉ content ∧ taken = before ++ mark :: (content ++ [mark]) ∧
      written = before ++ element name content
  own : IsElement name
  stays : pass between mark = some ([], between)

theorem surrounds_phraseRule {mark : Char} {name : String} (own : IsElement name)
    (stays : pass between mark = some ([], between)) :
    Surrounds (phraseRule mark name) mark 0 name where
  uses := (usedAs_phraseRule name).imp fun _ _ _ ⟨content, _, once, taken, written⟩ =>
    ⟨[], content, rfl, once, taken, written⟩
  own := own
  stays := stays

theorem surrounds_emphasisRule : Surrounds emphasisRule '_' 1 "em" where
  uses := usedAs_emphasisRule.imp fun _ _ _ ⟨c, content, _, _, once, taken, written⟩ =>
    ⟨[c], content, rfl, once, taken, written⟩
  own := by decide
  stays := by decide

/-- The content of a phrase that a rule takes behind some characters. -/
def phraseContent (mark : Char) (lead : Nat) (here : List Char) : List Char :=
  (here.drop (lead + 1)).takeWhile (· != mark)

/-- Each use of the rule, behind the characters that it keeps, begins between tags and is as it
should be. -/
def UsedBetween (rule : Text.Rule) (lead : Nat) (proper : List Char → Prop) (text : List Char) :
    Prop :=
  ∀ here ∈ Text.uses rule text,
    EndsOutside (restore [] (Text.ahead text here ++ here.take lead)) ∧ proper here

instance (rule : Text.Rule) (lead : Nat) (proper : List Char → Prop) [DecidablePred proper]
    (text : List Char) : Decidable (UsedBetween rule lead proper text) :=
  inferInstanceAs (Decidable (∀ here ∈ Text.uses rule text, _))

/-- From a place the text leads to between tags. -/
def LeadsBetween (place : Place) (text : List Char) : Prop :=
  ∃ marks, run pass place text = some (marks, between)

/-- What `UsedBetween` says, when reading begins at a place. -/
def UsedFrom (place : Place) (rule : Text.Rule) (lead : Nat) (proper : List Char → Prop)
    (text : List Char) : Prop :=
  ∀ here ∈ Text.uses rule text,
    LeadsBetween place (Text.ahead text here ++ here.take lead) ∧ proper here

/-- The tags in a phrase that a rule takes are nested. -/
def PhraseNested (mark : Char) (lead : Nat) (here : List Char) : Prop :=
  WellFormed (restore [] (phraseContent mark lead here))

instance (mark : Char) (lead : Nat) : DecidablePred (PhraseNested mark lead) :=
  fun _ => inferInstanceAs (Decidable (WellFormed _))

section

variable {place next last : Place} {stack after : List (List Char)}
  {text taken rest written content front : List Char} {rule : Text.Rule} {mark c : Char}
  {lead : Nat} {name : String} {marks : List Mark} {proper : List Char → Prop}

theorem endsOutside_restore_iff : EndsOutside (restore [] text) ↔ LeadsBetween between text := by
  unfold EndsOutside LeadsBetween
  simp only [run_restore_eq_some_iff]

theorem wellFormed_restore_iff :
    WellFormed (restore [] text) ↔ Reads between [] text between [] := by
  unfold WellFormed Reads
  simp only [run_restore_eq_some_iff]

theorem usedBetween_iff :
    UsedBetween rule lead proper text ↔ UsedFrom between rule lead proper text := by
  unfold UsedBetween UsedFrom
  simp only [endsOutside_restore_iff]

theorem leadsBetween_append_iff (read : run pass place front = some (marks, next)) :
    LeadsBetween place (front ++ text) ↔ LeadsBetween next text := by
  constructor
  · intro leads
    obtain ⟨marks, leads⟩ := leads
    obtain ⟨here, middle, others, first, later, -⟩ := run_append_eq_some_iff.mp leads
    cases read.symm.trans first
    exact ⟨others, later⟩
  · intro leads
    obtain ⟨others, later⟩ := leads
    exact ⟨marks ++ others, run_append read later⟩

/-- What is not used changes nothing but the place. -/
theorem usedFrom_unused (unused : Text.uses rule (front ++ rest) = Text.uses rule rest)
    (read : run pass place front = some (marks, next)) :
    UsedFrom place rule lead proper (front ++ rest) ↔ UsedFrom next rule lead proper rest := by
  unfold UsedFrom
  rw [unused]
  refine forall₂_congr fun here used => ?_
  rw [Text.ahead_of_suffix front (Text.suffix_of_uses used), List.append_assoc,
    leadsBetween_append_iff read]

theorem usedFrom_kept (kept : rule (c :: rest) = none)
    (read : pass place c = some (marks, next)) :
    UsedFrom place rule lead proper (c :: rest) ↔ UsedFrom next rule lead proper rest :=
  usedFrom_unused (Text.uses_kept kept) (run_singleton read)

theorem UsedFrom.first (whole : UsedFrom place rule lead proper (taken ++ rest))
    (nonempty : taken ≠ []) (used : rule (taken ++ rest) = some (taken.length, written)) :
    LeadsBetween place ((taken ++ rest).take lead) ∧ proper (taken ++ rest) := by
  have here := whole (taken ++ rest) (by rw [Text.uses_taken nonempty used]; simp)
  have alone := Text.ahead_append [] (taken ++ rest)
  rw [List.nil_append] at alone
  rwa [alone, List.nil_append] at here

theorem usedFrom_taken (nonempty : taken ≠ [])
    (used : rule (taken ++ rest) = some (taken.length, written))
    (read : run pass place taken = some (marks, next)) :
    UsedFrom place rule lead proper (taken ++ rest) ↔
      (LeadsBetween place ((taken ++ rest).take lead) ∧ proper (taken ++ rest)) ∧
        UsedFrom next rule lead proper rest := by
  unfold UsedFrom
  rw [Text.uses_taken nonempty used, List.forall_mem_cons]
  have alone := Text.ahead_append [] (taken ++ rest)
  rw [List.nil_append] at alone
  rw [alone, List.nil_append]
  refine and_congr Iff.rfl (forall₂_congr fun here used => ?_)
  rw [Text.ahead_of_suffix taken (Text.suffix_of_uses used), List.append_assoc,
    leadsBetween_append_iff read]

/-- Only between tags the sign that opens a tag can be read. -/
theorem eq_between_of_run (read : run pass place ('<' :: text) = some (marks, last)) :
    place = between := by
  obtain ⟨here, next, others, stepped, -, -⟩ := run_cons_eq_some_iff.mp read
  cases place with
  | standing mode begun =>
      have digit : Text.isDecimalDigit '<' = false := by decide
      have other : '<' ≠ closer := by decide
      simp [pass, digit, other] at stepped
  | plain mode =>
      by_contra outside
      have strange := step_angle fun same => outside (congrArg Place.plain same)
      rw [pass, strange] at stepped
      cases stepped

theorem run_element_iff (own : IsElement name) :
    run pass place (element name content ++ rest) = some (marks, last) ↔
      place = between ∧ ∃ inner others, run pass between content = some (inner, between) ∧
        run pass between rest = some (others, last) ∧
          marks = .start name.toList :: (inner ++ .finish name.toList :: others) := by
  rw [element_append]
  constructor
  · intro read
    obtain rfl := eq_between_of_run read
    obtain ⟨first, middle, others, opened, inside, rfl⟩ := run_append_eq_some_iff.mp read
    cases own.opens.symm.trans opened
    obtain ⟨inner, place, behind, phrase, closing, rfl⟩ := run_append_eq_some_iff.mp inside
    obtain rfl := eq_between_of_run closing
    obtain ⟨final, middle, others, closed, later, rfl⟩ := run_append_eq_some_iff.mp closing
    cases own.closes.symm.trans closed
    exact ⟨rfl, inner, others, phrase, later, rfl⟩
  · intro read
    obtain ⟨rfl, inner, others, phrase, later, rfl⟩ := read
    exact run_append own.opens (run_append phrase (run_append own.closes later))

/-- The marks around a phrase are characters like others. -/
theorem run_taken {before : List Char} {first inner : List Mark}
    (stays : pass between mark = some ([], between))
    (opening : run pass place before = some (first, between))
    (phrase : run pass between content = some (inner, between)) :
    run pass place (before ++ mark :: (content ++ [mark])) = some (first ++ inner, between) := by
  have closing := run_append_eq_some_iff.mpr
    ⟨inner, between, [], phrase, run_singleton stays, (List.append_nil inner).symm⟩
  have marked : run pass between (mark :: (content ++ [mark])) = some (inner, between) :=
    run_cons_eq_some_iff.mpr ⟨[], between, inner, stays, closing, rfl⟩
  exact run_append opening marked

/-- What can be read with elements around phrases can be read without them. Only the tags of these
elements are new. -/
theorem Surrounds.exists_run (surrounds : Surrounds rule mark lead name)
    (read : run pass place (Text.substitute rule text) = some (marks, last)) :
    ∃ others, run pass place text = some (others, last) ∧
      ∀ tag ∈ marks, tag.name = name.toList ∨ tag ∈ others := by
  revert place marks
  refine surrounds.uses.induction (motive := fun text written => ∀ {place marks},
    run pass place written = some (marks, last) → ∃ others,
      run pass place text = some (others, last) ∧
        ∀ tag ∈ marks, tag.name = name.toList ∨ tag ∈ others) ?_ ?_ ?_ text
  · intro place marks read
    exact ⟨marks, read, fun tag member => .inr member⟩
  · intro c rest kept ih place marks read
    obtain ⟨here, next, behind, stepped, later, rfl⟩ := run_cons_eq_some_iff.mp read
    obtain ⟨others, below, among⟩ := ih later
    refine ⟨here ++ others, run_cons_eq_some_iff.mpr ⟨here, next, others, stepped, below, rfl⟩, ?_⟩
    intro tag member
    rcases List.mem_append.mp member with first | behind
    · exact .inr (List.mem_append_left _ first)
    · exact (among tag behind).imp_right (List.mem_append_right here)
  · intro taken rest written used how ih place marks read
    obtain ⟨before, content, -, -, rfl, rfl⟩ := how
    rw [List.append_assoc] at read
    obtain ⟨front, middle, behind, opening, inside, rfl⟩ := run_append_eq_some_iff.mp read
    obtain ⟨rfl, inner, others, phrase, below, rfl⟩ :=
      (run_element_iff surrounds.own).mp inside
    obtain ⟨more, later, among⟩ := ih below
    have taken := run_taken surrounds.stays opening phrase
    refine ⟨front ++ inner ++ more, run_append taken later, ?_⟩
    intro tag member
    simp only [List.mem_append, List.mem_cons] at member ⊢
    rcases member with front | rfl | inner | rfl | others
    · exact .inr (.inl (.inl front))
    · exact .inl rfl
    · exact .inr (.inl (.inr inner))
    · exact .inl rfl
    · exact (among tag others).imp_right .inr

/-- No tag of the element is in what is read of the text. -/
def Lacks (name : String) (place : Place) (text : List Char) : Prop :=
  ∀ marks last, run pass place text = some (marks, last) → ∀ tag ∈ marks, tag.name ≠ name.toList

/-- An element is closed by its own end tag if no element in it has the same name. -/
theorem reads_element_iff (own : IsElement name) (lacks : Lacks name between content) :
    Reads place stack (element name content ++ rest) last after ↔
      place = between ∧ Reads between [] content between [] ∧
        Reads between stack rest last after := by
  constructor
  · intro reads
    obtain ⟨marks, read, nested⟩ := reads
    obtain ⟨rfl, inner, others, phrase, later, rfl⟩ := (run_element_iff own).mp read
    obtain ⟨opened, inside, closed⟩ := nest_append_eq_some_iff.mp nested
    obtain ⟨above, rfl, phrased, absent⟩ :=
      nest_of_other (lacks inner between phrase) List.not_mem_nil inside
    cases above with
    | nil =>
        rw [List.nil_append, nest, if_pos rfl] at closed
        exact ⟨rfl, ⟨inner, phrase, phrased⟩, ⟨others, later, closed⟩⟩
    | cons top above =>
        rw [List.cons_append, nest] at closed
        split at closed
        · next same => exact absurd (same ▸ List.mem_cons_self) absent
        · cases closed
  · intro reads
    obtain ⟨rfl, ⟨inner, phrase, phrased⟩, others, later, nested⟩ := reads
    refine ⟨_, (run_element_iff own).mpr ⟨rfl, inner, others, phrase, later, rfl⟩, ?_⟩
    rw [nest]
    refine nest_append_eq_some_iff.mpr ⟨_, nest_above phrased _, ?_⟩
    rw [List.nil_append, nest, if_pos rfl]
    exact nested

theorem phraseContent_taken {before : List Char} (length : before.length = lead)
    (once : mark ∉ content) (rest : List Char) :
    phraseContent mark lead (before ++ mark :: (content ++ [mark]) ++ rest) = content := by
  have others : ∀ c ∈ content, (c != mark) = true :=
    fun c member => bne_iff_ne.mpr fun same => once (same ▸ member)
  have inside : (before ++ mark :: (content ++ [mark]) ++ rest).drop (lead + 1) =
      content ++ mark :: rest := by
    rw [List.append_assoc, ← length, ← List.drop_drop, List.drop_left, List.cons_append,
      List.drop_succ_cons, List.drop_zero, List.append_assoc, List.singleton_append]
  rw [phraseContent, inside, List.takeWhile_append_of_pos others,
    List.takeWhile_cons_of_neg (by simp), List.append_nil]

theorem Lacks.of_cons (lacks : Lacks name place (c :: rest))
    (stepped : pass place c = some (marks, next)) : Lacks name next rest := by
  intro others last read tag member
  have whole := run_cons_eq_some_iff.mpr ⟨marks, next, others, stepped, read, rfl⟩
  exact lacks _ _ whole tag (List.mem_append_right marks member)

/-- No tag of the element is in a phrase or behind it if none is in the whole text. -/
theorem Lacks.of_taken {before : List Char} {first inner : List Mark}
    (lacks : Lacks name place (before ++ mark :: (content ++ [mark]) ++ rest))
    (stays : pass between mark = some ([], between))
    (opening : run pass place before = some (first, between))
    (phrase : run pass between content = some (inner, between))
    (later : run pass between rest = some (marks, last)) :
    Lacks name between content ∧ Lacks name between rest := by
  have whole : ∀ {marks last}, run pass between rest = some (marks, last) →
      ∀ tag ∈ first ++ inner ++ marks, tag.name ≠ name.toList := fun later =>
    lacks _ _ (run_append (run_taken stays opening phrase) later)
  constructor
  · intro again place same tag member
    cases phrase.symm.trans same
    exact whole later tag (List.mem_append_left _ (List.mem_append_right _ member))
  · intro again place same tag member
    exact whole same tag (List.mem_append_right _ member)

theorem reads_taken_iff {before : List Char} (stays : pass between mark = some ([], between))
    (leads : LeadsBetween place before) (closed : Reads between [] content between []) :
    Reads place stack (before ++ mark :: (content ++ [mark]) ++ rest) last after ↔
      ∃ opened, Reads place stack before between opened ∧ Reads between opened rest last after := by
  obtain ⟨first, opening⟩ := leads
  obtain ⟨inner, phrase, nested⟩ := closed
  have taken := run_taken stays opening phrase
  rw [reads_append_iff]
  constructor
  · intro reads
    obtain ⟨middle, opened, ⟨marks, read, stacked⟩, later⟩ := reads
    cases taken.symm.trans read
    obtain ⟨below, under, above⟩ := nest_append_eq_some_iff.mp stacked
    have same : nest below inner = some below := nest_above nested below
    cases same.symm.trans above
    exact ⟨opened, ⟨first, opening, under⟩, later⟩
  · intro reads
    obtain ⟨opened, ⟨marks, read, under⟩, later⟩ := reads
    cases opening.symm.trans read
    have stacked := nest_append_eq_some_iff.mpr ⟨opened, under, nest_above nested opened⟩
    exact ⟨between, opened, ⟨_, taken, stacked⟩, later⟩

/-- A use of the rule leaves the tags nested exactly if they are nested without the element and the
phrase lies between tags that are nested. -/
theorem Surrounds.reads_use_iff {before written' : List Char}
    (surrounds : Surrounds rule mark lead name) (length : before.length = lead)
    (once : mark ∉ content)
    (used : rule (before ++ mark :: (content ++ [mark]) ++ rest) =
      some ((before ++ mark :: (content ++ [mark])).length, written))
    (lacks : Lacks name place (before ++ mark :: (content ++ [mark]) ++ rest))
    (readable : ∀ {marks}, run pass between written' = some (marks, last) →
      ∃ others, run pass between rest = some (others, last))
    (behind : ∀ {stack}, Lacks name between rest → (Reads between stack written' last after ↔
      Reads between stack rest last after ∧
        UsedFrom between rule lead (PhraseNested mark lead) rest)) :
    Reads place stack (before ++ element name content ++ written') last after ↔
      Reads place stack (before ++ mark :: (content ++ [mark]) ++ rest) last after ∧
        UsedFrom place rule lead (PhraseNested mark lead)
          (before ++ mark :: (content ++ [mark]) ++ rest) := by
  have stays := surrounds.stays
  have nonempty : before ++ mark :: (content ++ [mark]) ≠ [] := by simp
  have start : (before ++ mark :: (content ++ [mark]) ++ rest).take lead = before := by
    rw [List.append_assoc, ← length, List.take_left]
  have inside : PhraseNested mark lead (before ++ mark :: (content ++ [mark]) ++ rest) ↔
      Reads between [] content between [] := by
    rw [PhraseNested, phraseContent_taken length once, wellFormed_restore_iff]
  rw [List.append_assoc]
  constructor
  · intro reads
    obtain ⟨middle, opened, ⟨first, opening, below⟩, reads⟩ := reads_append_iff.mp reads
    have ⟨marks, read, _⟩ := reads
    obtain ⟨rfl, inner, others, phrase, later, -⟩ := (run_element_iff surrounds.own).mp read
    obtain ⟨more, later⟩ := readable later
    obtain ⟨own, others⟩ := lacks.of_taken stays opening phrase later
    obtain ⟨-, closed, reads⟩ := (reads_element_iff surrounds.own own).mp reads
    obtain ⟨reads, whole⟩ := (behind others).mp reads
    refine ⟨(reads_taken_iff stays ⟨first, opening⟩ closed).mpr
      ⟨opened, ⟨first, opening, below⟩, reads⟩, ?_⟩
    rw [usedFrom_taken nonempty used (run_taken stays opening phrase), start, inside]
    exact ⟨⟨⟨first, opening⟩, closed⟩, whole⟩
  · intro reads
    obtain ⟨reads, whole⟩ := reads
    have here := whole.first nonempty used
    rw [start, inside] at here
    obtain ⟨⟨first, opening⟩, closed⟩ := here
    have ⟨inner, phrase, _⟩ := closed
    obtain ⟨opened, front, reads⟩ := (reads_taken_iff stays ⟨first, opening⟩ closed).mp reads
    have ⟨more, later, _⟩ := reads
    obtain ⟨own, others⟩ := lacks.of_taken stays opening phrase later
    have tail := (usedFrom_taken nonempty used (run_taken stays opening phrase)).mp whole
    refine reads_append_iff.mpr ⟨between, opened, front, ?_⟩
    exact (reads_element_iff surrounds.own own).mpr
      ⟨rfl, closed, (behind others).mpr ⟨reads, tail.2⟩⟩

/-- With elements around the phrases that the rule takes, the tags are nested exactly if they are
without them and the phrases lie between tags that are nested. -/
theorem Surrounds.reads_substitute_iff (surrounds : Surrounds rule mark lead name)
    (lacks : Lacks name place text) :
    Reads place stack (Text.substitute rule text) last after ↔
      Reads place stack text last after ∧
        UsedFrom place rule lead (PhraseNested mark lead) text := by
  revert place stack
  refine surrounds.uses.induction (motive := fun text written => ∀ {place stack},
    Lacks name place text → (Reads place stack written last after ↔
      Reads place stack text last after ∧
        UsedFrom place rule lead (PhraseNested mark lead) text)) ?_ ?_ ?_ text
  · intro place stack lacks
    exact ⟨fun reads => ⟨reads, nofun⟩, And.left⟩
  · intro c rest kept ih place stack lacks
    rw [reads_cons_iff, reads_cons_iff]
    constructor
    · intro reads
      obtain ⟨here, next, opened, stepped, nested, reads⟩ := reads
      obtain ⟨reads, whole⟩ := (ih (lacks.of_cons stepped)).mp reads
      exact ⟨⟨here, next, opened, stepped, nested, reads⟩,
        (usedFrom_kept kept stepped).mpr whole⟩
    · intro reads
      obtain ⟨⟨here, next, opened, stepped, nested, reads⟩, whole⟩ := reads
      have behind := (usedFrom_kept kept stepped).mp whole
      exact ⟨here, next, opened, stepped, nested, (ih (lacks.of_cons stepped)).mpr ⟨reads, behind⟩⟩
  · intro taken rest written used how ih place stack lacks
    obtain ⟨before, content, length, once, rfl, rfl⟩ := how
    refine surrounds.reads_use_iff length once used lacks (fun read => ?_) ih
    obtain ⟨others, later, -⟩ := surrounds.exists_run read
    exact ⟨others, later⟩

end

/-! ## One rule after another -/

/-- The text is neutral under a condition, and if it can be read, it ends between tags and only
elements of these names have tags in it. -/
structure TaggedBy (names : List String) (text : List Char) (condition : Prop) : Prop where
  neutral : Neutral text condition
  tags : ∀ marks last, run pass between text = some (marks, last) →
    last = between ∧ ∀ tag ∈ marks, ∃ name ∈ names, tag.name = name.toList

section

variable {names : List String} {text front : List Char} {condition other : Prop}
  {rule : Text.Rule} {mark : Char} {lead : Nat} {name : String}

theorem TaggedBy.congr (tagged : TaggedBy names text condition) (same : condition ↔ other) :
    TaggedBy names text other :=
  ⟨tagged.neutral.congr same, tagged.tags⟩

theorem TaggedBy.append (first : TaggedBy names front condition)
    (second : TaggedBy names text other) : TaggedBy names (front ++ text) (condition ∧ other) where
  neutral := first.neutral.append second.neutral
  tags := by
    intro marks last read
    obtain ⟨here, middle, others, opening, later, rfl⟩ := run_append_eq_some_iff.mp read
    obtain ⟨rfl, own⟩ := first.tags here middle opening
    obtain ⟨ends, more⟩ := second.tags others last later
    exact ⟨ends, fun tag member => (List.mem_append.mp member).elim (own tag) (more tag)⟩

theorem taggedBy_of_run {marks : List Mark} (read : run pass between text = some (marks, between))
    (nested : nest [] marks = some [])
    (named : ∀ tag ∈ marks, ∃ name ∈ names, tag.name = name.toList) : TaggedBy names text True where
  neutral := neutral_of_run read nested
  tags := by
    intro again last same
    cases read.symm.trans same
    exact ⟨rfl, named⟩

/-- A text that cannot be read is under no condition. -/
theorem taggedBy_of_unread (unread : run pass between text = none) :
    TaggedBy names text False where
  neutral := by
    intro stack last after
    refine iff_of_false ?_ fun impossible => impossible.1
    rintro ⟨marks, read, -⟩
    rw [unread] at read
    cases read
  tags := by
    intro marks last read
    rw [unread] at read
    cases read

theorem taggedBy_of_stays {c : Char} (stays : pass between c = some ([], between)) :
    TaggedBy names (c :: text) condition ↔ TaggedBy names text condition := by
  have same : run pass between (c :: text) = run pass between text := run_stay stays
  have reads : ∀ stack last after,
      Reads between stack (c :: text) last after ↔ Reads between stack text last after := by
    intro stack last after
    rw [Reads, Reads, same]
  constructor
  · intro tagged
    exact ⟨fun stack last after => (reads stack last after).symm.trans (tagged.neutral _ _ _),
      fun marks last read => tagged.tags marks last (same.trans read)⟩
  · intro tagged
    exact ⟨fun stack last after => (reads stack last after).trans (tagged.neutral _ _ _),
      fun marks last read => tagged.tags marks last (same.symm.trans read)⟩

theorem TaggedBy.lacks (tagged : TaggedBy names text condition) (fresh : name ∉ names) :
    Lacks name between text := by
  intro marks last read tag member same
  obtain ⟨other, among, named⟩ := (tagged.tags marks last read).2 tag member
  rw [named] at same
  exact fresh (String.toList_injective same ▸ among)

/-- A rule that puts elements of a new name around phrases adds the condition that the phrases lie
between tags that are nested. -/
theorem Surrounds.tagged (surrounds : Surrounds rule mark lead name)
    (tagged : TaggedBy names text condition) (fresh : name ∉ names) :
    TaggedBy (name :: names) (Text.substitute rule text)
      (condition ∧ UsedBetween rule lead (PhraseNested mark lead) text) where
  neutral := by
    intro stack last after
    rw [surrounds.reads_substitute_iff (tagged.lacks fresh), tagged.neutral, usedBetween_iff]
    constructor
    · exact fun reads => ⟨⟨reads.1.1, reads.2⟩, reads.1.2⟩
    · exact fun reads => ⟨⟨reads.1.1, reads.2⟩, reads.1.2⟩
  tags := by
    intro marks last read
    obtain ⟨others, read, among⟩ := surrounds.exists_run read
    obtain ⟨ends, known⟩ := tagged.tags others last read
    refine ⟨ends, fun tag member => ?_⟩
    rcases among tag member with own | old
    · exact ⟨name, List.mem_cons_self, own⟩
    · obtain ⟨other, listed, named⟩ := known tag old
      exact ⟨other, List.mem_cons_of_mem name listed, named⟩

/-- Emphasis at the very start is emphasis behind a blank. -/
theorem emphasise_eq (text : List Char) :
    ' ' :: emphasise text = Text.substitute emphasisRule (' ' :: text) := by
  have leads : leadsEmphasis ' ' = true := by decide
  rw [Text.substitute, Text.substituteAfter, emphasisRule, if_pos leads, emphasise]
  cases phrase? '_' text with
  | none => rfl
  | some content =>
      rw [Option.map_some]
      dsimp only
      rw [Text.substituteAfter_eq_drop, List.cons_append]
      rfl

theorem taggedBy_emphasise (tagged : TaggedBy names text condition) (fresh : "em" ∉ names) :
    TaggedBy ("em" :: names) (emphasise text)
      (condition ∧ UsedBetween emphasisRule 1 (PhraseNested '_' 1) (' ' :: text)) := by
  have blank : pass between ' ' = some ([], between) := by decide
  rw [← taggedBy_of_stays blank, emphasise_eq]
  exact surrounds_emphasisRule.tagged ((taggedBy_of_stays blank).mpr tagged) fresh

end

end Bindery.Textile
