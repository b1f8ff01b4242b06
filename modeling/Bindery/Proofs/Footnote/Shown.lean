import Bindery.Proofs.Footnote.Reconcile
import Bindery.Proofs.Footnote.Tidy
import Mathlib.Order.Interval.Finset.Nat
import Mathlib.Data.Set.Card

/-!
# The notes that the markup shows

Notes are counted in the tree of a document, and an id of the body itself counts too,
but the markup shows only what is below the body. The numbers that are read back from
the markup are those that were given exactly if each note has an id below the body.
-/

set_option autoImplicit false

namespace Bindery.Footnote

open Html (Place Element TidyBody)

/-! ## Numbers that are read back -/

/-- The numbers of the notes whose ids the elements have. -/
def noteNumbers (elements : List Element) : Set Nat :=
  {number | ∃ element ∈ elements, Marker.ofElement? element = some ⟨.note, number⟩}

/-- The elements of the text, when it is read, have the ids of notes with these numbers. -/
def ReadAs (html : String) (numbers : Set Nat) : Prop :=
  ∃ reread, Html.parseBody? html = some reread ∧ noteNumbers reread.labels = numbers

/-- The elements of the text, when it is read, have the ids of so many notes, counted from
`start`. -/
def CountsNotes (html : String) (start count : Nat) : Prop :=
  ∃ reread, Html.parseBody? html = some reread ∧
    (noteNumbers reread.labels).ncard = count ∧
    noteNumbers reread.labels = Set.Ico start (start + count)

theorem ReadAs.countsNotes_iff {html : String} {numbers : Set Nat} {start count : Nat}
    (read : ReadAs html numbers) :
    CountsNotes html start count ↔ numbers = Set.Ico start (start + count) := by
  obtain ⟨reread, parsed, rfl⟩ := read
  constructor
  · rintro ⟨other, otherParsed, -, range⟩
    obtain rfl := Option.some.inj (parsed.symm.trans otherParsed)
    exact range
  · intro range
    refine ⟨reread, parsed, ?_, range⟩
    rw [range, ← Finset.coe_Ico, Set.ncard_coe_finset, Nat.card_Ico, Nat.add_sub_cancel_left]

theorem noteNumbers_append (left right : List Element) :
    noteNumbers (left ++ right) = noteNumbers left ∪ noteNumbers right := by
  ext number
  simp only [noteNumbers, List.mem_append, Set.mem_ofPred_eq, Set.mem_union, or_and_right,
    exists_or]

/-- A body without attributes has no id, so only what is below it counts. -/
theorem noteNumbers_of_reread {reread : Html.Node} {nodes : List Html.Node}
    (tags : ∀ tag, tag ∈ reread.labels ↔
      tag = .ofName "body" [] ∨ tag ∈ Html.Tree.labelsAll nodes) :
    noteNumbers reread.labels = noteNumbers (Html.Tree.labelsAll nodes) := by
  ext number
  simp only [noteNumbers, Set.mem_ofPred_eq, tags, or_and_right, exists_or]
  refine or_iff_right ?_
  rintro ⟨tag, rfl, read⟩
  cases read

/-- The markup of tidy nodes is read as having their notes. -/
theorem readAs_of_tidyBody {nodes : List Html.Node} (body : TidyBody nodes) :
    ReadAs (Html.Tree.writeAll .outside nodes) (noteNumbers (Html.Tree.labelsAll nodes)) := by
  obtain ⟨reread, parsed, tags⟩ := body.parseBody?
  exact ⟨reread, parsed, noteNumbers_of_reread tags⟩

theorem mem_noteNumbers_labels {node : Html.Node} {number : Nat} :
    number ∈ noteNumbers node.labels ↔ ∃ place, Carries node place ⟨.note, number⟩ := by
  simp only [noteNumbers, Set.mem_ofPred_eq, Html.Tree.mem_labels, carries_iff,
    Option.bind_eq_some_iff]
  constructor
  · rintro ⟨element, ⟨place, found⟩, read⟩
    exact ⟨place, element, found, read⟩
  · rintro ⟨place, element, found, read⟩
    exact ⟨element, ⟨place, found⟩, read⟩

theorem mem_noteNumbers_children {node : Html.Node} {number : Nat} :
    number ∈ noteNumbers (Html.Tree.labelsAll node.children) ↔
      ∃ place ≠ [], Carries node place ⟨.note, number⟩ := by
  simp only [noteNumbers, Set.mem_ofPred_eq, Html.Tree.mem_labelsAll_children, carries_iff,
    Option.bind_eq_some_iff]
  constructor
  · rintro ⟨element, ⟨place, below, found⟩, read⟩
    exact ⟨place, below, element, found, read⟩
  · rintro ⟨place, below, element, found, read⟩
    exact ⟨element, ⟨place, below, found⟩, read⟩

/-! ## Texts and their notes -/

/-- A text and the body that is read from it. -/
structure Source where
  text : String
  body : Html.Node
  parsed : Html.parseBody? text = some body

namespace Source

variable {source : Source} {start : Nat}

def count (source : Source) : Nat := (notesOf source.body).length

def renumbered (source : Source) (start : Nat) : Html.Node := reconcileTree start source.body

/-- The numbers below the body when the notes are counted from `start`. -/
def numbersShown (source : Source) (start : Nat) : Set Nat :=
  noteNumbers (Html.Tree.labelsAll (source.renumbered start).children)

/-- Each note has an id below the body. -/
def ShowsNotes (source : Source) : Prop :=
  ∀ note ∈ notesOf source.body, ∃ place ≠ [], Defines source.body place note

/-- The text has tidy markup, and it is that markup if it stays as it is. -/
structure IsTidy (source : Source) : Prop where
  some : source.body.children ≠ []
  body : TidyBody source.body.children
  written : Settled source.body → source.text = source.body.inner

theorem mem_numbersShown (bound : start + source.count < Marker.limit) (positive : 0 < start)
    {number : Nat} :
    number ∈ source.numbersShown start ↔
      ∃ place ≠ [], ∃ note, Defines source.body place note ∧
        newNumber source.body start note = number := by
  simp only [numbersShown, mem_noteNumbers_children, renumbered, carries_note_iff positive bound]

theorem numbersShown_subset (positive : 0 < start) (bound : start + source.count < Marker.limit) :
    source.numbersShown start ⊆ Set.Ico start (start + source.count) := by
  intro number shown
  obtain ⟨place, -, note, defined, rfl⟩ := (mem_numbersShown bound positive).mp shown
  exact newNumber_bounds start (mem_notesOf.mpr ⟨place, defined⟩)

/-- All numbers that are given are shown if all notes are. -/
theorem numbersShown_eq_iff (positive : 0 < start) (bound : start + source.count < Marker.limit) :
    source.numbersShown start = Set.Ico start (start + source.count) ↔ source.ShowsNotes := by
  constructor
  · intro all note listed
    have given : newNumber source.body start note ∈ Set.Ico start (start + source.count) :=
      newNumber_bounds start listed
    rw [← all, mem_numbersShown bound positive] at given
    obtain ⟨place, below, other, defined, same⟩ := given
    obtain rfl := newNumber_injective listed same.symm
    exact ⟨place, below, defined⟩
  · intro shows
    refine (numbersShown_subset positive bound).antisymm fun number range => ?_
    obtain ⟨index, rfl⟩ := Nat.exists_eq_add_of_le range.1
    have inside : index < (notesOf source.body).length := Nat.lt_of_add_lt_add_left range.2
    have listed := List.getElem_mem inside
    obtain ⟨place, below, defined⟩ := shows _ listed
    refine (mem_numbersShown bound positive).mpr ⟨place, below, _, defined, ?_⟩
    exact (newNumber_eq_iff listed).mpr (List.getElem?_eq_getElem inside)

theorem showsNotes_of_unnoted (unnoted : noteAt? source.body [] = none) : source.ShowsNotes := by
  intro note listed
  obtain ⟨place, defined⟩ := mem_notesOf.mp listed
  refine ⟨place, ?_, defined⟩
  rintro rfl
  rw [noteAt?_eq_some_iff.mpr defined] at unnoted
  cases unnoted

/-- What comes out of a text without notes is read as having none, and so is tidy markup. -/
theorem readAs (read : Settled source.body ∨ TidyBody source.body.children) {result : Reconciled}
    (written : Written source.text source.body (source.renumbered start) result) :
    ReadAs result.html (source.numbersShown start) := by
  by_cases settled : Settled source.body
  · obtain ⟨same, unchanged⟩ := written.settled settled
    have none : ∀ node place number, node = source.body → ¬ Carries node place ⟨.note, number⟩ := by
      rintro node place number rfl carries
      exact settled.1 place (_, number) ⟨carries, rfl⟩
    refine ⟨source.body, unchanged ▸ source.parsed, ?_⟩
    ext number
    rw [numbersShown, mem_noteNumbers_children, mem_noteNumbers_labels, same]
    exact iff_of_false (fun ⟨place, carries⟩ => none _ place number rfl carries)
      fun ⟨place, _, carries⟩ => none _ place number rfl carries
  · have tidy := read.resolve_left settled
    rw [written.unsettled settled]
    exact readAs_of_tidyBody (tidyBody_reconcileTree start tidy)

theorem IsTidy.inner (tidy : source.IsTidy) {result : Reconciled}
    (written : Written source.text source.body (source.renumbered start) result) :
    result.html = (source.renumbered start).inner := by
  by_cases settled : Settled source.body
  · obtain ⟨same, unchanged⟩ := written.settled settled
    rw [unchanged, same, tidy.written settled]
  · exact written.unsettled settled

theorem eq_of_text {other : Source} (same : source.text = other.text) : source = other := by
  obtain ⟨text, body, parsed⟩ := source
  obtain ⟨_, otherBody, otherParsed⟩ := other
  cases same
  cases Option.some.inj (parsed.symm.trans otherParsed)
  rfl

end Source

/-! ## Several texts, one after the other -/

/-- The numbers that several texts show when their notes are counted on from one to the next. -/
def numbersShown (start : Nat) : List Source → Set Nat
  | [] => ∅
  | source :: sources => source.numbersShown start ∪ numbersShown (start + source.count) sources

def countAll (sources : List Source) : Nat := (sources.map Source.count).sum

theorem countAll_cons (source : Source) (sources : List Source) :
    countAll (source :: sources) = source.count + countAll sources := List.sum_cons

theorem numbersShown_subset {start : Nat} {sources : List Source} (positive : 0 < start)
    (bound : start + countAll sources < Marker.limit) :
    numbersShown start sources ⊆ Set.Ico start (start + countAll sources) := by
  induction sources generalizing start with
  | nil => exact Set.empty_subset _
  | cons source sources ih =>
      rw [countAll_cons] at bound ⊢
      refine Set.union_subset ?first ?others
      case first =>
        refine (Source.numbersShown_subset positive (by omega)).trans ?_
        exact Set.Ico_subset_Ico_right (by omega)
      case others =>
        refine (ih (by omega) (by omega)).trans ?_
        rw [Nat.add_assoc]
        exact Set.Ico_subset_Ico_left (by omega)

/-- Two parts of a range fill it exactly if each fills its own. -/
theorem union_eq_Ico_iff {first second : Set Nat} {start middle last : Nat}
    (start_le : start ≤ middle) (le_last : middle ≤ last)
    (below : first ⊆ Set.Ico start middle) (above : second ⊆ Set.Ico middle last) :
    first ∪ second = Set.Ico start last ↔
      first = Set.Ico start middle ∧ second = Set.Ico middle last := by
  constructor
  · intro whole
    constructor
    · refine below.antisymm fun number range => ?_
      have member : number ∈ first ∪ second := whole ▸ ⟨range.1, range.2.trans_le le_last⟩
      exact member.resolve_right fun other => absurd (above other).1 (Nat.not_le.mpr range.2)
    · refine above.antisymm fun number range => ?_
      have member : number ∈ first ∪ second := whole ▸ ⟨start_le.trans range.1, range.2⟩
      exact member.resolve_left fun other => absurd (below other).2 (Nat.not_lt.mpr range.1)
  · rintro ⟨rfl, rfl⟩
    exact Set.Ico_union_Ico_eq_Ico start_le le_last

theorem numbersShown_eq_iff {start : Nat} {sources : List Source} (positive : 0 < start)
    (bound : start + countAll sources < Marker.limit) :
    numbersShown start sources = Set.Ico start (start + countAll sources) ↔
      ∀ source ∈ sources, source.ShowsNotes := by
  -- Each text has a range of its own, which no other text can fill.
  induction sources generalizing start with
  | nil => simp [numbersShown, countAll]
  | cons source sources ih =>
      rw [countAll_cons] at bound ⊢
      have own : start + source.count < Marker.limit := by omega
      have after : start + source.count + countAll sources < Marker.limit := by omega
      have later : 0 < start + source.count := by omega
      rw [List.forall_mem_cons, ← Source.numbersShown_eq_iff positive own, ← ih later after,
        ← Nat.add_assoc]
      exact union_eq_Ico_iff (Nat.le_add_right _ _) (Nat.le_add_right _ _)
        (Source.numbersShown_subset positive own) (numbersShown_subset later after)

/-- The id of the body is counted as a note, and nothing of what comes out has it. -/
theorem id_of_body_counted :
    let html := "<body id=\"fn1\">x</body>"
    ∃ result after, reconcile html .start = .ok (result, after) ∧ result.html = "x" ∧
      result.definitions = 1 ∧ ReadAs result.html ∅ ∧
      ¬ CountsNotes result.html 1 result.definitions := by
  intro html
  have ran : reconcile html .start = .ok (⟨"x", 1, 0⟩, Counter.start.advance 1) := by
    decide +kernel
  have parsed : Html.parseBody? "x" = some (.element (.ofName "body" []) [.text "x"]) := by
    decide +kernel
  have read : ReadAs "x" ∅ := by
    have unmarked : Marker.ofElement? (.ofName "body" []) = none := by decide
    exact ⟨_, parsed, by simp [noteNumbers, Html.Tree.labels, Html.Tree.labelsAll, unmarked]⟩
  refine ⟨_, _, ran, rfl, rfl, read, ?_⟩
  rw [read.countsNotes_iff]
  intro range
  have first : 1 ∈ Set.Ico 1 (1 + 1) := ⟨Nat.le_refl 1, Nat.lt_succ_self 1⟩
  rw [← range] at first
  exact first

end Bindery.Footnote
