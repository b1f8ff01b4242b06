import Bindery.Markdown.FootnoteLink
import Bindery.Proofs.Distinct
import Bindery.Proofs.Footnote.Marker

/-!
# Numbers of footnote labels

The table of labels only grows, so a label keeps its number to the end of the
text. Two labels have the same number exactly if they are spelled alike.
-/

set_option autoImplicit false

namespace Bindery.Markdown

/-- A number is a position in the table after it, which begins with the table before. -/
theorem FootnoteNumbers.number_stored {numbers after : FootnoteNumbers} {label : List Char}
    {number : Nat} (given : numbers.number label = (number, after)) :
    numbers.labels <+: after.labels ∧
      ∃ index, number = index + 1 ∧ after.labels[index]? = some label := by
  unfold FootnoteNumbers.number at given
  cases found : numbers.labels.idxOf? label with
  | some index =>
      rw [found] at given
      cases given
      obtain ⟨inside, same, -⟩ := List.idxOf?_eq_some_iff.mp found
      exact ⟨List.prefix_rfl, index, rfl, by simpa [List.getElem?_eq_some_iff] using ⟨inside, same⟩⟩
  | none =>
      rw [found] at given
      cases given
      exact ⟨List.prefix_append _ _, numbers.labels.length, rfl, by simp⟩

theorem FootnoteNumbers.number_nodup {numbers after : FootnoteNumbers} {label : List Char}
    {number : Nat} (given : numbers.number label = (number, after))
    (unique : numbers.labels.Nodup) : after.labels.Nodup := by
  unfold FootnoteNumbers.number at given
  cases found : numbers.labels.idxOf? label with
  | some index =>
      rw [found] at given
      cases given
      exact unique
  | none =>
      rw [found] at given
      cases given
      have fresh : label ∉ numbers.labels := List.idxOf?_eq_none_iff.mp found
      simpa [List.nodup_append] using ⟨unique, fun other member => (fresh <| · ▸ member)⟩

/-- What takes the place of an event when the labels stand in the table. -/
def LinkedBy (labels : List (List Char)) (source replaced : Event) : Prop :=
  match source with
  | .footnoteReference label =>
      ∃ index, labels[index]? = some label ∧ replaced = .html (referenceHtml (index + 1))
  | .start (.footnote label) =>
      ∃ index, labels[index]? = some label ∧ replaced = .html (definitionStartHtml (index + 1))
  | .finish (.footnote _) => ∃ number, replaced = .html (definitionEndHtml number)
  | event => replaced = event

/-- What an event is replaced by does not change when the table grows. -/
theorem LinkedBy.extend {labels more : List (List Char)} {source replaced : Event}
    (linked : LinkedBy labels source replaced) (growth : labels <+: more) :
    LinkedBy more source replaced := by
  have kept : ∀ {index : Nat} {label : List Char}, labels[index]? = some label →
      more[index]? = some label := by
    intro index label found
    obtain ⟨rest, rfl⟩ := growth
    exact (List.getElem?_append_left (List.getElem?_eq_some_iff.mp found).1).trans found
  unfold LinkedBy at linked ⊢
  split at linked
  · obtain ⟨index, found, same⟩ := linked
    exact ⟨index, kept found, same⟩
  · obtain ⟨index, found, same⟩ := linked
    exact ⟨index, kept found, same⟩
  · exact linked
  · exact linked

/-- The table after a sequence of events. -/
def FootnoteLinking.labelsAfter (linking : FootnoteLinking) : List Event → List (List Char)
  | [] => linking.numbers.labels
  | event :: rest => (linking.step event).1.labelsAfter rest

theorem FootnoteLinking.step_linked (linking : FootnoteLinking) (event : Event) :
    linking.numbers.labels <+: (linking.step event).1.numbers.labels ∧
      LinkedBy (linking.step event).1.numbers.labels event (linking.step event).2 := by
  unfold FootnoteLinking.step
  split
  · next label =>
      cases given : linking.numbers.number label with
      | mk number after =>
          obtain ⟨growth, index, rfl, stored⟩ := FootnoteNumbers.number_stored given
          exact ⟨growth, index, stored, rfl⟩
  · next label =>
      cases given : linking.numbers.number label with
      | mk number after =>
          obtain ⟨growth, index, rfl, stored⟩ := FootnoteNumbers.number_stored given
          exact ⟨growth, index, stored, rfl⟩
  · exact ⟨List.prefix_rfl, _, rfl⟩
  · next other notReference notStart notFinish =>
      refine ⟨List.prefix_rfl, ?_⟩
      unfold LinkedBy
      split
      · next label => exact absurd rfl (notReference label)
      · next label => exact absurd rfl (notStart label)
      · next label => exact absurd rfl (notFinish label)
      · rfl

theorem FootnoteLinking.step_nodup (linking : FootnoteLinking) (event : Event)
    (unique : linking.numbers.labels.Nodup) :
    (linking.step event).1.numbers.labels.Nodup := by
  unfold FootnoteLinking.step
  split
  · exact FootnoteNumbers.number_nodup rfl unique
  · exact FootnoteNumbers.number_nodup rfl unique
  · exact unique
  · exact unique

theorem FootnoteLinking.labelsAfter_growth (linking : FootnoteLinking) (events : List Event) :
    linking.numbers.labels <+: linking.labelsAfter events := by
  induction events generalizing linking with
  | nil => exact List.prefix_rfl
  | cons event rest ih => exact (linking.step_linked event).1.trans (ih _)

theorem FootnoteLinking.labelsAfter_nodup (linking : FootnoteLinking) (events : List Event)
    (unique : linking.numbers.labels.Nodup) : (linking.labelsAfter events).Nodup := by
  induction events generalizing linking with
  | nil => exact unique
  | cons event rest ih => exact ih _ (linking.step_nodup event unique)

/-- Each event is replaced by the table at the end of the text. -/
theorem linkFootnotesFrom_linked (linking : FootnoteLinking) (events : List Event) :
    List.Forall₂ (LinkedBy (linking.labelsAfter events)) events
      (linkFootnotesFrom linking events) := by
  induction events generalizing linking with
  | nil => exact .nil
  | cons event rest ih =>
      have growth := FootnoteLinking.labelsAfter_growth (linking.step event).1 rest
      exact .cons ((linking.step_linked event).2.extend growth) (ih _)

/-! ## One label after the other -/

namespace FootnoteNumbers

/-- The numbers of some labels, each given by the table that the labels before it left, and the
table that the last one leaves. -/
def numberAll (numbers : FootnoteNumbers) : List (List Char) → List Nat × FootnoteNumbers
  | [] => ([], numbers)
  | label :: rest =>
      let (number, after) := numbers.number label
      let (others, last) := after.numberAll rest
      (number :: others, last)

section

variable {numbers after : FootnoteNumbers} {label : List Char} {number : Nat}

theorem numberAll_cons (given : numbers.number label = (number, after))
    (rest : List (List Char)) :
    numbers.numberAll (label :: rest) =
      (number :: (after.numberAll rest).1, (after.numberAll rest).2) := by
  rw [numberAll, given]

/-- Only a label that the table does not hold is added to it. -/
theorem number_labels (given : numbers.number label = (number, after)) :
    after.labels =
      if label ∈ numbers.labels then numbers.labels else numbers.labels ++ [label] := by
  unfold FootnoteNumbers.number at given
  cases found : numbers.labels.idxOf? label with
  | some index =>
      rw [found] at given
      cases given
      obtain ⟨inside, rfl, -⟩ := List.idxOf?_eq_some_iff.mp found
      exact (if_pos (List.getElem_mem inside)).symm
  | none =>
      rw [found] at given
      cases given
      exact (if_neg (List.idxOf?_eq_none_iff.mp found)).symm

/-- A number is one more than the position of its label in the table after it. -/
theorem number_position (given : numbers.number label = (number, after))
    (unique : numbers.labels.Nodup) :
    label ∈ after.labels ∧ number = after.labels.idxOf label + 1 := by
  obtain ⟨-, index, rfl, stored⟩ := number_stored given
  obtain ⟨inside, rfl⟩ := List.getElem?_eq_some_iff.mp stored
  exact ⟨List.getElem_mem inside,
    congrArg (· + 1) ((number_nodup given unique).idxOf_getElem index inside).symm⟩

end

theorem numberAll_nodup {numbers : FootnoteNumbers} (unique : numbers.labels.Nodup)
    (labels : List (List Char)) : (numbers.numberAll labels).2.labels.Nodup := by
  induction labels generalizing numbers with
  | nil => exact unique
  | cons label rest ih => exact ih (number_nodup rfl unique)

/-- The labels that are new to the table come behind those it holds, each where it came first. -/
theorem numberAll_labels (numbers : FootnoteNumbers) (labels : List (List Char)) :
    (numbers.numberAll labels).2.labels =
      numbers.labels ++ (labels.filter (· ∉ numbers.labels)).eraseDups := by
  induction labels generalizing numbers with
  | nil => exact (List.append_nil _).symm
  | cons label rest ih =>
      obtain ⟨⟨number, after⟩, given⟩ : ∃ result, numbers.number label = result := ⟨_, rfl⟩
      rw [numberAll_cons given, ih, number_labels given]
      by_cases known : label ∈ numbers.labels
      · rw [if_pos known, List.filter_cons_of_neg (by simpa using known)]
      · have others : rest.filter (· ∉ numbers.labels ++ [label]) =
            (rest.filter (· ∉ numbers.labels)).filter fun other => !other == label := by
          rw [List.filter_filter]
          exact List.filter_congr fun other _ => by simp [and_comm, Bool.beq_eq_decide_eq]
        rw [if_neg known, others, List.filter_cons_of_pos (by simpa using known),
          List.eraseDups_cons, List.append_assoc, List.singleton_append]

/-- Each number is that of its label in the table at the end. -/
theorem numberAll_positions {numbers : FootnoteNumbers} (unique : numbers.labels.Nodup)
    (labels : List (List Char)) :
    (numbers.numberAll labels).1 =
      labels.map fun label => (numbers.numberAll labels).2.labels.idxOf label + 1 := by
  induction labels generalizing numbers with
  | nil => rfl
  | cons label rest ih =>
      obtain ⟨⟨number, after⟩, given⟩ : ∃ result, numbers.number label = result := ⟨_, rfl⟩
      obtain ⟨held, position⟩ := number_position given unique
      -- The table only grows behind the label, so its position stays.
      have kept : (after.numberAll rest).2.labels.idxOf label = after.labels.idxOf label := by
        rw [numberAll_labels, List.idxOf_append_of_mem held]
      rw [numberAll_cons given, List.map_cons, kept, ← position,
        ih (number_nodup given unique)]

/-- The numbers that a table with no labels gives to some labels, in the order asked. -/
def freshNumbers (labels : List (List Char)) : List Nat :=
  (empty.numberAll labels).1

section

variable (labels : List (List Char))

theorem numberAll_empty_labels : (empty.numberAll labels).2.labels = labels.eraseDups := by
  rw [numberAll_labels]
  simp [empty]

theorem freshNumbers_eq :
    freshNumbers labels = labels.map fun label => labels.eraseDups.idxOf label + 1 := by
  rw [← numberAll_empty_labels]
  exact numberAll_positions List.nodup_nil labels

/-- Two calls give the same number exactly if their labels are spelled alike, whatever comes
between them. The numbers are those from one on, in the order in which the labels come first. -/
theorem freshNumbers_by_first_use :
    (freshNumbers labels).length = labels.length ∧
      (∀ call other : Nat,
        (freshNumbers labels)[call]? = (freshNumbers labels)[other]? ↔
          labels[call]? = labels[other]?) ∧
      (freshNumbers labels).eraseDups = List.range' 1 labels.eraseDups.length := by
  have unique : labels.eraseDups.Nodup :=
    numberAll_empty_labels labels ▸ numberAll_nodup List.nodup_nil labels
  have apart : ∀ left ∈ labels, ∀ right ∈ labels,
      labels.eraseDups.idxOf left + 1 = labels.eraseDups.idxOf right + 1 → left = right :=
    fun left member right _ same =>
      (List.idxOf_inj (List.mem_eraseDups.mpr member)).mp (Nat.succ.inj same)
  rw [freshNumbers_eq]
  refine ⟨List.length_map _, Distinct.getElem?_map_inj _ apart, ?_⟩
  rw [Distinct.eraseDups_map _ _ apart, Distinct.map_idxOf_add unique]

end

end FootnoteNumbers

end Bindery.Markdown
