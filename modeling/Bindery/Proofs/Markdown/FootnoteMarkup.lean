import Bindery.Proofs.Footnote.Recognition
import Bindery.Proofs.Markdown.FootnoteResolution

/-!
# Footnote markup

The numbers in the markup that footnotes are replaced by are those of the table
of labels, and each of them is used. So all of that markup is recognised unless
there are more labels than numbers.
-/

set_option autoImplicit false

namespace Bindery.Markdown

open Footnote (Recognised Canonical Marker)

def Event.isFootnote : Event → Bool
  | .footnoteReference _ => true
  | .start (.footnote _) => true
  | .finish (.footnote _) => true
  | _ => false

/-- The markup takes the place of a footnote event of the text. -/
def WritesFootnote (text : String) (markup : List Char) : Prop :=
  let events := (Document.ofText text.toList).events
  ∃ source, source.isFootnote = true ∧ (source, .html markup) ∈ events.zip (linkFootnotes events)

theorem decimal_toString (number : Nat) :
    ∀ digit ∈ (toString number).toList, Text.isDecimalDigit digit = true := by
  intro digit member
  rw [Nat.toString_eq_repr, Nat.toList_repr] at member
  have ascii : digit.isDigit = true := Nat.isDigit_of_mem_toDigits (by decide) (by decide) member
  have bounds : 48 ≤ digit.toNat ∧ digit.toNat ≤ 57 := by
    simpa [Char.isDigit, UInt32.le_iff_toNat_le] using ascii
  rw [Text.isDecimalDigit, List.any_eq_true]
  exact ⟨0x30, List.mem_cons_self, by simpa using bounds⟩

section Templates

variable (number : Nat)

theorem recognised_referenceHtml_iff :
    Recognised (referenceHtml number) ↔ 0 < number ∧ number < Marker.limit := by
  rw [← Footnote.canonical_toString_iff]
  exact Footnote.recognised_footnoteReference_iff (decimal_toString number)

theorem recognised_definitionStartHtml_iff :
    Recognised (definitionStartHtml number) ↔ 0 < number ∧ number < Marker.limit := by
  have decimal := decimal_toString number
  have blank : ' ' ∉ (toString number).toList :=
    Footnote.not_mem_of_decimal (by decide) decimal
  have quote : '"' ∉ "fn".toList ++ (toString number).toList :=
    Footnote.not_mem_append_of_decimal (by decide) (by decide) decimal
  have ids : Footnote.idsIn (definitionStartHtml number) =
      ["fn".toList ++ (toString number).toList] := by
    unfold definitionStartHtml Footnote.idsIn
    rw [List.append_assoc, Footnote.valuesBehind_opening "<div class=\"footnote\"".toList
      "fn".toList (by decide) (by decide) (by decide) blank quote rfl]
    exact congrArg (_ :: ·) (by decide)
  have links : Footnote.linksIn (definitionStartHtml number) = [] := by
    unfold definitionStartHtml Footnote.linksIn
    rw [List.append_assoc, Footnote.valuesBehind_append_of_clear _ (by decide),
      Footnote.valuesBehind_append_of_not_mem _ blank]
    decide
  rw [← Footnote.canonical_toString_iff]
  refine Footnote.recognised_iff_of_values (.inl ?_) ?_ ?_
  · rw [ids]
    exact List.cons_ne_nil _ _
  · rw [ids, List.forall_mem_singleton]
    exact Footnote.ofId?_note_isSome decimal
  · rw [links]
    exact fun value member => absurd member List.not_mem_nil

theorem recognised_definitionEndHtml_iff :
    Recognised (definitionEndHtml (some number)) ↔ 0 < number ∧ number < Marker.limit := by
  have decimal := decimal_toString number
  have blank : ' ' ∉ (toString number).toList :=
    Footnote.not_mem_of_decimal (by decide) decimal
  have quote : '"' ∉ "#fnr".toList ++ (toString number).toList :=
    Footnote.not_mem_append_of_decimal (by decide) (by decide) decimal
  have ids : Footnote.idsIn (definitionEndHtml (some number)) = [] := by
    unfold definitionEndHtml Footnote.idsIn
    dsimp only
    rw [List.append_assoc, Footnote.valuesBehind_append_of_clear _ (by decide),
      Footnote.valuesBehind_append_of_not_mem _ blank]
    decide
  have links : Footnote.linksIn (definitionEndHtml (some number)) =
      ["#fnr".toList ++ (toString number).toList] := by
    unfold definitionEndHtml Footnote.linksIn
    dsimp only
    rw [List.append_assoc, Footnote.valuesBehind_opening "<a".toList "#fnr".toList
      (by decide) (by decide) (by decide) blank quote rfl]
    exact congrArg (_ :: ·) (by decide)
  rw [← Footnote.canonical_toString_iff]
  refine Footnote.recognised_iff_of_values (.inr ?_) ?_ ?_
  · rw [links]
    exact List.cons_ne_nil _ _
  · rw [ids]
    exact fun value member => absurd member List.not_mem_nil
  · rw [links, List.forall_mem_singleton]
    exact Footnote.ofLink?_reference_isSome

theorem recognised_definitionEndHtml_none : Recognised (definitionEndHtml none) :=
  ⟨by decide, by decide⟩

end Templates

/-- The markup has a number up to `count`, or none at all. -/
inductive NumberedTo (count : Nat) : List Char → Prop where
  | reference {number} : 0 < number → number ≤ count → NumberedTo count (referenceHtml number)
  | definitionStart {number} : 0 < number → number ≤ count →
      NumberedTo count (definitionStartHtml number)
  | definitionEnd {number} : 0 < number → number ≤ count →
      NumberedTo count (definitionEndHtml (some number))
  | bare : NumberedTo count (definitionEndHtml none)

theorem NumberedTo.mono {count more : Nat} {markup : List Char} (numbered : NumberedTo count markup)
    (growth : count ≤ more) : NumberedTo more markup := by
  cases numbered with
  | reference positive bound => exact .reference positive (Nat.le_trans bound growth)
  | definitionStart positive bound => exact .definitionStart positive (Nat.le_trans bound growth)
  | definitionEnd positive bound => exact .definitionEnd positive (Nat.le_trans bound growth)
  | bare => exact .bare

theorem NumberedTo.recognised {count : Nat} {markup : List Char}
    (numbered : NumberedTo count markup) (small : count < Marker.limit) : Recognised markup := by
  cases numbered with
  | reference positive bound =>
      exact (recognised_referenceHtml_iff _).mpr ⟨positive, Nat.lt_of_le_of_lt bound small⟩
  | definitionStart positive bound =>
      exact (recognised_definitionStartHtml_iff _).mpr ⟨positive, Nat.lt_of_le_of_lt bound small⟩
  | definitionEnd positive bound =>
      exact (recognised_definitionEndHtml_iff _).mpr ⟨positive, Nat.lt_of_le_of_lt bound small⟩
  | bare => exact recognised_definitionEndHtml_none

/-- The number of the open definition is one of the table. -/
def FootnoteLinking.Bounded (linking : FootnoteLinking) : Prop :=
  ∀ number ∈ linking.openDefinition, 0 < number ∧ number ≤ linking.numbers.labels.length

theorem FootnoteNumbers.number_bounds (numbers : FootnoteNumbers) (label : List Char) :
    0 < (numbers.number label).1 ∧
      (numbers.number label).1 ≤ (numbers.number label).2.labels.length := by
  cases given : numbers.number label with
  | mk number after =>
      obtain ⟨-, index, rfl, stored⟩ := number_stored given
      exact ⟨Nat.succ_pos index, (List.getElem?_eq_some_iff.mp stored).1⟩

theorem FootnoteLinking.step_numbered {linking : FootnoteLinking} (bounded : linking.Bounded)
    (event : Event) :
    (linking.step event).1.Bounded ∧ (event.isFootnote = true →
      ∃ markup, (linking.step event).2 = .html markup ∧
        NumberedTo (linking.step event).1.numbers.labels.length markup) := by
  have growth := (linking.step_linked event).1.length_le
  unfold FootnoteLinking.step at growth ⊢
  split
  · next label =>
      obtain ⟨positive, bound⟩ := linking.numbers.number_bounds label
      exact ⟨fun number member =>
          ⟨(bounded number member).1, Nat.le_trans (bounded number member).2 growth⟩,
        fun _ => ⟨_, rfl, .reference positive bound⟩⟩
  · next label =>
      obtain ⟨positive, bound⟩ := linking.numbers.number_bounds label
      refine ⟨?_, fun _ => ⟨_, rfl, .definitionStart positive bound⟩⟩
      intro number member
      obtain rfl := Option.some.inj member
      exact ⟨positive, bound⟩
  · next label =>
      refine ⟨nofun, fun _ => ⟨_, rfl, ?_⟩⟩
      cases opened : linking.openDefinition with
      | none => exact .bare
      | some number =>
          obtain ⟨positive, bound⟩ := bounded number opened
          exact .definitionEnd positive bound
  · next other notReference notStart notFinish =>
      refine ⟨bounded, fun footnote => ?_⟩
      unfold Event.isFootnote at footnote
      split at footnote
      · next label => exact absurd rfl (notReference label)
      · next label => exact absurd rfl (notStart label)
      · next label => exact absurd rfl (notFinish label)
      · cases footnote

/-- The markup takes the place of one of the footnote events. -/
def FootnoteLinking.Writes (linking : FootnoteLinking) (events : List Event)
    (markup : List Char) : Prop :=
  ∃ source, source.isFootnote = true ∧
    (source, .html markup) ∈ events.zip (linkFootnotesFrom linking events)

theorem FootnoteLinking.Writes.numbered {linking : FootnoteLinking} {events : List Event}
    {markup : List Char} (bounded : linking.Bounded) (writes : linking.Writes events markup) :
    NumberedTo (linking.labelsAfter events).length markup := by
  obtain ⟨source, footnote, member⟩ := writes
  induction events generalizing linking with
  | nil => cases member
  | cons event rest ih =>
      obtain ⟨nextBounded, written⟩ := FootnoteLinking.step_numbered bounded event
      rcases List.mem_cons.mp member with here | member
      · obtain ⟨rfl, same⟩ := Prod.mk.inj here
        obtain ⟨other, otherSame, numbered⟩ := written footnote
        obtain rfl := Event.html.inj (same.trans otherSame)
        exact numbered.mono (FootnoteLinking.labelsAfter_growth _ rest).length_le
      · exact ih nextBounded member

theorem FootnoteNumbers.number_of_grown {numbers : FootnoteNumbers} {label : List Char}
    (grown : numbers.labels.length < (numbers.number label).2.labels.length) :
    (numbers.number label).1 = (numbers.number label).2.labels.length := by
  unfold FootnoteNumbers.number at grown ⊢
  cases found : numbers.labels.idxOf? label with
  | some index =>
      rw [found] at grown
      exact absurd grown (Nat.lt_irrefl _)
  | none => simp

/-- The event was replaced by markup with this number at the place where the label got it. -/
def FootnoteLinking.Takes (number : Nat) (source replaced : Event) : Prop :=
  source.isFootnote = true ∧
    (replaced = .html (referenceHtml number) ∨ replaced = .html (definitionStartHtml number))

theorem FootnoteLinking.step_takes {linking : FootnoteLinking} {event : Event}
    (grown : linking.numbers.labels.length < (linking.step event).1.numbers.labels.length) :
    Takes (linking.step event).1.numbers.labels.length event (linking.step event).2 := by
  unfold FootnoteLinking.step at grown ⊢
  split at grown
  · exact ⟨rfl, .inl (congrArg (Event.html <| referenceHtml ·)
      (FootnoteNumbers.number_of_grown grown))⟩
  · exact ⟨rfl, .inr (congrArg (Event.html <| definitionStartHtml ·)
      (FootnoteNumbers.number_of_grown grown))⟩
  · exact absurd grown (Nat.lt_irrefl _)
  · exact absurd grown (Nat.lt_irrefl _)

/-- The last label of the table took its number at a reference or at the start of a definition. -/
theorem FootnoteLinking.exists_takes {linking : FootnoteLinking} {events : List Event}
    (grown : linking.numbers.labels.length < (linking.labelsAfter events).length) :
    ∃ source replaced, Takes (linking.labelsAfter events).length source replaced ∧
      (source, replaced) ∈ events.zip (linkFootnotesFrom linking events) := by
  induction events generalizing linking with
  | nil => exact absurd grown (Nat.lt_irrefl _)
  | cons event rest ih =>
      have growth := FootnoteLinking.labelsAfter_growth (linking.step event).1 rest
      rcases Nat.lt_or_eq_of_le growth.length_le with later | last
      · obtain ⟨source, replaced, takes, member⟩ := ih later
        exact ⟨source, replaced, takes, List.mem_cons_of_mem _ member⟩
      · have here := FootnoteLinking.step_takes (Nat.lt_of_lt_of_eq grown last.symm)
        rw [last] at here
        exact ⟨event, _, here, List.mem_cons_self⟩

/-- All markup that takes the place of footnotes is recognised unless there are more labels than
numbers. -/
theorem writesFootnote_recognised_iff (text : String) :
    (∀ markup, WritesFootnote text markup → Recognised markup) ↔
      (labelTable text).length < Marker.limit := by
  constructor
  · intro recognised
    rcases Nat.eq_zero_or_pos (labelTable text).length with none | some
    · rw [none]
      exact Nat.two_pow_pos 64
    · have grown : FootnoteLinking.initial.numbers.labels.length < (labelTable text).length := some
      obtain ⟨source, replaced, ⟨footnote, same⟩, member⟩ := FootnoteLinking.exists_takes grown
      rcases same with rfl | rfl
      · exact ((recognised_referenceHtml_iff _).mp (recognised _ ⟨source, footnote, member⟩)).2
      · exact ((recognised_definitionStartHtml_iff _).mp
          (recognised _ ⟨source, footnote, member⟩)).2
  · intro small markup writes
    have bounded : FootnoteLinking.initial.Bounded := nofun
    exact (FootnoteLinking.Writes.numbered bounded writes).recognised small

end Bindery.Markdown
