import Bindery.Proofs.Footnote.Recognition
import Bindery.Proofs.Textile.BlockForm
import Bindery.Proofs.Textile.Passthrough

/-!
# Footnote markup

A note and a reference carry their number as it is written in the text. So their
markup is recognised exactly if each number is written with the digits that the
number itself is written with.
-/

set_option autoImplicit false

namespace Bindery.Textile

open Footnote (Recognised Canonical)

/-- The start of a note, with its id and the link back to the text. -/
def noteOpening (number : List Char) : List Char :=
  "<p class=\"footnote\" id=\"fn".toList ++ number ++ "\"><a href=\"#fnr".toList ++ number ++
    "\"><sup>".toList ++ number ++ "</sup></a> ".toList

theorem renderNote_eq (number content : List Char) :
    renderNote number content = noteOpening number ++ (renderInline content ++ "</p>".toList) := by
  unfold renderNote noteOpening
  simp only [List.append_assoc]

/-- The forms of the blocks of a text. -/
def forms (text : String) : List BlockForm :=
  (blocks (lift (Text.unixEndings text.toList))).map formOf

/-- The numbers of the notes that a text defines. -/
def noteNumbers (text : String) : List (List Char) :=
  (forms text).filterMap BlockForm.noteNumber?

/-- The numbers that a phrase refers to, each behind a visible character. -/
def phraseReferences (phrase : List Char) : List (List Char) :=
  (Text.uses footnoteRule (escapeText phrase)).filterMap fun here => bracketed? here.tail

/-- The numbers that a text refers to. -/
def referenceNumbers (text : String) : List (List Char) :=
  ((forms text).flatMap BlockForm.phrases).flatMap phraseReferences

/-- The markup with ids and links that a text is given for its notes and references. -/
inductive WritesFootnote (text : String) : List Char → Prop where
  | note {number} : number ∈ noteNumbers text → WritesFootnote text (noteOpening number)
  | reference {number} : number ∈ referenceNumbers text →
      WritesFootnote text (footnoteReference number)

section

variable {number : List Char}

theorem decimal_of_bracketed? {text : List Char} (read : bracketed? text = some number) :
    ∀ digit ∈ number, Text.isDecimalDigit digit = true := by
  unfold bracketed? at read
  split at read
  · dsimp only at read
    split at read
    · split at read
      · cases read
      · obtain rfl := Option.some.inj read
        exact List.all_eq_true.mp List.all_takeWhile
    · cases read
  · cases read

theorem decimal_of_noteNumbers {text : String} (member : number ∈ noteNumbers text) :
    ∀ digit ∈ number, Text.isDecimalDigit digit = true := by
  obtain ⟨form, listed, numbered⟩ := List.mem_filterMap.mp member
  obtain ⟨block, -, rfl⟩ := List.mem_map.mp listed
  cases form : formOf block with
  | note first content =>
      rw [form] at numbered
      obtain rfl := Option.some.inj numbered
      exact decimal_of_note? (note?_of_formOf form)
  | _ =>
      rw [form] at numbered
      cases numbered

theorem decimal_of_referenceNumbers {text : String} (member : number ∈ referenceNumbers text) :
    ∀ digit ∈ number, Text.isDecimalDigit digit = true := by
  obtain ⟨phrase, -, referred⟩ := List.mem_flatMap.mp member
  obtain ⟨here, -, read⟩ := List.mem_filterMap.mp referred
  exact decimal_of_bracketed? read

section

variable (decimal : ∀ digit ∈ number, Text.isDecimalDigit digit = true)

include decimal

/-- A note is recognised exactly if its digits are those of a number in range. -/
theorem recognised_noteOpening_iff : Recognised (noteOpening number) ↔ Canonical number := by
  have blank : ' ' ∉ number := Footnote.not_mem_of_decimal (by decide) decimal
  have id : '"' ∉ "fn".toList ++ number :=
    Footnote.not_mem_append_of_decimal (by decide) (by decide) decimal
  have link : '"' ∉ "#fnr".toList ++ number :=
    Footnote.not_mem_append_of_decimal (by decide) (by decide) decimal
  have ids : Footnote.idsIn (noteOpening number) = ["fn".toList ++ number] := by
    unfold noteOpening Footnote.idsIn
    simp only [List.append_assoc]
    rw [Footnote.valuesBehind_opening "<p class=\"footnote\"".toList "fn".toList (by decide)
        (by decide) (by decide) blank id rfl,
      Footnote.valuesBehind_append_of_clear _ (by decide),
      Footnote.valuesBehind_append_of_not_mem _ blank,
      Footnote.valuesBehind_append_of_clear _ (by decide),
      Footnote.valuesBehind_append_of_not_mem _ blank]
    exact congrArg (_ :: ·) (by decide)
  have links : Footnote.linksIn (noteOpening number) = ["#fnr".toList ++ number] := by
    unfold noteOpening Footnote.linksIn
    simp only [List.append_assoc]
    rw [Footnote.valuesBehind_append_of_clear _ (by decide),
      Footnote.valuesBehind_append_of_not_mem _ blank,
      Footnote.valuesBehind_opening "\"><a".toList "#fnr".toList (by decide)
        (by decide) (by decide) blank link rfl,
      Footnote.valuesBehind_append_of_clear _ (by decide),
      Footnote.valuesBehind_append_of_not_mem _ blank]
    exact congrArg (_ :: ·) (by decide)
  refine Footnote.recognised_iff_of_values (.inl ?_) ?_ ?_
  · rw [ids]
    exact List.cons_ne_nil _ _
  · rw [ids, List.forall_mem_singleton]
    exact Footnote.ofId?_note_isSome decimal
  · rw [links, List.forall_mem_singleton]
    exact Footnote.ofLink?_reference_isSome

theorem opener_not_mem_noteOpening : opener ∉ noteOpening number := by
  have absent : opener ∉ number := Footnote.not_mem_of_decimal (by decide) decimal
  unfold noteOpening
  refine List.not_mem_append (List.not_mem_append (List.not_mem_append (List.not_mem_append
    (List.not_mem_append (List.not_mem_append ?_ absent) ?_) absent) ?_) absent) ?_
  all_goals decide

end

/-- The markup of notes and references is recognised exactly if each number is written with the
digits of a number in range. -/
theorem writesFootnote_recognised_iff (text : String) :
    (∀ markup, WritesFootnote text markup → Recognised markup) ↔
      ∀ number ∈ noteNumbers text ++ referenceNumbers text, Canonical number := by
  constructor
  · intro recognised number member
    rcases List.mem_append.mp member with note | reference
    · exact (recognised_noteOpening_iff (decimal_of_noteNumbers note)).mp (recognised _ (.note note))
    · exact (Footnote.recognised_footnoteReference_iff (decimal_of_referenceNumbers reference)).mp
        (recognised _ (.reference reference))
  · intro canonical markup writes
    cases writes with
    | note note =>
        exact (recognised_noteOpening_iff (decimal_of_noteNumbers note)).mpr
          (canonical _ (List.mem_append_left _ note))
    | reference reference =>
        exact (Footnote.recognised_footnoteReference_iff
          (decimal_of_referenceNumbers reference)).mpr
            (canonical _ (List.mem_append_right _ reference))

/-- The start of each note stands in the result. -/
theorem noteOpening_infix_render {text : String} (member : number ∈ noteNumbers text) :
    noteOpening number <:+: (render text).toList := by
  obtain ⟨form, listed, numbered⟩ := List.mem_filterMap.mp member
  obtain ⟨block, among, rfl⟩ := List.mem_map.mp listed
  refine infix_render (opener_not_mem_noteOpening (decimal_of_noteNumbers member)) rfl among ?_
  rw [renderBlock_eq]
  cases form : formOf block with
  | note first content =>
      rw [form] at numbered
      obtain rfl := Option.some.inj numbered
      rw [BlockForm.render, renderNote_eq]
      exact (List.prefix_append _ _).isInfix
  | _ =>
      rw [form] at numbered
      cases numbered

/-- Each reference stands in its phrase when the footnote rule has been applied. -/
theorem footnoteReference_infix_substitute {phrase : List Char}
    (member : number ∈ phraseReferences phrase) :
    footnoteReference number <:+: Text.substitute footnoteRule (escapeText phrase) := by
  obtain ⟨here, used, read⟩ := List.mem_filterMap.mp member
  obtain ⟨length, written, applied, inside⟩ := Text.written_infix_substitute used
  refine List.IsInfix.trans ?_ inside
  cases here with
  | nil => cases applied
  | cons c rest =>
      rw [footnoteRule] at applied
      split at applied
      · cases applied
      · rw [List.tail_cons] at read
        rw [read] at applied
        obtain ⟨-, rfl⟩ := Prod.mk.inj (Option.some.inj applied)
        exact (List.suffix_cons _ _).isInfix

theorem not_mem_footnoteReference {c : Char} (other : Text.isDecimalDigit c = false)
    (absent : c ∉ footnoteReference [])
    (decimal : ∀ digit ∈ number, Text.isDecimalDigit digit = true) :
    c ∉ footnoteReference number := by
  have digits : c ∉ number := Footnote.not_mem_of_decimal other decimal
  unfold footnoteReference at absent ⊢
  simp only [List.append_nil, List.mem_append, not_or] at absent ⊢
  obtain ⟨⟨⟨first, second⟩, third⟩, last⟩ := absent
  exact ⟨⟨⟨⟨⟨⟨first, digits⟩, second⟩, digits⟩, third⟩, digits⟩, last⟩

/-- A reference stands in the result if its phrase is left without the sign of a link. -/
theorem footnoteReference_infix_render {text : String} {phrase : List Char}
    (among : phrase ∈ (forms text).flatMap BlockForm.phrases)
    (unlinked : ¬ linkSign <:+: Text.substitute footnoteRule (escapeText phrase))
    (member : number ∈ phraseReferences phrase) :
    footnoteReference number <:+: (render text).toList := by
  obtain ⟨form, listed, own⟩ := List.mem_flatMap.mp among
  obtain ⟨block, blocked, rfl⟩ := List.mem_map.mp listed
  obtain ⟨here, -, read⟩ := List.mem_filterMap.mp member
  have decimal := decimal_of_bracketed? read
  have unmarked : '@' ∉ footnoteReference number ∧ '*' ∉ footnoteReference number ∧
      '_' ∉ footnoteReference number :=
    ⟨not_mem_footnoteReference (by decide) (by decide) decimal,
      not_mem_footnoteReference (by decide) (by decide) decimal,
      not_mem_footnoteReference (by decide) (by decide) decimal⟩
  have phrased := infix_renderInline (List.cons_ne_nil _ _) unmarked unlinked
    (footnoteReference_infix_substitute member)
  refine infix_render (not_mem_footnoteReference (by decide) (by decide) decimal) rfl
    blocked ?_
  rw [renderBlock_eq]
  exact phrased.trans (BlockForm.infix_render block own)

end

end Bindery.Textile
