import Bindery.Proofs.Footnote.Marker
import Bindery.Proofs.Text.Lines
import Bindery.Textile.Render

/-!
# Recognised markup

A piece of markup takes part in the numbering of a book if each of its ids and
links is read as a marker. Where a number is written as digits of any script,
that is so exactly if the digits are those that the number itself is written with.
-/

set_option autoImplicit false

namespace Bindery.Footnote

/-- The values up to the next quotation mark, behind each place where the key stands. -/
def valuesBehind (key : List Char) : List Char → List (List Char)
  | [] => []
  | c :: rest =>
      match Text.dropStart? key (c :: rest) with
      | some value => value.takeWhile (· != '"') :: valuesBehind key rest
      | none => valuesBehind key rest

/-- The ids that stand in a piece of markup. -/
def idsIn (markup : List Char) : List (List Char) := valuesBehind (' ' :: "id=\"".toList) markup

/-- The targets of the links in a piece of markup. -/
def linksIn (markup : List Char) : List (List Char) :=
  valuesBehind (' ' :: "href=\"".toList) markup

/-- Every id and every link in a piece of markup is read as a marker. -/
structure Recognised (markup : List Char) : Prop where
  ids : ∀ value ∈ idsIn markup, (Marker.ofId? (String.ofList value)).isSome = true
  links : ∀ value ∈ linksIn markup, (Marker.ofLink? (String.ofList value)).isSome = true

/-- The digits are what a number in range is written as. -/
def Canonical (digits : List Char) : Prop :=
  ∃ number, 0 < number ∧ number < Marker.limit ∧ digits = (toString number).toList

theorem canonical_toString_iff {number : Nat} :
    Canonical (toString number).toList ↔ 0 < number ∧ number < Marker.limit := by
  constructor
  · rintro ⟨other, positive, small, same⟩
    simp only [Nat.toString_eq_repr, Nat.toList_repr] at same
    obtain rfl := Marker.toDigits_injective same
    exact ⟨positive, small⟩
  · rintro ⟨positive, small⟩
    exact ⟨number, positive, small, rfl⟩

theorem canonical_iff {digits : List Char} :
    Canonical digits ↔ (Marker.number? digits).isSome = true := by
  simp only [Canonical, Option.isSome_iff_exists, Nat.toString_eq_repr, Nat.toList_repr]
  constructor
  · rintro ⟨number, positive, small, rfl⟩
    exact ⟨number, Marker.number?_toDigits positive small⟩
  · rintro ⟨number, read⟩
    exact ⟨number, Marker.toDigits_of_number? read⟩

section

variable {digits : List Char}

theorem ofId?_note_isSome (decimal : ∀ digit ∈ digits, Text.isDecimalDigit digit = true) :
    (Marker.ofId? (String.ofList ('f' :: 'n' :: digits))).isSome = true ↔ Canonical digits := by
  have leading : digits.head? ≠ some 'r' := by
    intro first
    exact absurd (decimal 'r' (List.mem_of_mem_head? first)) (by decide)
  rw [Marker.ofId?, String.toList_ofList, Marker.ofIdChars?_note digits leading,
    Option.isSome_map, canonical_iff]

theorem ofId?_reference_isSome :
    (Marker.ofId? (String.ofList ('f' :: 'n' :: 'r' :: digits))).isSome = true ↔
      Canonical digits := by
  rw [Marker.ofId?, String.toList_ofList, Marker.ofIdChars?, Option.isSome_map, canonical_iff]

theorem ofLink?_ofList_cons (id : List Char) :
    Marker.ofLink? (String.ofList ('#' :: id)) = Marker.ofIdChars? id := by
  rw [Marker.ofLink?, String.toList_ofList]
  rfl

theorem ofLink?_note_isSome (decimal : ∀ digit ∈ digits, Text.isDecimalDigit digit = true) :
    (Marker.ofLink? (String.ofList ('#' :: 'f' :: 'n' :: digits))).isSome = true ↔
      Canonical digits := by
  rw [← ofId?_note_isSome decimal, ofLink?_ofList_cons, Marker.ofId?, String.toList_ofList]

theorem ofLink?_reference_isSome :
    (Marker.ofLink? (String.ofList ('#' :: 'f' :: 'n' :: 'r' :: digits))).isSome = true ↔
      Canonical digits := by
  rw [← ofId?_reference_isSome, ofLink?_ofList_cons, Marker.ofId?, String.toList_ofList]

/-- Markup whose ids and links all stand for one run of digits, of which it has at least one. -/
theorem recognised_iff_of_values {markup : List Char}
    (some : idsIn markup ≠ [] ∨ linksIn markup ≠ [])
    (ids : ∀ value ∈ idsIn markup,
      (Marker.ofId? (String.ofList value)).isSome = true ↔ Canonical digits)
    (links : ∀ value ∈ linksIn markup,
      (Marker.ofLink? (String.ofList value)).isSome = true ↔ Canonical digits) :
    Recognised markup ↔ Canonical digits := by
  constructor
  · rintro ⟨idsRead, linksRead⟩
    rcases some with present | present
    · obtain ⟨value, member⟩ := List.exists_mem_of_ne_nil _ present
      exact (ids value member).mp (idsRead value member)
    · obtain ⟨value, member⟩ := List.exists_mem_of_ne_nil _ present
      exact (links value member).mp (linksRead value member)
  · intro canonical
    exact ⟨fun value member => (ids value member).mpr canonical,
      fun value member => (links value member).mpr canonical⟩

end

/-- The key stands nowhere in the text, nor does the text end with a part of it. -/
def isClear (key : List Char) : List Char → Bool
  | [] => true
  | c :: rest =>
      !((c :: rest).isPrefixOf key || key.isPrefixOf (c :: rest)) && isClear key rest

theorem dropStart?_append_eq_none {key here : List Char} (rest : List Char)
    (shorter : here.isPrefixOf key = false) (longer : key.isPrefixOf here = false) :
    Text.dropStart? key (here ++ rest) = none := by
  rw [Text.dropStart?_eq_none_iff]
  intro starts
  rcases List.prefix_or_prefix_of_prefix starts (List.prefix_append here rest) with inside | covers
  · rw [List.isPrefixOf_iff_prefix.mpr inside] at longer
    cases longer
  · rw [List.isPrefixOf_iff_prefix.mpr covers] at shorter
    cases shorter

theorem valuesBehind_append_of_clear {key text : List Char} (rest : List Char)
    (clear : isClear key text = true) :
    valuesBehind key (text ++ rest) = valuesBehind key rest := by
  induction text with
  | nil => rfl
  | cons c text ih =>
      rw [isClear, Bool.and_eq_true, Bool.not_eq_true', Bool.or_eq_false_iff] at clear
      obtain ⟨⟨shorter, longer⟩, clear⟩ := clear
      have absent := dropStart?_append_eq_none rest shorter longer
      rw [List.cons_append] at absent ⊢
      rw [valuesBehind, absent]
      exact ih clear

theorem valuesBehind_append_of_not_mem {first : Char} {key text : List Char} (rest : List Char)
    (absent : first ∉ text) :
    valuesBehind (first :: key) (text ++ rest) = valuesBehind (first :: key) rest := by
  induction text with
  | nil => rfl
  | cons c text ih =>
      rw [List.mem_cons, not_or] at absent
      rw [List.cons_append, valuesBehind, Text.dropStart?, if_neg absent.1, ih absent.2]

/-- What is found in a text whose first part ends with the key and the beginning of a value: the
value goes on with `digits` and ends with the quotation mark behind them. -/
theorem valuesBehind_opening {first : Char} {key opening digits after : List Char}
    (before word : List Char) (shape : opening = before ++ (first :: key ++ word))
    (clear : isClear (first :: key) before = true)
    (inside : isClear (first :: key) (key ++ word) = true) (absent : first ∉ digits)
    (unquoted : '"' ∉ word ++ digits) (closing : after.head? = some '"') :
    valuesBehind (first :: key) (opening ++ (digits ++ after)) =
      (word ++ digits) :: valuesBehind (first :: key) after := by
  have plain : ∀ c ∈ word ++ digits, (c != '"') = true := by
    intro c member
    exact bne_iff_ne.mpr fun same => unquoted (same ▸ member)
  -- The key is found behind what is before it and nowhere in the value.
  have found : Text.dropStart? (first :: key) (first :: key ++ (word ++ (digits ++ after))) =
      some (word ++ (digits ++ after)) := Text.dropStart?_eq_some_iff.mpr rfl
  have value : (word ++ (digits ++ after)).takeWhile (· != '"') = word ++ digits := by
    obtain ⟨rest, rfl⟩ := List.head?_eq_some_iff.mp closing
    rw [← List.append_assoc, List.takeWhile_append_of_pos plain]
    simp
  rw [List.cons_append] at found
  rw [shape, List.append_assoc, valuesBehind_append_of_clear _ clear, List.append_assoc,
    List.cons_append, valuesBehind, found]
  dsimp only
  rw [value, ← List.append_assoc, valuesBehind_append_of_clear _ inside,
    valuesBehind_append_of_not_mem _ absent]

theorem not_mem_of_decimal {c : Char} {digits : List Char}
    (other : Text.isDecimalDigit c = false)
    (decimal : ∀ digit ∈ digits, Text.isDecimalDigit digit = true) : c ∉ digits := by
  intro member
  rw [decimal c member] at other
  cases other

theorem not_mem_append_of_decimal {c : Char} {word digits : List Char} (absent : c ∉ word)
    (other : Text.isDecimalDigit c = false)
    (decimal : ∀ digit ∈ digits, Text.isDecimalDigit digit = true) : c ∉ word ++ digits := by
  rw [List.mem_append, not_or]
  exact ⟨absent, not_mem_of_decimal other decimal⟩

section Templates

variable {digits : List Char} (decimal : ∀ digit ∈ digits, Text.isDecimalDigit digit = true)

include decimal

theorem idsIn_footnoteReference :
    idsIn (Textile.footnoteReference digits) = ["fnr".toList ++ digits] := by
  have blank : ' ' ∉ digits := not_mem_of_decimal (by decide) decimal
  have value : '"' ∉ "fnr".toList ++ digits :=
    not_mem_append_of_decimal (by decide) (by decide) decimal
  unfold Textile.footnoteReference idsIn
  simp only [List.append_assoc]
  rw [valuesBehind_opening "<sup class=\"footnote\"".toList "fnr".toList (by decide)
      (by decide) (by decide) blank value rfl,
    valuesBehind_append_of_clear _ (by decide), valuesBehind_append_of_not_mem _ blank,
    valuesBehind_append_of_clear _ (by decide), valuesBehind_append_of_not_mem _ blank]
  exact congrArg (_ :: ·) (by decide)

theorem linksIn_footnoteReference :
    linksIn (Textile.footnoteReference digits) = ["#fn".toList ++ digits] := by
  have blank : ' ' ∉ digits := not_mem_of_decimal (by decide) decimal
  have value : '"' ∉ "#fn".toList ++ digits :=
    not_mem_append_of_decimal (by decide) (by decide) decimal
  unfold Textile.footnoteReference linksIn
  simp only [List.append_assoc]
  rw [valuesBehind_append_of_clear _ (by decide), valuesBehind_append_of_not_mem _ blank,
    valuesBehind_opening "\"><a".toList "#fn".toList (by decide)
      (by decide) (by decide) blank value rfl,
    valuesBehind_append_of_clear _ (by decide), valuesBehind_append_of_not_mem _ blank]
  exact congrArg (_ :: ·) (by decide)

/-- A reference is recognised exactly if its digits are those of a number in range. -/
theorem recognised_footnoteReference_iff :
    Recognised (Textile.footnoteReference digits) ↔ Canonical digits := by
  refine recognised_iff_of_values (.inl ?_) ?_ ?_
  · rw [idsIn_footnoteReference decimal]
    exact List.cons_ne_nil _ _
  · rw [idsIn_footnoteReference decimal, List.forall_mem_singleton]
    exact ofId?_reference_isSome
  · rw [linksIn_footnoteReference decimal, List.forall_mem_singleton]
    exact ofLink?_note_isSome decimal

end Templates

end Bindery.Footnote
