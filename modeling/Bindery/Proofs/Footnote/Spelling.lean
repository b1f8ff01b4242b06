import Bindery.Proofs.Footnote.Recognition
import Bindery.Proofs.Snippet.Range
import Bindery.Proofs.Textile.StandIn

/-!
# The spelling of markers

A marker is read in two steps. Its form admits decimal digits of every script, and these are then
read as a number of 64 bits, which has to be written in ASCII. Both steps together accept what
a marker is written as and nothing else. Ids and links differ only in what leads in the marker.
-/

set_option autoImplicit false

namespace Bindery.Footnote.Marker

/-- The text is the lead, the word of a kind and decimal digits of any script, of which the first
is one from one to nine. -/
structure HasForm (lead : List Char) (kind : Kind) (digits text : List Char) : Prop where
  text_eq : text = lead ++ (kind.word.toList ++ digits)
  first : ∃ first ∈ digits.head?, '1' ≤ first ∧ first ≤ '9'
  decimal : ∀ digit ∈ digits, Text.isDecimalDigit digit = true

/-- What stands behind the word is no number of a marker: there is nothing, a zero comes first,
something is no ASCII digit, or the number is too large. -/
def Unreadable (digits : List Char) : Prop :=
  digits = [] ∨ digits.head? = some '0' ∨ (∃ digit ∈ digits, digit.isDigit = false) ∨
    limit ≤ decimalValue digits

section

variable {digits text : List Char} {number : Nat} {marker : Marker}

/-! ## Numbers -/

theorem number?_eq_none_iff : number? digits = none ↔ Unreadable digits := by
  have faulty : (digits.isEmpty || digits.head? = some '0' || !digits.all Char.isDigit) = true ↔
      (digits = [] ∨ digits.head? = some '0') ∨ ∃ digit ∈ digits, digit.isDigit = false := by
    simp
  rw [Unreadable, ← or_assoc, ← or_assoc, ← faulty]
  unfold number?
  split
  · next shape => exact iff_of_true rfl (.inl shape)
  · next shape => simp [shape]

/-- Digits without a zero in front are read like any number. -/
theorem number?_of_leading (leading : digits.head? ≠ some '0') :
    number? digits = Snippet.decimal? digits := by
  rw [number?, Snippet.decimal?]
  simp only [leading, decide_false, Bool.or_false]
  rfl

theorem oneToNine_iff {first : Char} (digit : first.isDigit = true) :
    '1' ≤ first ∧ first ≤ '9' ↔ first ≠ '0' := by
  have bounds : 48 ≤ first.toNat ∧ first.toNat ≤ 57 := by
    simpa [Char.isDigit, UInt32.le_iff_toNat_le] using digit
  have zero : first = '0' ↔ first.toNat = 48 := Char.toNat_inj.symm
  rw [Char.le_def, Char.le_def, UInt32.le_iff_toNat_le, UInt32.le_iff_toNat_le, Ne, zero]
  change 49 ≤ first.toNat ∧ first.toNat ≤ 57 ↔ _
  omega

/-- A number is read exactly if the form admits its digits and they are read as 64 bits. -/
theorem number?_eq_some_iff : number? digits = some number ↔
    (∃ first ∈ digits.head?, '1' ≤ first ∧ first ≤ '9') ∧
      (∀ digit ∈ digits, Text.isDecimalDigit digit = true) ∧
        Snippet.decimal? digits = some number := by
  constructor
  · intro read
    have leading : digits.head? ≠ some '0' := fun zero => by
      rw [number?_eq_none_iff.mpr (.inr (.inl zero))] at read
      cases read
    rw [number?_of_leading leading] at read
    obtain ⟨some, decimal, -⟩ := Snippet.decimal?_eq_some_iff.mp read
    refine ⟨?_, fun digit member => Textile.isDecimalDigit_of_isDigit (decimal digit member), read⟩
    cases digits with
    | nil => exact absurd rfl some
    | cons first rest =>
        refine ⟨first, rfl, (oneToNine_iff (decimal first List.mem_cons_self)).mpr ?_⟩
        rintro rfl
        exact leading rfl
  · rintro ⟨⟨first, head, lower, -⟩, -, read⟩
    have leading : digits.head? ≠ some '0' := by
      rw [Option.mem_def.mp head]
      intro zero
      cases Option.some.inj zero
      exact absurd lower (by decide)
    rw [number?_of_leading leading, read]

/-! ## Words and numbers -/

theorem toList_id (marker : Marker) :
    marker.id.toList = marker.kind.word.toList ++ Nat.toDigits 10 marker.number := by
  rw [id, String.toList_append, Nat.toString_eq_repr, Nat.toList_repr]

theorem ofIdChars?_eq_some_iff :
    ofIdChars? text = some marker ↔ marker.InRange ∧ text = marker.id.toList := by
  refine ⟨of_ofIdChars?, ?_⟩
  rintro ⟨valid, rfl⟩
  exact ofIdChars?_toList_id valid

/-- The word says the kind, and what stands behind it the number. -/
theorem ofIdChars?_eq_some_iff_split : ofIdChars? text = some marker ↔
    ∃ digits, text = marker.kind.word.toList ++ digits ∧ number? digits = some marker.number := by
  rw [ofIdChars?_eq_some_iff, toList_id]
  constructor
  · rintro ⟨⟨positive, small⟩, rfl⟩
    exact ⟨_, rfl, number?_toDigits positive small⟩
  · rintro ⟨digits, rfl, read⟩
    obtain ⟨positive, small, rfl⟩ := toDigits_of_number? read
    exact ⟨⟨positive, small⟩, rfl⟩

theorem ofIdChars?_eq_none_iff : ofIdChars? text = none ↔
    ∀ (kind : Kind) (digits : List Char), text = kind.word.toList ++ digits → Unreadable digits := by
  simp only [Option.eq_none_iff_forall_ne_some, ne_eq, ofIdChars?_eq_some_iff_split, not_exists,
    not_and, ← number?_eq_none_iff]
  constructor
  · intro refused kind digits split number read
    exact refused ⟨kind, number⟩ digits split read
  · intro refused marker digits split read
    exact refused marker.kind digits split marker.number read

end

/-! ## Ids and links -/

/-- How markers are spelled behind a lead. -/
structure Spelling (lead : List Char) (read : String → Option Marker)
    (write : Marker → String) : Prop where
  /-- What is read is what is written for a number in range. -/
  read_iff : ∀ text marker, read text = some marker ↔ marker.InRange ∧ text = write marker
  /-- The form is looked at first, and the number read from its digits. -/
  two_steps : ∀ text marker, read text = some marker ↔
    ∃ digits, HasForm lead marker.kind digits text.toList ∧
      Snippet.decimal? digits = some marker.number
  /-- What has the words of a marker in front is refused only for the number behind them. -/
  refused : ∀ text, read text = none ↔ ∀ (kind : Kind) (digits : List Char),
    text.toList = lead ++ (kind.word.toList ++ digits) → Unreadable digits
  /-- No two texts are read as one marker. -/
  unique : ∀ text other marker, read text = some marker → read other = some marker → text = other

theorem spelling_of_lead {lead : List Char} {read : String → Option Marker}
    {write : Marker → String}
    (reads : ∀ text, read text = (Text.dropStart? lead text.toList).bind ofIdChars?)
    (writes : ∀ marker, (write marker).toList = lead ++ marker.id.toList) :
    Spelling lead read write := by
  have readIff : ∀ text marker, read text = some marker ↔
      ∃ rest, text.toList = lead ++ rest ∧ ofIdChars? rest = some marker := by
    intro text marker
    simp only [reads, Option.bind_eq_some_iff, Text.dropStart?_eq_some_iff]
  have written : ∀ text marker, read text = some marker ↔
      marker.InRange ∧ text = write marker := by
    intro text marker
    simp only [readIff, ofIdChars?_eq_some_iff, ← String.toList_inj, writes]
    constructor
    · rintro ⟨rest, whole, valid, rfl⟩
      exact ⟨valid, whole⟩
    · rintro ⟨valid, whole⟩
      exact ⟨_, whole, valid, rfl⟩
  constructor
  case read_iff => exact written
  case two_steps =>
    intro text marker
    simp only [readIff, ofIdChars?_eq_some_iff_split, number?_eq_some_iff]
    constructor
    · rintro ⟨rest, whole, digits, rfl, first, decimal, value⟩
      exact ⟨digits, ⟨whole, first, decimal⟩, value⟩
    · rintro ⟨digits, ⟨whole, first, decimal⟩, value⟩
      exact ⟨_, whole, digits, rfl, first, decimal, value⟩
  case refused =>
    intro text
    simp only [reads, Option.bind_eq_none_iff, Text.dropStart?_eq_some_iff, ofIdChars?_eq_none_iff]
    constructor
    · intro refused kind digits whole
      exact refused _ whole kind digits rfl
    · rintro refused _ whole kind digits rfl
      exact refused kind digits whole
  case unique =>
    intro text other marker here there
    rw [((written text marker).mp here).2, ((written other marker).mp there).2]

theorem ofLink?_eq_bind (text : String) :
    ofLink? text = (Text.dropStart? ['#'] text.toList).bind ofIdChars? := by
  unfold ofLink?
  split
  · next id whole =>
      rw [whole]
      rfl
  · next other =>
      have missing : Text.dropStart? ['#'] text.toList = none := by
        rw [Text.dropStart?_eq_none_iff]
        rintro ⟨id, whole⟩
        exact other id whole.symm
      rw [missing, Option.bind_none]

/-- Of every marker in range the written id is the one text that is read as its id, and the written
link the one that is read as a link to it. -/
theorem spelling_id_link : Spelling [] ofId? id ∧ Spelling ['#'] ofLink? link := by
  constructor
  · exact spelling_of_lead (fun _ => rfl) fun _ => rfl
  · refine spelling_of_lead ofLink?_eq_bind fun marker => ?_
    rw [link, String.toList_append]
    rfl

end Bindery.Footnote.Marker
