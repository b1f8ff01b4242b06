import Bindery.Footnote.Marker
import Mathlib.Data.List.Induction

/-!
# Markers are canonical

Reading accepts exactly what writing produces, as long as the number is in
range. So no two texts stand for one marker.
-/

set_option autoImplicit false

namespace Bindery.Footnote.Marker

/-- The number is one that can be read back. -/
def InRange (marker : Marker) : Prop := 0 < marker.number ∧ marker.number < limit

instance (marker : Marker) : Decidable marker.InRange :=
  inferInstanceAs (Decidable (0 < marker.number ∧ marker.number < limit))

theorem decimalValue_append (digits : List Char) (digit : Char) :
    decimalValue (digits ++ [digit]) = decimalValue digits * 10 + (digit.toNat - '0'.toNat) := by
  simp [decimalValue]

theorem decimalValue_toDigits (number : Nat) : decimalValue (Nat.toDigits 10 number) = number := by
  calc
    decimalValue (Nat.toDigits 10 number)
      = Nat.ofDigitChars 10 (Nat.toDigits 10 number) 0 := by
        simp only [decimalValue, Nat.ofDigitChars_eq_foldl, Nat.mul_comm]
    _ = number := Nat.ofDigitChars_ten_toDigits

theorem toDigits_injective : Function.Injective (Nat.toDigits 10) :=
  Function.LeftInverse.injective decimalValue_toDigits

theorem digitChar_of_isDigit {digit : Char} (accepted : digit.isDigit = true) :
    digit.toNat - '0'.toNat < 10 ∧ Nat.digitChar (digit.toNat - '0'.toNat) = digit := by
  have bounds : 48 ≤ digit.toNat ∧ digit.toNat ≤ 57 := by
    simpa [Char.isDigit, UInt32.le_iff_toNat_le] using accepted
  have zero : '0'.toNat = 48 := rfl
  refine ⟨by omega, Char.toNat_inj.mp ?_⟩
  rw [Nat.toNat_digitChar_of_lt_ten (by omega)]
  omega

/-- Digits without a leading zero are those of their value. -/
theorem toDigits_decimalValue {digits : List Char} (nonempty : digits ≠ [])
    (decimal : ∀ digit ∈ digits, digit.isDigit = true) (leading : digits.head? ≠ some '0') :
    0 < decimalValue digits ∧ Nat.toDigits 10 (decimalValue digits) = digits := by
  induction digits using List.reverseRecOn with
  | nil => exact absurd rfl nonempty
  | append_singleton front digit ih =>
      obtain ⟨small, written⟩ := digitChar_of_isDigit (decimal digit (by simp))
      rw [decimalValue_append]
      cases front with
      | nil =>
          have positive : digit.toNat - '0'.toNat ≠ 0 := by
            intro zero
            rw [zero] at written
            exact leading (by simp [← written])
          rw [show decimalValue [] = 0 from rfl, Nat.zero_mul, Nat.zero_add,
            Nat.toDigits_of_lt_base small, written]
          exact ⟨Nat.pos_of_ne_zero positive, rfl⟩
      | cons first rest =>
          obtain ⟨positive, same⟩ := ih (List.cons_ne_nil first rest)
            (fun other member => decimal other (List.mem_append_left _ member))
            (by simpa using leading)
          refine ⟨by omega, ?_⟩
          rw [Nat.mul_comm, ← Nat.toDigits_append_toDigits (by decide) positive small, same,
            Nat.toDigits_of_lt_base small, written]

theorem head?_toDigits_ne_zero {number : Nat} (positive : 0 < number) :
    (Nat.toDigits 10 number).head? ≠ some '0' := by
  induction number using Nat.strongRecOn with
  | ind number ih =>
      by_cases small : number < 10
      · rw [Nat.toDigits_of_lt_base small]
        simpa using Nat.ne_of_gt positive
      · rw [Nat.toDigits_of_base_le (by decide) (by omega),
          List.head?_append, Option.or_of_isSome (by simp)]
        exact ih (number / 10) (by omega) (by omega)

theorem number?_toDigits {number : Nat} (positive : 0 < number) (small : number < limit) :
    number? (Nat.toDigits 10 number) = some number := by
  have decimal : (Nat.toDigits 10 number).all Char.isDigit = true :=
    List.all_eq_true.mpr fun _ member =>
      Nat.isDigit_of_mem_toDigits (by decide) (by decide) member
  have nonempty : (Nat.toDigits 10 number).isEmpty = false := by simp
  simp only [number?, nonempty, decimal, head?_toDigits_ne_zero positive,
    decimalValue_toDigits, small]
  rfl

theorem toDigits_of_number? {digits : List Char} {number : Nat}
    (accepted : number? digits = some number) :
    0 < number ∧ number < limit ∧ digits = Nat.toDigits 10 number := by
  unfold number? at accepted
  split at accepted
  · cases accepted
  · next shape =>
      simp only [Bool.or_eq_true, List.isEmpty_iff, decide_eq_true_eq, Bool.not_eq_true',
        not_or, Bool.not_eq_false, List.all_eq_true] at shape
      obtain ⟨⟨nonempty, leading⟩, decimal⟩ := shape
      obtain ⟨positive, same⟩ := toDigits_decimalValue nonempty decimal leading
      dsimp only at accepted
      split at accepted
      · next small =>
          cases accepted
          exact ⟨positive, small, same.symm⟩
      · cases accepted

theorem toList_id_note (number : Nat) :
    (Marker.id ⟨.note, number⟩).toList = 'f' :: 'n' :: Nat.toDigits 10 number := by
  rw [id, String.toList_append, Nat.toString_eq_repr, Nat.toList_repr]
  simp [Kind.word]

theorem toList_id_reference (number : Nat) :
    (Marker.id ⟨.reference, number⟩).toList = 'f' :: 'n' :: 'r' :: Nat.toDigits 10 number := by
  rw [id, String.toList_append, Nat.toString_eq_repr, Nat.toList_repr]
  simp [Kind.word]

theorem id_injective : Function.Injective Marker.id := by
  -- A digit never continues the word of a note to that of a reference.
  have apart : ∀ {left right : Nat}, Nat.toDigits 10 left ≠ 'r' :: Nat.toDigits 10 right := by
    intro left right same
    have digit : 'r'.isDigit = true :=
      Nat.isDigit_of_mem_toDigits (by decide) (by decide) (same ▸ List.mem_cons_self)
    exact absurd digit (by decide)
  rintro ⟨leftKind, left⟩ ⟨rightKind, right⟩ same
  have chars := congrArg String.toList same
  cases leftKind <;> cases rightKind <;>
    simp only [toList_id_note, toList_id_reference, List.cons.injEq, true_and] at chars
  case note.note => rw [toDigits_injective chars]
  case note.reference => exact absurd chars apart
  case reference.note => exact absurd chars.symm apart
  case reference.reference => rw [toDigits_injective chars]

/-- The digits of a note are not taken for the rest of a reference. -/
theorem ofIdChars?_note (digits : List Char) (decimal : digits.head? ≠ some 'r') :
    ofIdChars? ('f' :: 'n' :: digits) = (number? digits).map (⟨.note, ·⟩) := by
  cases digits with
  | nil => rfl
  | cons first rest =>
      unfold ofIdChars?
      split
      · next same => simp_all
      · next same => simp_all
      · simp_all

theorem ofIdChars?_toList_id {marker : Marker} (valid : marker.InRange) :
    ofIdChars? marker.id.toList = some marker := by
  obtain ⟨kind, number⟩ := marker
  obtain ⟨positive, small⟩ := valid
  cases kind with
  | note =>
      have decimal : (Nat.toDigits 10 number).head? ≠ some 'r' := by
        intro first
        have digit := Nat.isDigit_of_mem_toDigits (by decide) (by decide)
          (List.mem_of_mem_head? first)
        exact absurd digit (by decide)
      rw [toList_id_note, ofIdChars?_note _ decimal, number?_toDigits positive small]
      rfl
  | reference =>
      rw [toList_id_reference, ofIdChars?, number?_toDigits positive small]
      rfl

theorem of_ofIdChars? {text : List Char} {marker : Marker} (accepted : ofIdChars? text = some marker) :
    marker.InRange ∧ text = marker.id.toList := by
  unfold ofIdChars? at accepted
  split at accepted
  · next digits =>
      obtain ⟨number, read, rfl⟩ := Option.map_eq_some_iff.mp accepted
      obtain ⟨positive, small, rfl⟩ := toDigits_of_number? read
      exact ⟨⟨positive, small⟩, (toList_id_reference number).symm⟩
  · next digits _ =>
      obtain ⟨number, read, rfl⟩ := Option.map_eq_some_iff.mp accepted
      obtain ⟨positive, small, rfl⟩ := toDigits_of_number? read
      exact ⟨⟨positive, small⟩, (toList_id_note number).symm⟩
  · cases accepted

/-- An id is read as a marker exactly if it is what the marker is written as. -/
theorem ofId?_eq_some_iff {text : String} {marker : Marker} :
    ofId? text = some marker ↔ marker.InRange ∧ text = marker.id := by
  constructor
  · intro accepted
    obtain ⟨valid, same⟩ := of_ofIdChars? accepted
    exact ⟨valid, String.toList_inj.mp same⟩
  · rintro ⟨valid, rfl⟩
    exact ofIdChars?_toList_id valid

/-- A link is read as a marker exactly if it is what the marker is written as. -/
theorem ofLink?_eq_some_iff {text : String} {marker : Marker} :
    ofLink? text = some marker ↔ marker.InRange ∧ text = marker.link := by
  have written : marker.link.toList = '#' :: marker.id.toList := by
    rw [link, String.toList_append]
    rfl
  constructor
  · intro accepted
    unfold ofLink? at accepted
    split at accepted
    · next rest shape =>
        obtain ⟨valid, same⟩ := of_ofIdChars? accepted
        exact ⟨valid, String.toList_inj.mp (by rw [shape, written, same])⟩
    · cases accepted
  · rintro ⟨valid, rfl⟩
    rw [ofLink?, written]
    exact ofIdChars?_toList_id valid

end Bindery.Footnote.Marker
