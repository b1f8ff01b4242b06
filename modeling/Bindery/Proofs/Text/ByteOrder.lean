import Mathlib.Data.List.Basic

/-!
# The order of bytes

In UTF-8 a text comes before another one exactly if it does so character by character:
the leading bytes tell how long a character is, and longer ones come later.
-/

set_option autoImplicit false

namespace Bindery.Text

/-- A text in UTF-8. -/
def bytes (text : List Char) : List UInt8 := text.flatMap String.utf8EncodeChar

theorem bytes_toList (text : String) : bytes text.toList = text.toUTF8.data.toList := by
  have encoded := String.utf8Encode_toList (b := text)
  rw [String.toUTF8, ← encoded, List.utf8Encode, List.toList_data_toByteArray]
  rfl

section

variable {rest more : List UInt8}

theorem cons_ofNat_lt {byte other : Nat} (fits : other < 256)
    (less : byte < other ∨ byte = other ∧ rest < more) :
    UInt8.ofNat byte :: rest < UInt8.ofNat other :: more := by
  rw [List.cons_lt_cons_iff, UInt8.lt_iff_toNat_lt]
  rcases less with less | ⟨rfl, less⟩
  · left
    rw [UInt8.toNat_ofNat', UInt8.toNat_ofNat', Nat.mod_eq_of_lt fits,
      Nat.mod_eq_of_lt (Nat.lt_trans less fits)]
    exact less
  · exact .inr ⟨rfl, less⟩

/-- A byte that is not greater leaves the decision to the bytes behind it at most. -/
theorem cons_digit_lt {digit other lead : Nat} (fits : other + lead < 256) (upTo : digit ≤ other)
    (later : digit = other → rest < more) :
    UInt8.ofNat (digit + lead) :: rest < UInt8.ofNat (other + lead) :: more := by
  apply cons_ofNat_lt fits
  rcases Nat.lt_or_eq_of_le upTo with less | same
  · exact .inl (Nat.add_lt_add_right less lead)
  · exact .inr ⟨congrArg (· + lead) same, later same⟩

theorem utf8EncodeChar_append_lt {c d : Char} (less : c < d) (rest more : List UInt8) :
    String.utf8EncodeChar c ++ rest < String.utf8EncodeChar d ++ more := by
  have value : c.val.toNat < d.val.toNat := less
  have bound : d.val.toNat < 1114112 := by
    have valid := d.valid
    simp only [UInt32.isValidChar, Nat.isValidChar] at valid
    omega
  unfold String.utf8EncodeChar
  dsimp only
  -- A shorter character has a lesser first byte, and in characters of one length the bytes are
  -- digits of their numbers.
  by_cases one : d.val.toNat ≤ 127
  · rw [if_pos one, if_pos (by omega)]
    exact cons_ofNat_lt (by omega) (.inl value)
  rw [if_neg one]
  by_cases two : d.val.toNat ≤ 2047
  · rw [if_pos two]
    split
    · exact cons_ofNat_lt (by omega) (.inl (by omega))
    · rw [if_pos (by omega)]
      apply cons_digit_lt (by omega) (by omega)
      intro first
      exact cons_ofNat_lt (by omega) (.inl (by omega))
  rw [if_neg two]
  by_cases three : d.val.toNat ≤ 65535
  · rw [if_pos three]
    split
    · exact cons_ofNat_lt (by omega) (.inl (by omega))
    split
    · exact cons_ofNat_lt (by omega) (.inl (by omega))
    · rw [if_pos (by omega)]
      apply cons_digit_lt (by omega) (by omega)
      intro first
      apply cons_digit_lt (by omega) (by omega)
      intro second
      exact cons_ofNat_lt (by omega) (.inl (by omega))
  rw [if_neg three]
  split
  · exact cons_ofNat_lt (by omega) (.inl (by omega))
  split
  · exact cons_ofNat_lt (by omega) (.inl (by omega))
  split
  · exact cons_ofNat_lt (by omega) (.inl (by omega))
  · apply cons_digit_lt (by omega) (by omega)
    intro first
    apply cons_digit_lt (by omega) (by omega)
    intro second
    apply cons_digit_lt (by omega) (by omega)
    intro third
    exact cons_ofNat_lt (by omega) (.inl (by omega))

end

theorem bytes_cons (c : Char) (text : List Char) :
    bytes (c :: text) = String.utf8EncodeChar c ++ bytes text := List.flatMap_cons

/-- The bytes are in the order of the characters. -/
theorem bytes_lt_bytes {text other : List Char} (less : text < other) :
    bytes text < bytes other := by
  induction text generalizing other with
  | nil =>
      cases other with
      | nil => cases less
      | cons d other =>
          obtain ⟨byte, others, encoded⟩ :=
            List.exists_cons_of_ne_nil (String.utf8EncodeChar_ne_nil (c := d))
          rw [bytes_cons, encoded]
          exact List.nil_lt_cons _ _
  | cons c text ih =>
      cases other with
      | nil => cases less
      | cons d other =>
          rw [bytes_cons, bytes_cons]
          rcases List.cons_lt_cons_iff.mp less with first | ⟨rfl, later⟩
          · exact utf8EncodeChar_append_lt first _ _
          · exact List.append_left_lt (ih later)

end Bindery.Text
