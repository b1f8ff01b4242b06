import Bindery.Text.CaseFold
import Bindery.Text.WordChar

/-!
# Words in any case

Only word characters fold to others, and what they fold to are word characters. So texts
that differ only in case have their words in the same places.
-/

set_option autoImplicit false

namespace Bindery.Text

/-- Whether all codes from the first to the last are among the word characters, as far as one range
of them or the Latin letters of one case tell. -/
def inWords (first last : Nat) : Bool :=
  wordRanges.any (fun range => Nat.ble range.1 first && Nat.ble last range.2) ||
    Nat.ble 0x61 first && Nat.ble last 0x7A || Nat.ble 0x41 first && Nat.ble last 0x5A

/-- The words beyond ASCII have only codes of characters. -/
theorem wordRanges_valid : ∀ range ∈ wordRanges,
    128 ≤ range.1 ∧ (range.2 < 0xD800 ∨ 0xDFFF < range.1 ∧ range.2 < 0x110000) := by
  decide +kernel

/-- Characters that fold are word characters, by whole ranges or code by code. -/
theorem inWords_foldRanges : foldRanges.all (fun range => inWords range.first range.last ||
    (List.range ((range.last - range.first) / range.step + 1)).all fun number =>
      inWords (range.first + number * range.step) (range.first + number * range.step)) = true := by
  decide +kernel

/-- They fold to word characters. -/
theorem inWords_shifted :
    foldRanges.all (fun range =>
      inWords (Int.toNat (range.first + range.shift))
        (Int.toNat (range.last + range.shift))) = true := by
  decide +kernel

theorem isWordChar_of_inWords {first last : Nat} {c : Char} (words : inWords first last = true)
    (lower : first ≤ c.toNat) (upper : c.toNat ≤ last) : isWordChar c = true := by
  simp only [inWords, Bool.or_eq_true, List.any_eq_true, Bool.and_eq_true, Nat.ble_eq] at words
  have letter : 0x61 ≤ c.toNat ∧ c.toNat ≤ 0x7A ∨ 0x41 ≤ c.toNat ∧ c.toNat ≤ 0x5A →
      isWordChar c = true := by
    intro latin
    have small : c.toNat < 128 := by omega
    have alpha : c.isAlpha = true := by
      unfold Char.isAlpha Char.isUpper Char.isLower
      simp only [Bool.or_eq_true, Bool.and_eq_true, decide_eq_true_eq, UInt32.le_iff_toNat_le,
        ge_iff_le]
      exact latin.symm
    rw [isWordChar, if_pos small, Char.isAlphanum, alpha]
    rfl
  rcases words with (⟨range, member, below, above⟩ | ⟨below, above⟩) | ⟨below, above⟩
  · have beyond := (wordRanges_valid range member).1
    rw [isWordChar, if_neg (by omega), inRanges, List.any_eq_true]
    exact ⟨range, member, by simp only [Bool.and_eq_true, decide_eq_true_eq]; omega⟩
  · exact letter (.inl ⟨by omega, by omega⟩)
  · exact letter (.inr ⟨by omega, by omega⟩)

theorem toNat_ofNat_of_inWords {first last code : Nat} (words : inWords first last = true)
    (lower : first ≤ code) (upper : code ≤ last) : (Char.ofNat code).toNat = code := by
  simp only [inWords, Bool.or_eq_true, List.any_eq_true, Bool.and_eq_true, Nat.ble_eq] at words
  have valid : code.isValidChar := by
    unfold Nat.isValidChar
    rcases words with (⟨range, member, below, above⟩ | ⟨below, above⟩) | ⟨below, above⟩
    · have := (wordRanges_valid range member).2
      omega
    · omega
    · omega
  rw [Char.ofNat, dif_pos valid]
  rfl

/-- A character that folds is a word character. -/
theorem isWordChar_of_folds {range : FoldRange} {c : Char}
    (found : foldRanges.find? (·.contains c.toNat) = some range) : isWordChar c = true := by
  have member := List.mem_of_find?_eq_some found
  have inside := List.find?_some found
  simp only [FoldRange.contains, Bool.and_eq_true, decide_eq_true_eq, beq_iff_eq] at inside
  obtain ⟨⟨lower, upper⟩, step⟩ := inside
  rcases Bool.or_eq_true _ _ ▸ List.all_eq_true.mp inWords_foldRanges range member with whole | each
  · exact isWordChar_of_inWords whole lower upper
  · -- The code is one of those at a whole number of steps from the first.
    have place : range.first + (c.toNat - range.first) / range.step * range.step = c.toNat := by
      have := Nat.div_add_mod' (c.toNat - range.first) range.step
      omega
    have number : (c.toNat - range.first) / range.step ∈
        List.range ((range.last - range.first) / range.step + 1) := by
      have := Nat.div_le_div_right (c := range.step) (Nat.sub_le_sub_right upper range.first)
      rw [List.mem_range]
      omega
    have here := List.all_eq_true.mp each _ number
    rw [place] at here
    exact isWordChar_of_inWords here (Nat.le_refl _) (Nat.le_refl _)

theorem isWordChar_foldChar (c : Char) : isWordChar (foldChar c) = isWordChar c := by
  unfold foldChar
  cases found : foldRanges.find? (·.contains c.toNat) with
  | none => rfl
  | some range =>
      have member := List.mem_of_find?_eq_some found
      have inside := List.find?_some found
      simp only [FoldRange.contains, Bool.and_eq_true, decide_eq_true_eq] at inside
      have shifted := List.all_eq_true.mp inWords_shifted range member
      have code : (Char.ofNat (Int.toNat (c.toNat + range.shift))).toNat = _ :=
        toNat_ofNat_of_inWords shifted (by omega) (by omega)
      rw [isWordChar_of_folds found]
      exact isWordChar_of_inWords shifted (by rw [code]; omega) (by rw [code]; omega)

/-- Only the character itself folds to a character that no word has. -/
theorem foldChar_eq_iff {c d : Char} (other : isWordChar d = false) : foldChar c = d ↔ c = d := by
  have self : isWordChar c = false → foldChar c = c := by
    intro plain
    unfold foldChar
    cases found : foldRanges.find? (·.contains c.toNat) with
    | none => rfl
    | some range => exact absurd (isWordChar_of_folds found) (by simp [plain])
  constructor
  · rintro rfl
    rw [isWordChar_foldChar] at other
    exact (self other).symm
  · rintro rfl
    exact self other

theorem mem_map_foldChar_iff {c : Char} {text : List Char} (other : isWordChar c = false) :
    c ∈ text.map foldChar ↔ c ∈ text := by
  simp only [List.mem_map, foldChar_eq_iff other, exists_eq_right]

end Bindery.Text
