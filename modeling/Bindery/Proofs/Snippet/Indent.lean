import Bindery.Proofs.Text.Lines
import Bindery.Snippet.Indent
import Mathlib.Order.Bounds.Defs

/-!
# Shared indentation

The lines that are not blank all lose the same spaces and tabs, as many as the one with the
fewest has. So that one has none left.
-/

set_option autoImplicit false

namespace Bindery.Snippet

/-- The line is not all white space. -/
def Visible (line : List Char) : Prop := Text.allBlank line = false

instance : DecidablePred Visible := fun line =>
  inferInstanceAs (Decidable (Text.allBlank line = false))

section

variable {line : List Char} {lines : List (List Char)} {width : Nat}

theorem isBlank_of_isIndent {c : Char} (indent : isIndent c = true) : Text.isBlank c = true := by
  rw [isIndent, Bool.or_eq_true, beq_iff_eq, beq_iff_eq] at indent
  rcases indent with rfl | rfl <;> rfl

theorem not_visible_nil : ¬ Visible [] := nofun

/-- White space around a line does not make it visible. -/
theorem visible_between_iff {front back : List Char} (before : ∀ c ∈ front, Text.isBlank c = true)
    (behind : ∀ c ∈ back, Text.isBlank c = true) : Visible (front ++ line ++ back) ↔ Visible line := by
  have front' : front.all Text.isBlank = true := List.all_eq_true.mpr before
  have back' : back.all Text.isBlank = true := List.all_eq_true.mpr behind
  rw [Visible, Text.allBlank, List.all_append, List.all_append, front', back', Bool.true_and,
    Bool.and_true, Visible, Text.allBlank]

/-! ## One line -/

/-- What a line loses are spaces and tabs in front of it. -/
theorem exists_dropIndent (width : Nat) (line : List Char) : ∃ front,
    line = front ++ dropIndent width line ∧ ∀ c ∈ front, isIndent c = true := by
  fun_induction dropIndent width line with
  | case1 => exact ⟨[], rfl, nofun⟩
  | case2 line => exact ⟨[], rfl, nofun⟩
  | case3 width c rest indent ih =>
      obtain ⟨front, whole, all⟩ := ih
      exact ⟨c :: front, congrArg (c :: ·) whole, List.forall_mem_cons.mpr ⟨indent, all⟩⟩
  | case4 => exact ⟨[], rfl, nofun⟩

theorem indentWidth_dropIndent (width : Nat) (line : List Char) :
    indentWidth (dropIndent width line) = indentWidth line - width := by
  fun_induction dropIndent width line with
  | case1 => exact (Nat.zero_sub _).symm
  | case2 line => rfl
  | case3 width c rest indent ih =>
      rw [ih, indentWidth, indentWidth, List.takeWhile_cons_of_pos indent, List.length_cons,
        Nat.add_sub_add_right]
  | case4 width c rest other =>
      rw [indentWidth, List.takeWhile_cons_of_neg other]
      exact (Nat.zero_sub _).symm

theorem visible_dropIndent_iff : Visible (dropIndent width line) ↔ Visible line := by
  obtain ⟨front, whole, all⟩ := exists_dropIndent width line
  have blank : ∀ c ∈ front, Text.isBlank c = true := fun c member => isBlank_of_isIndent (all c member)
  have same : Visible (front ++ dropIndent width line ++ []) ↔ Visible (dropIndent width line) :=
    visible_between_iff blank nofun
  rw [List.append_nil, ← whole] at same
  exact same.symm

theorem mem_of_mem_dropIndent {c : Char} (member : c ∈ dropIndent width line) : c ∈ line := by
  obtain ⟨front, whole, -⟩ := exists_dropIndent width line
  rw [whole]
  exact List.mem_append_right _ member

theorem indentWidth_eq_zero_iff :
    indentWidth line = 0 ↔ line.head? ≠ some ' ' ∧ line.head? ≠ some '\t' := by
  cases line with
  | nil => simp [indentWidth]
  | cons c rest => simp [indentWidth, List.takeWhile_cons, isIndent]

/-- A carriage return at the end is no indentation. -/
theorem indentWidth_append_return (line : List Char) :
    indentWidth (line ++ ['\r']) = indentWidth line := by
  have other : isIndent '\r' = false := by decide
  rw [indentWidth, indentWidth, List.takeWhile_append]
  split
  · next all => simp [other, all]
  · rfl

theorem visible_append_return_iff : Visible (line ++ ['\r']) ↔ Visible line := by
  have blank : ∀ c ∈ ['\r'], Text.isBlank c = true := by decide
  have same : Visible ([] ++ line ++ ['\r']) ↔ Visible line := visible_between_iff nofun blank
  rwa [List.nil_append] at same

/-! ## The lines of a text -/

/-- The indentation shared is the least one of the lines that are not blank. -/
theorem isLeast_commonIndent (some : ∃ line ∈ lines, Visible line) :
    IsLeast {width | ∃ line ∈ lines, Visible line ∧ indentWidth line = width}
      (commonIndent lines) := by
  have among : ∀ width, width ∈ (lines.filter fun line => !Text.allBlank line).map indentWidth ↔
      ∃ line ∈ lines, Visible line ∧ indentWidth line = width := by
    intro width
    simp [Visible, and_assoc]
  rw [commonIndent]
  cases least : ((lines.filter fun line => !Text.allBlank line).map indentWidth).min? with
  | none =>
      obtain ⟨line, member, visible⟩ := some
      have width := (among _).mpr ⟨line, member, visible, rfl⟩
      rw [List.min?_eq_none_iff.mp least] at width
      cases width
  | some width =>
      obtain ⟨member, below⟩ := List.min?_eq_some_iff.mp least
      exact ⟨(among width).mp member, fun other here => below other ((among other).mpr here)⟩

end

end Bindery.Snippet
