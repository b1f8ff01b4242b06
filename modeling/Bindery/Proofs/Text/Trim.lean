import Bindery.Proofs.Text.Lines

/-!
# Trimmed texts

A text is what is left of it after trimming, with what has been dropped on both sides. So
blanks around a text that does not begin or end with one are all that is dropped.
-/

set_option autoImplicit false

namespace Bindery.Text

section

variable {text blanks : List Char}

/-! ## Dropping from the end -/

theorem exists_dropEndWhile (drop : Char → Bool) (text : List Char) :
    ∃ dropped, dropEndWhile drop text ++ dropped = text ∧ ∀ c ∈ dropped, drop c = true := by
  refine ⟨(text.reverse.takeWhile drop).reverse, ?_, fun c member => ?_⟩
  · rw [dropEndWhile, ← List.reverse_append, List.takeWhile_append_dropWhile, List.reverse_reverse]
  · exact List.mem_takeWhile_imp (List.mem_reverse.mp member)

theorem dropEndWhile_isPrefix (drop : Char → Bool) (text : List Char) :
    dropEndWhile drop text <+: text :=
  (exists_dropEndWhile drop text).imp fun _ => And.left

theorem dropEndWhile_append {drop : Char → Bool} {dropped : List Char}
    (all : ∀ c ∈ dropped, drop c = true) (text : List Char) :
    dropEndWhile drop (text ++ dropped) = dropEndWhile drop text := by
  rw [dropEndWhile, List.reverse_append, List.dropWhile_append_of_pos fun c member =>
    all c (List.mem_reverse.mp member), dropEndWhile]

theorem getLast?_dropEndWhile {drop : Char → Bool} :
    ∀ c ∈ (dropEndWhile drop text).getLast?, drop c = false := by
  intro c last
  have first := List.head?_dropWhile_not drop text.reverse
  rw [dropEndWhile, List.getLast?_reverse, Option.mem_def] at last
  rwa [last] at first

/-! ## Blanks around a text -/

theorem trimStart_append {text : List Char} (after : List Char) (visible : allBlank text = false) :
    trimStart (text ++ after) = trimStart text ++ after := by
  have some : ¬ (text.dropWhile isBlank).isEmpty = true := by
    simpa [allBlank, List.dropWhile_eq_nil_iff] using visible
  rw [trimStart, List.dropWhile_append, if_neg some]
  rfl

theorem mem_trimStart {c : Char} {text : List Char} (member : c ∈ text)
    (visible : isBlank c = false) : c ∈ trimStart text := by
  rw [← List.takeWhile_append_dropWhile (p := isBlank) (l := text), List.mem_append] at member
  rcases member with blank | member
  · exact absurd (List.mem_takeWhile_imp blank) (by simp [visible])
  · exact member

theorem mem_trim {c : Char} {text : List Char} (member : c ∈ text) (visible : isBlank c = false) :
    c ∈ trim text := by
  have reversed : c ∈ (trimStart text).reverse := List.mem_reverse.mpr (mem_trimStart member visible)
  exact List.mem_reverse.mpr (mem_trimStart reversed visible)

theorem trimStart_eq_nil (blank : allBlank text = true) : trimStart text = [] :=
  List.dropWhile_eq_nil_iff.mpr fun c member => List.all_eq_true.mp blank c member

theorem trim_append_blanks (blank : allBlank blanks = true) (text : List Char) :
    trim (text ++ blanks) = trim text := by
  cases visible : allBlank text with
  | true =>
      have both : allBlank (text ++ blanks) = true := by
        rw [allBlank, List.all_append, Bool.and_eq_true]
        exact ⟨visible, blank⟩
      rw [trim, trim, trimStart_eq_nil both, trimStart_eq_nil visible]
  | false =>
      rw [trim, trim, trimStart_append blanks visible, trimEnd, trimEnd,
        dropEndWhile_append (List.all_eq_true.mp blank)]

theorem trimStart_blanks_append (blank : allBlank blanks = true) (text : List Char) :
    trimStart (blanks ++ text) = trimStart text :=
  List.dropWhile_append_of_pos (List.all_eq_true.mp blank)

theorem exists_trim (line : List Char) : ∃ front back, line = front ++ trim line ++ back ∧
    (∀ c ∈ front, isBlank c = true) ∧ ∀ c ∈ back, isBlank c = true := by
  obtain ⟨back, behind, blank⟩ := exists_dropEndWhile isBlank (trimStart line)
  refine ⟨line.takeWhile isBlank, back, ?_, fun c => List.mem_takeWhile_imp, blank⟩
  rw [List.append_assoc, trim, trimEnd, behind, trimStart, List.takeWhile_append_dropWhile]

theorem dropWhile_eq_self {drop : Char → Bool} (kept : ∀ c ∈ text, drop c = false) :
    text.dropWhile drop = text := by
  cases text with
  | nil => rfl
  | cons c rest => exact List.dropWhile_cons_of_neg (by simp [kept c List.mem_cons_self])

theorem trim_eq_self (visible : ∀ c ∈ text, isBlank c = false) : trim text = text := by
  rw [trim, trimStart, dropWhile_eq_self visible, trimEnd, dropEndWhile,
    dropWhile_eq_self fun c member => visible c (List.mem_reverse.mp member), List.reverse_reverse]

end

end Bindery.Text
