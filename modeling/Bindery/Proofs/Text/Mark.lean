import Bindery.Text.Blank
import Bindery.Text.Lines
import Mathlib.Data.List.Infix

/-!
# Marks in a text

Where a mark can stand in a text that is put together from parts. It does not
reach across a character that it does not have.
-/

set_option autoImplicit false

namespace Bindery.Text

section

variable {mark before after : List Char} {c : Char}

/-- A mark that begins before a character it does not have ends before it. -/
theorem prefix_of_prefix_append (absent : c ∉ mark) (member : c ∈ before)
    (starts : mark <+: before ++ after) : mark <+: before := by
  rcases Nat.le_total mark.length before.length with short | long
  · exact List.prefix_of_prefix_length_le starts (List.prefix_append before after) short
  · have longer := List.prefix_of_prefix_length_le (List.prefix_append before after) starts long
    exact absurd (longer.subset member) absent

theorem prefix_of_prefix_append_cons (absent : c ∉ mark) (starts : mark <+: before ++ c :: after) :
    mark <+: before := by
  rw [← List.singleton_append, ← List.append_assoc] at starts
  have within : mark <+: before ++ [c] := prefix_of_prefix_append absent (by simp) starts
  refine (List.prefix_concat_iff.mp within).resolve_left ?_
  rintro rfl
  exact absent (by simp)

/-- A mark does not begin where its first character is not. -/
theorem infix_append_iff_of_head (first : c ∉ before) :
    c :: mark <:+: before ++ after ↔ c :: mark <:+: after := by
  refine ⟨fun inside => ?_, fun inside => inside.trans List.infix_append_right⟩
  induction before with
  | nil => exact inside
  | cons d before ih =>
      rw [List.mem_cons, not_or] at first
      rcases List.infix_cons_iff.mp inside with starts | later
      · exact absurd (List.cons_prefix_cons.mp starts).1 first.1
      · exact ih first.2 later

/-- No mark stands across a character that it does not have. -/
theorem infix_append_cons_iff (absent : c ∉ mark) :
    mark <:+: before ++ c :: after ↔ mark <:+: before ∨ mark <:+: after := by
  constructor
  · intro inside
    induction before with
    | nil =>
        rcases List.infix_cons_iff.mp inside with starts | later
        · exact .inl (prefix_of_prefix_append_cons absent starts).isInfix
        · exact .inr later
    | cons d before ih =>
        rcases List.infix_cons_iff.mp inside with starts | later
        · exact .inl (prefix_of_prefix_append_cons absent starts).isInfix
        · exact (ih later).imp_left List.infix_cons
  · rintro (inside | inside)
    · exact inside.trans List.infix_append_left
    · exact (List.infix_cons inside).trans List.infix_append_right

theorem infix_join_iff (absent : c ∉ mark) (nonempty : mark ≠ []) (pieces : List (List Char)) :
    mark <:+: join [c] pieces ↔ ∃ piece ∈ pieces, mark <:+: piece := by
  induction pieces with
  | nil => simpa [join] using nonempty
  | cons piece others ih =>
      cases others with
      | nil => simp [join]
      | cons next others =>
          rw [join, List.intercalate_cons_cons, List.append_assoc, List.singleton_append,
            infix_append_cons_iff absent, ← join, ih, List.exists_mem_cons_iff _ piece]

/-- A text is split at its first separator. -/
theorem splitOnce_eq_some_iff {text : List Char} :
    splitOnce c text = some (before, after) ↔ text = before ++ c :: after ∧ c ∉ before := by
  induction text generalizing before with
  | nil => simp [splitOnce]
  | cons d rest ih =>
      rw [splitOnce]
      cases before with
      | nil =>
          by_cases same : d = c <;> simp [same]
      | cons e front =>
          simp only [List.cons_append, List.cons.injEq, List.mem_cons, not_or]
          by_cases same : d = c
          · simp only [same, if_true]
            constructor
            · intro split
              cases split
            · intro split
              exact absurd split.1.1 split.2.1
          · simp only [if_neg same, Option.map_eq_some_iff, Prod.exists, Prod.mk.injEq,
              List.cons.injEq]
            constructor
            · intro split
              obtain ⟨other, behind, later, ⟨rfl, rfl⟩, rfl⟩ := split
              obtain ⟨whole, absent⟩ := ih.mp later
              exact ⟨⟨rfl, whole⟩, Ne.symm same, absent⟩
            · intro split
              obtain ⟨⟨rfl, whole⟩, -, absent⟩ := split
              exact ⟨front, after, ih.mpr ⟨whole, absent⟩, ⟨rfl, rfl⟩, rfl⟩

variable {separates : Char → Bool}

theorem splitWhere_ne_nil (text : List Char) : splitWhere separates text ≠ [] := by
  fun_cases splitWhere separates text with
  | case1 => exact List.cons_ne_nil _ _
  | case2 c rest _ => exact List.cons_ne_nil _ _
  | case3 c rest _ _ => exact List.cons_ne_nil _ _
  | case4 c rest _ piece pieces _ => exact List.cons_ne_nil _ _

theorem splitWhere_append_cons (separating : separates c = true) :
    splitWhere separates (before ++ c :: after) =
      splitWhere separates before ++ splitWhere separates after := by
  induction before with
  | nil => simp [splitWhere, separating]
  | cons d before ih =>
      rw [List.cons_append, splitWhere, splitWhere, ih]
      split
      · rfl
      · cases split : splitWhere separates before with
        | nil => exact absurd split (splitWhere_ne_nil before)
        | cons piece pieces => rfl

theorem splitWhere_eq_singleton {text : List Char} (whole : ∀ c ∈ text, separates c = false) :
    splitWhere separates text = [text] := by
  induction text with
  | nil => rfl
  | cons c rest ih =>
      obtain ⟨first, others⟩ := List.forall_mem_cons.mp whole
      rw [splitWhere, first, ih others]
      rfl

/-- The pieces are of characters of the text that separate nothing. -/
theorem mem_of_mem_splitWhere {text piece : List Char} (member : piece ∈ splitWhere separates text) :
    ∀ c ∈ piece, c ∈ text ∧ separates c = false := by
  induction text generalizing piece with
  | nil =>
      obtain rfl := List.mem_singleton.mp member
      nofun
  | cons c rest ih =>
      have later : ∀ {piece}, piece ∈ splitWhere separates rest →
          ∀ d ∈ piece, d ∈ c :: rest ∧ separates d = false := fun among d inside =>
        (ih among d inside).imp_left (List.mem_cons_of_mem c)
      rw [splitWhere] at member
      split at member
      · rcases List.mem_cons.mp member with rfl | among
        · nofun
        · exact later among
      · next inside =>
          have first : c ∈ c :: rest ∧ separates c = false :=
            ⟨List.mem_cons_self, by simpa using inside⟩
          split at member
          · obtain rfl := List.mem_singleton.mp member
            exact List.forall_mem_singleton.mpr first
          · next found =>
              rcases List.mem_cons.mp member with rfl | among
              · exact List.forall_mem_cons.mpr
                  ⟨first, later (found ▸ List.mem_cons_self)⟩
              · exact later (found ▸ List.mem_cons_of_mem _ among)

theorem separates_of_mem_splitWhere {text piece : List Char}
    (member : piece ∈ splitWhere separates text) : ∀ c ∈ piece, separates c = false :=
  fun c inside => (mem_of_mem_splitWhere member c inside).2

/-- Words are of characters of the text that are not blank. -/
theorem mem_of_mem_words {text word : List Char} (member : word ∈ words text) :
    ∀ c ∈ word, c ∈ text ∧ isBlank c = false :=
  mem_of_mem_splitWhere (List.mem_filter.mp member).1

theorem isBlank_of_mem_words {text word : List Char} (member : word ∈ words text) :
    ∀ c ∈ word, isBlank c = false :=
  fun c inside => (mem_of_mem_words member c inside).2

end

end Bindery.Text
