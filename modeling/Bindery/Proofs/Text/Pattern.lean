import Bindery.Text.Pattern
import Mathlib.Data.List.Infix

/-!
# What patterns find

What a pattern finds behind a part of a text that it takes in one way only is what the
rest of the pattern finds there. Where there are several ways, it finds something exactly
if the rest does behind one of them.
-/

set_option autoImplicit false

namespace Bindery.Text

/-- The two texts are the same but for the case of their characters. -/
def SameInAnyCase (text other : List Char) : Prop := text.map foldChar = other.map foldChar

/-- The character before a place that comes behind the taken text. -/
def lastOf (before : Option Char) (taken : List Char) : Option Char := taken.getLast?.or before

section

variable {α : Type} {next : Matcher α} {accepts : Char → Bool} {before : Option Char}
  {text taken rest word : List Char} {c : Char} {found : α}

theorem lastOf_cons (before : Option Char) (c : Char) (taken : List Char) :
    lastOf before (c :: taken) = lastOf (some c) taken := by
  rw [lastOf, lastOf, List.getLast?_cons]
  cases taken.getLast? <;> rfl

theorem sameInAnyCase_cons {d : Char} : SameInAnyCase (c :: text) (d :: word) ↔
    sameFold d c = true ∧ SameInAnyCase text word := by
  rw [SameInAnyCase, List.map_cons, List.map_cons, List.cons.injEq, sameFold, beq_iff_eq, eq_comm]
  rfl

/-! ## A word -/

theorem inAnyCase_append (same : SameInAnyCase taken word) (rest : List Char) :
    inAnyCase word next before (taken ++ rest) = next (lastOf before taken) rest := by
  induction word generalizing taken before with
  | nil =>
      obtain rfl : taken = [] := List.map_eq_nil_iff.mp same
      rfl
  | cons d word ih =>
      cases taken with
      | nil => cases same
      | cons c taken =>
          obtain ⟨first, others⟩ := sameInAnyCase_cons.mp same
          rw [List.cons_append, inAnyCase, one, if_pos first, ih others, lastOf_cons]

theorem exists_of_inAnyCase (read : inAnyCase word next before text = some found) :
    ∃ taken rest, text = taken ++ rest ∧ SameInAnyCase taken word ∧
      next (lastOf before taken) rest = some found := by
  induction word generalizing text before with
  | nil => exact ⟨[], text, rfl, rfl, read⟩
  | cons d word ih =>
      cases text with
      | nil => cases read
      | cons c text =>
          rw [inAnyCase, one] at read
          split at read
          · next first =>
              obtain ⟨taken, rest, rfl, others, later⟩ := ih read
              exact ⟨c :: taken, rest, rfl, sameInAnyCase_cons.mpr ⟨first, others⟩,
                lastOf_cons before c taken ▸ later⟩
          · cases read

/-! ## Several characters -/

/-- As many characters as possible are taken if the rest of the pattern fits behind none of them. -/
theorem manyOf_append (each : ∀ c ∈ taken, accepts c = true)
    (stops : ∀ c ∈ rest.head?, accepts c = false)
    (unfit : ∀ before c rest, accepts c = true → next before (c :: rest) = none) :
    manyOf accepts next before (taken ++ rest) = next (lastOf before taken) rest := by
  induction taken generalizing before with
  | nil =>
      cases rest with
      | nil => rfl
      | cons c rest =>
          have other := stops c rfl
          rw [List.nil_append, manyOf, if_neg (by rw [other]; exact Bool.false_ne_true)]
          rfl
  | cons c taken ih =>
      obtain ⟨first, others⟩ := List.forall_mem_cons.mp each
      rw [List.cons_append, manyOf, if_pos first, ih others, unfit before c _ first, lastOf_cons]
      cases next (lastOf (some c) taken) rest <;> rfl

theorem exists_of_manyOf (read : manyOf accepts next before text = some found) :
    ∃ taken rest, text = taken ++ rest ∧ (∀ c ∈ taken, accepts c = true) ∧
      next (lastOf before taken) rest = some found := by
  have stay : next before text = some found → ∃ taken rest, text = taken ++ rest ∧
      (∀ c ∈ taken, accepts c = true) ∧ next (lastOf before taken) rest = some found :=
    fun here => ⟨[], text, rfl, nofun, here⟩
  induction text generalizing before with
  | nil => exact stay read
  | cons c text ih =>
      rw [manyOf] at read
      split at read
      · next first =>
          cases later : manyOf accepts next (some c) text with
          | none =>
              rw [later] at read
              exact stay read
          | some other =>
              rw [later] at read
              obtain rfl := Option.some.inj read
              obtain ⟨taken, rest, rfl, others, behind⟩ :=
                ih later fun here => ⟨[], text, rfl, nofun, here⟩
              exact ⟨c :: taken, rest, rfl, List.forall_mem_cons.mpr ⟨first, others⟩,
                lastOf_cons before c taken ▸ behind⟩
      · exact stay read

theorem isSome_manyOf (each : ∀ c ∈ taken, accepts c = true)
    (fits : (next (lastOf before taken) rest).isSome = true) :
    (manyOf accepts next before (taken ++ rest)).isSome = true := by
  have first : ∀ before text, (next before text).isSome = true →
      (manyOf accepts next before text).isSome = true := by
    intro before text here
    cases text with
    | nil => exact here
    | cons c text =>
        rw [manyOf]
        split
        · cases manyOf accepts next (some c) text with
          | none => exact here
          | some found => rfl
        · exact here
  induction taken generalizing before with
  | nil => exact first before rest fits
  | cons c taken ih =>
      obtain ⟨accepted, others⟩ := List.forall_mem_cons.mp each
      have later := ih others (lastOf_cons before c taken ▸ fits)
      obtain ⟨found, read⟩ := Option.isSome_iff_exists.mp later
      rw [List.cons_append, manyOf, if_pos accepted, read]
      rfl

/-- As many characters as there are are taken if the rest of the pattern fits behind them. -/
theorem manyOf_all (each : ∀ c ∈ taken, accepts c = true)
    (stops : ∀ c ∈ rest.head?, accepts c = false)
    (fits : next (lastOf before taken) rest = some found) :
    manyOf accepts next before (taken ++ rest) = some found := by
  induction taken generalizing before with
  | nil =>
      cases rest with
      | nil => exact fits
      | cons c rest =>
          have other := stops c rfl
          rw [List.nil_append, manyOf, if_neg (by rw [other]; exact Bool.false_ne_true)]
          exact fits
  | cons c taken ih =>
      obtain ⟨first, others⟩ := List.forall_mem_cons.mp each
      rw [lastOf_cons] at fits
      rw [List.cons_append, manyOf, if_pos first, ih others fits]

theorem exists_of_one (read : one accepts next before text = some found) :
    ∃ c rest, text = c :: rest ∧ accepts c = true ∧ next (some c) rest = some found := by
  cases text with
  | nil => cases read
  | cons c rest =>
      rw [one] at read
      split at read
      · next first => exact ⟨c, rest, rfl, first, read⟩
      · cases read

theorem someOf_all (nonempty : taken ≠ []) (each : ∀ c ∈ taken, accepts c = true)
    (stops : ∀ c ∈ rest.head?, accepts c = false)
    (fits : next (lastOf before taken) rest = some found) :
    someOf accepts next before (taken ++ rest) = some found := by
  obtain ⟨c, others, rfl⟩ := List.exists_cons_of_ne_nil nonempty
  obtain ⟨first, each⟩ := List.forall_mem_cons.mp each
  rw [lastOf_cons] at fits
  rw [List.cons_append, someOf, one, if_pos first]
  exact manyOf_all each stops fits

theorem exists_of_someOf (read : someOf accepts next before text = some found) :
    ∃ taken rest, text = taken ++ rest ∧ (taken ≠ [] ∧ ∀ c ∈ taken, accepts c = true) ∧
      next (lastOf before taken) rest = some found := by
  obtain ⟨c, text, rfl, first, read⟩ := exists_of_one read
  obtain ⟨taken, rest, rfl, others, later⟩ := exists_of_manyOf read
  refine ⟨c :: taken, rest, rfl, ⟨List.cons_ne_nil c taken, ?_⟩, lastOf_cons before c taken ▸ later⟩
  exact List.forall_mem_cons.mpr ⟨first, others⟩

/-- As few characters as possible are all of them if the rest of the pattern fits at the end of the
text only. -/
theorem leastOf_all (each : ∀ c ∈ text, accepts c = true)
    (unfit : ∀ before c rest, next before (c :: rest) = none) :
    leastOf accepts next before text = next (lastOf before text) [] := by
  induction text generalizing before with
  | nil => rfl
  | cons c text ih =>
      obtain ⟨first, others⟩ := List.forall_mem_cons.mp each
      rw [leastOf, unfit, if_pos first, ih others, lastOf_cons]

/-! ## Parts of a pattern -/

theorem either_eq_some {first second : Matcher α}
    (read : either first second before text = some found) :
    first before text = some found ∨ second before text = some found := by
  unfold either at read
  split at read
  · next here => exact .inl (here.trans read)
  · exact .inr read

theorem either_of_some {first second : Matcher α} (fits : first before text = some found) :
    either first second before text = some found := by
  rw [either, fits]

theorem isSome_either_iff {first second : Matcher α} :
    (either first second before text).isSome = true ↔
      (first before text).isSome = true ∨ (second before text).isSome = true := by
  rw [either]
  cases first before text with
  | none => simp
  | some found => simp

theorem group_one {next : List Char → Matcher α} (first : accepts c = true) :
    group (one accepts) next before (c :: rest) = next [c] (some c) rest := by
  rw [group, one, if_pos first, List.length_cons, Nat.add_sub_cancel_left]
  rfl

theorem group_someOf_all {next : List Char → Matcher α} (nonempty : taken ≠ [])
    (each : ∀ c ∈ taken, accepts c = true) (stops : ∀ c ∈ rest.head?, accepts c = false)
    (fits : next taken (lastOf before taken) rest = some found) :
    group (someOf accepts) next before (taken ++ rest) = some found := by
  refine someOf_all nonempty each stops ?_
  rwa [List.length_append, Nat.add_sub_cancel, List.take_left]

theorem group_leastOf_all {next : List Char → Matcher α} (each : ∀ c ∈ text, accepts c = true)
    (unfit : ∀ taken before c rest, next taken before (c :: rest) = none) :
    group (leastOf accepts) next before text = next text (lastOf before text) [] := by
  have whole : text.take (text.length - ([] : List Char).length) = text := List.take_length
  calc group (leastOf accepts) next before text
      _ = next (text.take (text.length - ([] : List Char).length)) (lastOf before text) [] :=
        leastOf_all each fun before c rest => unfit _ before c rest
      _ = next text (lastOf before text) [] := by rw [whole]

/-- What a group gives to the rest of the pattern is the text that its part has taken. -/
theorem exists_of_group {part : Matcher α → Matcher α} {next : List Char → Matcher α}
    {takes : List Char → Prop}
    (sound : ∀ {onward : Matcher α}, part onward before text = some found →
      ∃ taken rest, text = taken ++ rest ∧ takes taken ∧
        onward (lastOf before taken) rest = some found)
    (read : group part next before text = some found) :
    ∃ taken rest, text = taken ++ rest ∧ takes taken ∧
      next taken (lastOf before taken) rest = some found := by
  obtain ⟨taken, rest, rfl, holds, later⟩ := sound read
  rw [List.length_append, Nat.add_sub_cancel, List.take_left] at later
  exact ⟨taken, rest, rfl, holds, later⟩

/-! ## Going on from place to place -/

theorem fewOf_here {next : List Char → Matcher α} (here : next taken before text = some found) :
    fewOf next taken before text = some found := by
  cases text with
  | nil => exact here
  | cons c text => rw [fewOf, here]

/-- Behind a part of the text where the rest of the pattern fits nowhere. -/
theorem fewOf_append {next : List Char → Matcher α}
    (unfit : ∀ here, here <:+ text → here ≠ [] → ∀ taken before,
      next taken before (here ++ rest) = none) (taken : List Char) (before : Option Char) :
    fewOf next taken before (text ++ rest) =
      fewOf next (text.reverse ++ taken) (lastOf before text) rest := by
  induction text generalizing taken before with
  | nil => rfl
  | cons c text ih =>
      have none := unfit (c :: text) List.suffix_rfl (List.cons_ne_nil c text) taken before
      rw [List.cons_append] at none ⊢
      rw [fewOf, none, lastOf_cons, List.reverse_cons, List.append_assoc, List.singleton_append]
      exact ih (fun here suffix => unfit here (suffix.trans (List.suffix_cons c text))) _ _

theorem fewOf_eq_none {next : List Char → Matcher α}
    (unfit : ∀ here, here <:+ text → ∀ taken before, next taken before here = none)
    (taken : List Char) (before : Option Char) : fewOf next taken before text = none := by
  have whole : fewOf next taken before (text ++ []) =
      fewOf next (text.reverse ++ taken) (lastOf before text) [] := by
    refine fewOf_append (fun here suffix _ => ?_) taken before
    rw [List.append_nil]
    exact unfit here suffix
  rw [List.append_nil] at whole
  exact whole.trans (unfit [] List.nil_suffix _ _)

theorem firstMatch_append
    (unfit : ∀ here, here <:+ text → here ≠ [] → ∀ before, next before (here ++ rest) = none)
    (before : Option Char) :
    firstMatch next before (text ++ rest) = firstMatch next (lastOf before text) rest := by
  induction text generalizing before with
  | nil => rfl
  | cons c text ih =>
      have none := unfit (c :: text) List.suffix_rfl (List.cons_ne_nil c text) before
      rw [List.cons_append] at none ⊢
      rw [firstMatch, none, lastOf_cons]
      exact ih (fun here suffix => unfit here (suffix.trans (List.suffix_cons c text))) _

theorem firstMatch_eq_none
    (unfit : ∀ here, here <:+ text → ∀ before, next before here = none) (before : Option Char) :
    firstMatch next before text = none := by
  have whole : firstMatch next before (text ++ []) = firstMatch next (lastOf before text) [] := by
    refine firstMatch_append (fun here suffix _ => ?_) before
    rw [List.append_nil]
    exact unfit here suffix
  rw [List.append_nil] at whole
  exact whole.trans (unfit [] List.nil_suffix _)

/-! ## What is left of a text -/

variable {pattern : Matcher (List Char)}

theorem removeAfter_length (taken rest : List Char) (before : Option Char) :
    removeAfter pattern taken.length before (taken ++ rest) =
      removeAfter pattern 0 (lastOf before taken) rest := by
  induction taken generalizing before with
  | nil => rfl
  | cons c taken ih =>
      rw [List.length_cons, List.cons_append, removeAfter, ih, lastOf_cons]

/-- Where the pattern fits, what it takes goes. -/
theorem removeAfter_taken (nonempty : taken ≠ [])
    (fits : pattern before (taken ++ rest) = some rest) :
    removeAfter pattern 0 before (taken ++ rest) =
      removeAfter pattern 0 (lastOf before taken) rest := by
  obtain ⟨c, others, rfl⟩ := List.exists_cons_of_ne_nil nonempty
  have length : (others ++ rest).length - rest.length = others.length := by
    rw [List.length_append, Nat.add_sub_cancel]
  rw [List.cons_append] at fits ⊢
  rw [removeAfter, fits, lastOf_cons, ← removeAfter_length, ← length]

/-- A part of the text where the pattern fits nowhere stays. -/
theorem removeAfter_append
    (unfit : ∀ here, here <:+ text → here ≠ [] → ∀ before, pattern before (here ++ rest) = none)
    (before : Option Char) : removeAfter pattern 0 before (text ++ rest) =
      text ++ removeAfter pattern 0 (lastOf before text) rest := by
  induction text generalizing before with
  | nil => rfl
  | cons c text ih =>
      have none := unfit (c :: text) List.suffix_rfl (List.cons_ne_nil c text) before
      rw [List.cons_append] at none ⊢
      rw [removeAfter, none, lastOf_cons]
      refine congrArg (c :: ·) (ih (fun here suffix => ?_) _)
      exact unfit here (suffix.trans (List.suffix_cons c text))

end

end Bindery.Text
