import Bindery.Text.Substitution
import Mathlib.Data.List.Infix

/-!
# Where a rule is used

What each use of a rule writes stands in the result. A text can be cut where no
use of the rule reaches across, and its parts are substituted one by one. What a
rule takes and writes at its uses is what it takes and writes in the whole text.
-/

set_option autoImplicit false

namespace Bindery.Text

/-- The texts at the start of which a rule is used, in order. The number counts the characters
that the last use still takes. -/
def usesAfter (rule : Rule) : Nat → List Char → List (List Char)
  | _, [] => []
  | taken + 1, _ :: rest => usesAfter rule taken rest
  | 0, c :: rest =>
      match rule (c :: rest) with
      | some (length, _) => (c :: rest) :: usesAfter rule (length - 1) rest
      | none => usesAfter rule 0 rest

def uses (rule : Rule) (text : List Char) : List (List Char) := usesAfter rule 0 text

/-- What stands before one of the texts at the end of a text. -/
def ahead (text here : List Char) : List Char := text.take (text.length - here.length)

section

variable {rule : Rule}

theorem written_infix_substituteAfter {taken : Nat} {text here : List Char}
    (used : here ∈ usesAfter rule taken text) :
    ∃ length written, rule here = some (length, written) ∧
      written <:+: substituteAfter rule taken text := by
  induction text generalizing taken with
  | nil => cases taken <;> cases used
  | cons c rest ih =>
      cases taken with
      | succ taken => exact ih used
      | zero =>
          rw [usesAfter] at used
          rw [substituteAfter]
          cases applied : rule (c :: rest) with
          | none =>
              rw [applied] at used
              obtain ⟨length, written, same, inside⟩ := ih used
              exact ⟨length, written, same, List.infix_cons inside⟩
          | some use =>
              rw [applied] at used
              rcases List.mem_cons.mp used with rfl | used
              · exact ⟨use.1, use.2, applied, (List.prefix_append _ _).isInfix⟩
              · obtain ⟨length, written, same, inside⟩ := ih used
                exact ⟨length, written, same, inside.trans (List.suffix_append _ _).isInfix⟩

/-- What a use of the rule writes stands in the result. -/
theorem written_infix_substitute {text here : List Char} (used : here ∈ uses rule text) :
    ∃ length written, rule here = some (length, written) ∧ written <:+: substitute rule text :=
  written_infix_substituteAfter used

theorem substituteAfter_eq_drop (taken : Nat) (text : List Char) :
    substituteAfter rule taken text = substitute rule (text.drop taken) := by
  induction text generalizing taken with
  | nil =>
      rw [List.drop_nil]
      cases taken <;> rfl
  | cons c rest ih =>
      cases taken with
      | zero => rfl
      | succ taken => exact ih taken

theorem usesAfter_eq_drop (taken : Nat) (text : List Char) :
    usesAfter rule taken text = uses rule (text.drop taken) := by
  induction text generalizing taken with
  | nil =>
      rw [List.drop_nil]
      cases taken <;> rfl
  | cons c rest ih =>
      cases taken with
      | zero => rfl
      | succ taken => exact ih taken

theorem substitute_kept {c : Char} {rest : List Char} (kept : rule (c :: rest) = none) :
    substitute rule (c :: rest) = c :: substitute rule rest := by
  rw [substitute, substituteAfter, kept]
  rfl

theorem substitute_taken {taken rest written : List Char} (nonempty : taken ≠ [])
    (used : rule (taken ++ rest) = some (taken.length, written)) :
    substitute rule (taken ++ rest) = written ++ substitute rule rest := by
  obtain ⟨c, tail, rfl⟩ := List.exists_cons_of_ne_nil nonempty
  rw [List.cons_append] at used ⊢
  rw [substitute, substituteAfter, used]
  dsimp only
  rw [substituteAfter_eq_drop, List.length_cons, Nat.add_sub_cancel, List.drop_left]

theorem uses_kept {c : Char} {rest : List Char} (kept : rule (c :: rest) = none) :
    uses rule (c :: rest) = uses rule rest := by
  rw [uses, usesAfter, kept]
  rfl

theorem uses_taken {taken rest written : List Char} (nonempty : taken ≠ [])
    (used : rule (taken ++ rest) = some (taken.length, written)) :
    uses rule (taken ++ rest) = (taken ++ rest) :: uses rule rest := by
  obtain ⟨c, tail, rfl⟩ := List.exists_cons_of_ne_nil nonempty
  rw [List.cons_append] at used ⊢
  rw [uses, usesAfter, used]
  dsimp only
  rw [usesAfter_eq_drop, List.length_cons, Nat.add_sub_cancel, List.drop_left]

theorem mem_uses_self {text : List Char} {use : Nat × List Char} (nonempty : text ≠ [])
    (used : rule text = some use) : text ∈ uses rule text := by
  obtain ⟨c, rest, rfl⟩ := List.exists_cons_of_ne_nil nonempty
  rw [uses, usesAfter, used]
  exact List.mem_cons_self

/-- Where the rule is not used the text stays as it is. -/
theorem substitute_unused {text rest : List Char}
    (unused : ∀ here, here <:+ text → here ≠ [] → rule (here ++ rest) = none) :
    substitute rule (text ++ rest) = text ++ substitute rule rest ∧
      uses rule (text ++ rest) = uses rule rest := by
  induction text with
  | nil => exact ⟨rfl, rfl⟩
  | cons c text ih =>
      have kept := unused (c :: text) List.suffix_rfl (List.cons_ne_nil c text)
      obtain ⟨same, others⟩ := ih fun here suffix =>
        unused here (suffix.trans (List.suffix_cons c text))
      rw [List.cons_append] at kept ⊢
      exact ⟨(substitute_kept kept).trans (congrArg (c :: ·) same),
        (uses_kept kept).trans others⟩

theorem suffix_of_uses {text here : List Char} (used : here ∈ uses rule text) : here <:+ text := by
  have suffix : ∀ taken, here ∈ usesAfter rule taken text → here <:+ text := by
    clear used
    induction text with
    | nil =>
        intro taken used
        cases taken <;> cases used
    | cons c rest ih =>
        intro taken used
        have behind := fun taken used => (ih taken used).trans (List.suffix_cons c rest)
        cases taken with
        | succ taken => exact behind taken used
        | zero =>
            rw [usesAfter] at used
            split at used
            · rcases List.mem_cons.mp used with rfl | later
              · exact List.suffix_rfl
              · exact behind _ later
            · exact behind 0 used
  exact suffix 0 used

theorem ahead_append (before here : List Char) : ahead (before ++ here) here = before := by
  rw [ahead, List.length_append, Nat.add_sub_cancel, List.take_left]

theorem ahead_of_suffix {rest here : List Char} (taken : List Char) (suffix : here <:+ rest) :
    ahead (taken ++ rest) here = taken ++ ahead rest here := by
  obtain ⟨before, rfl⟩ := suffix
  rw [ahead_append, ← List.append_assoc, ahead_append]

/-- What a rule takes at the start of a text, what it writes for it, and what follows. -/
def UsedAs (rule : Rule) (how : List Char → List Char → List Char → Prop) : Prop :=
  ∀ text, ∀ use ∈ rule text, ∃ taken rest, text = taken ++ rest ∧ taken ≠ [] ∧
    use.1 = taken.length ∧ how taken use.2 rest

theorem UsedAs.imp {how other : List Char → List Char → List Char → Prop}
    (uses : UsedAs rule how) (each : ∀ taken written rest, how taken written rest →
      other taken written rest) : UsedAs rule other := by
  intro text use used
  obtain ⟨taken, rest, whole, nonempty, count, here⟩ := uses text use used
  exact ⟨taken, rest, whole, nonempty, count, each taken use.2 rest here⟩

/-- A text begins with a character that stays or with a use of the rule. -/
theorem UsedAs.induction {how : List Char → List Char → List Char → Prop}
    {motive : List Char → List Char → Prop} (uses : UsedAs rule how) (nil : motive [] [])
    (keep : ∀ c rest, rule (c :: rest) = none → motive rest (substitute rule rest) →
      motive (c :: rest) (c :: substitute rule rest))
    (use : ∀ taken rest written, rule (taken ++ rest) = some (taken.length, written) →
      how taken written rest → motive rest (substitute rule rest) →
      motive (taken ++ rest) (written ++ substitute rule rest))
    (text : List Char) : motive text (substitute rule text) := by
  induction length : text.length using Nat.strong_induction_on generalizing text with
  | _ length ih =>
      subst length
      cases text with
      | nil => exact nil
      | cons c rest =>
          rw [substitute, substituteAfter]
          cases applied : rule (c :: rest) with
          | none => exact keep c rest applied (ih _ (Nat.lt_succ_self _) rest rfl)
          | some found =>
              obtain ⟨taken, behind, whole, nonempty, count, used⟩ := uses _ _ applied
              cases taken with
              | nil => exact absurd rfl nonempty
              | cons d taken =>
                  rw [List.cons_append] at whole
                  obtain ⟨rfl, rfl⟩ := List.cons.inj whole
                  simp only [count, List.length_cons, Nat.add_sub_cancel, substituteAfter_eq_drop,
                    List.drop_left]
                  have whole : rule (c :: taken ++ behind) = some ((c :: taken).length, found.2) := by
                    rw [← count]
                    exact applied
                  apply use (c :: taken) behind found.2 whole used
                  apply ih _ _ _ rfl
                  simp only [List.length_cons, List.length_append]
                  omega

/-- A character that no use of the rule writes is not in the result. -/
theorem UsedAs.not_mem {c : Char} {text : List Char}
    (uses : UsedAs rule fun taken written _ => c ∉ taken → c ∉ written) (absent : c ∉ text) :
    c ∉ substitute rule text := by
  revert absent
  refine uses.induction (motive := fun text written => c ∉ text → c ∉ written) id ?_ ?_ text
  · intro d rest _ later absent
    rw [List.mem_cons, not_or] at absent
    exact List.not_mem_cons_of_ne_of_not_mem absent.1 (later absent.2)
  · intro taken rest written _ each later absent
    rw [List.mem_append, not_or] at absent
    exact List.not_mem_append (each absent.1) (later absent.2)

theorem UsedAs.nonempty {how : List Char → List Char → List Char → Prop}
    (uses : UsedAs rule how) :
    UsedAs rule fun taken written rest => taken ≠ [] ∧ how taken written rest := by
  intro text use used
  obtain ⟨taken, rest, whole, nonempty, count, here⟩ := uses text use used
  exact ⟨taken, rest, whole, nonempty, count, nonempty, here⟩

/-- The uses of a rule that each take a character so often and write it so often. -/
theorem UsedAs.count_substitute {c : Char} {lost gained : Nat}
    (each : UsedAs rule fun taken written _ => written.count c + lost = taken.count c + gained)
    (text : List Char) :
    (substitute rule text).count c + lost * (uses rule text).length =
      text.count c + gained * (uses rule text).length := by
  refine each.nonempty.induction (motive := fun text written =>
    written.count c + lost * (uses rule text).length =
      text.count c + gained * (uses rule text).length) ?_ ?_ ?_ text
  · simp [uses, usesAfter]
  · intro d rest kept later
    rw [uses_kept kept, List.count_cons, List.count_cons]
    omega
  · intro taken rest written used how later
    rw [uses_taken how.1 used, List.count_append, List.count_append, List.length_cons,
      Nat.mul_succ, Nat.mul_succ]
    have here := how.2
    omega

/-- No use of the rule that begins in the text looks or reaches beyond it when `after` follows. -/
def StaysWithin (rule : Rule) (text after : List Char) : Prop :=
  ∀ here, here <:+ text → here ≠ [] → rule (here ++ after) = rule here ∧
    ∀ use ∈ rule here, use.1 ≤ here.length

/-- A text on which another rule does what the rule does when `after` follows, without reaching
beyond it. -/
theorem substituteAfter_append_of_agrees {other : Rule} {taken : Nat} {text after : List Char}
    (fits : taken ≤ text.length)
    (agrees : ∀ here, here <:+ text → here ≠ [] →
      rule (here ++ after) = other here ∧ ∀ use ∈ other here, use.1 ≤ here.length) :
    substituteAfter rule taken (text ++ after) =
      substituteAfter other taken text ++ substitute rule after := by
  -- What is left to skip lies within the text, since no use of the rule reaches beyond it.
  induction text generalizing taken with
  | nil =>
      obtain rfl : taken = 0 := Nat.le_zero.mp fits
      rfl
  | cons c rest ih =>
      have later := fun here (suffix : here <:+ rest) =>
        agrees here (suffix.trans (List.suffix_cons c rest))
      cases taken with
      | succ taken => exact ih (Nat.le_of_succ_le_succ fits) later
      | zero =>
          obtain ⟨same, bounded⟩ := agrees (c :: rest) List.suffix_rfl (List.cons_ne_nil c rest)
          rw [List.cons_append] at same
          rw [List.cons_append, substituteAfter, substituteAfter, same]
          cases applied : other (c :: rest) with
          | none => exact congrArg (c :: ·) (ih (Nat.zero_le _) later)
          | some use =>
              have reach : use.1 - 1 ≤ rest.length := by
                have := bounded use applied
                simp only [List.length_cons] at this
                omega
              simp only [ih reach later, List.append_assoc]

theorem substituteAfter_append {taken : Nat} {text after : List Char}
    (fits : taken ≤ text.length) (within : StaysWithin rule text after) :
    substituteAfter rule taken (text ++ after) =
      substituteAfter rule taken text ++ substitute rule after :=
  substituteAfter_append_of_agrees fits within

theorem substitute_append {text after : List Char} (within : StaysWithin rule text after) :
    substitute rule (text ++ after) = substitute rule text ++ substitute rule after :=
  substituteAfter_append (Nat.zero_le _) within

/-- A use of the rule that begins in the markup begins with its last character and keeps it, and a
use that begins before the markup and reaches it writes it whole. -/
structure PassesBy (rule : Rule) (markup : List Char) : Prop where
  inside : ∀ here rest, here <:+ markup → here ≠ [] → ∀ use ∈ rule (here ++ rest),
    here.length = 1 ∧ here <+: use.2
  reaching : ∀ before rest, before ≠ [] → ∀ use ∈ rule (before ++ (markup ++ rest)),
    use.1 ≤ before.length ∨ markup <:+: use.2

theorem PassesBy.prefix_substitute {markup here : List Char} (passes : PassesBy rule markup)
    (rest : List Char) (suffix : here <:+ markup) : here <+: substitute rule (here ++ rest) := by
  unfold substitute
  induction here with
  | nil => exact List.nil_prefix
  | cons c tail ih =>
      rw [List.cons_append, substituteAfter]
      cases applied : rule (c :: (tail ++ rest)) with
      | none => exact List.prefix_cons_inj c |>.mpr (ih ((List.suffix_cons c tail).trans suffix))
      | some use =>
          have kept := (passes.inside _ rest suffix (List.cons_ne_nil c tail) use applied).2
          exact kept.trans (List.prefix_append _ _)

theorem PassesBy.infix_substituteAfter {taken : Nat} {markup before : List Char}
    (passes : PassesBy rule markup) (rest : List Char) (fits : taken ≤ before.length) :
    markup <:+: substituteAfter rule taken (before ++ (markup ++ rest)) := by
  induction before generalizing taken with
  | nil =>
      obtain rfl : taken = 0 := Nat.le_zero.mp fits
      exact (passes.prefix_substitute rest List.suffix_rfl).isInfix
  | cons c before ih =>
      cases taken with
      | succ taken => exact ih (Nat.le_of_succ_le_succ fits)
      | zero =>
          rw [List.cons_append, substituteAfter]
          cases applied : rule (c :: (before ++ (markup ++ rest))) with
          | none => exact List.infix_cons (ih (Nat.zero_le _))
          | some use =>
              rcases passes.reaching (c :: before) rest (List.cons_ne_nil c before) use applied
                with short | covers
              · have reach : use.1 - 1 ≤ before.length := by
                  rw [List.length_cons] at short
                  omega
                exact (ih reach).trans (List.suffix_append _ _).isInfix
              · exact covers.trans (List.prefix_append _ _).isInfix

/-- Markup that the rule passes by is found in the result. -/
theorem PassesBy.infix_substitute {markup text : List Char} (passes : PassesBy rule markup)
    (inside : markup <:+: text) : markup <:+: substitute rule text := by
  obtain ⟨before, rest, rfl⟩ := inside
  rw [List.append_assoc]
  exact passes.infix_substituteAfter rest (Nat.zero_le _)

/-- A text in which the rule is never used stays as it is. -/
theorem substitute_eq_self {text : List Char}
    (unused : ∀ here, here <:+ text → here ≠ [] → rule here = none) :
    substitute rule text = text := by
  unfold substitute
  induction text with
  | nil => rfl
  | cons c rest ih =>
      rw [substituteAfter, unused (c :: rest) List.suffix_rfl (List.cons_ne_nil c rest)]
      exact congrArg (c :: ·) (ih fun here suffix =>
        unused here (suffix.trans (List.suffix_cons c rest)))

/-- The rule is used nowhere in the text. -/
def Unused (rule : Rule) (text : List Char) : Prop :=
  ∀ here, here <:+ text → here ≠ [] → rule here = none

theorem Unused.substitute_eq {text : List Char} (unused : Unused rule text) :
    substitute rule text = text :=
  substitute_eq_self unused

theorem unused_cons_iff {c : Char} {rest : List Char} :
    Unused rule (c :: rest) ↔ rule (c :: rest) = none ∧ Unused rule rest := by
  constructor
  · intro unused
    exact ⟨unused _ List.suffix_rfl (List.cons_ne_nil c rest),
      fun here suffix => unused here (suffix.trans (List.suffix_cons c rest))⟩
  · rintro ⟨kept, behind⟩ here suffix some
    rcases List.suffix_cons_iff.mp suffix with rfl | later
    · exact kept
    · exact behind here later some

theorem unused_append_iff {text after : List Char} : Unused rule (text ++ after) ↔
    (∀ here, here <:+ text → here ≠ [] → rule (here ++ after) = none) ∧ Unused rule after := by
  induction text with
  | nil =>
      refine (and_iff_right fun here suffix some => ?_).symm
      exact absurd (List.suffix_nil.mp suffix) some
  | cons c text ih =>
      rw [List.cons_append, unused_cons_iff, ih, ← and_assoc]
      refine and_congr_left fun _ => ⟨?_, fun before => ?_⟩
      · rintro ⟨kept, before⟩ here suffix some
        rcases List.suffix_cons_iff.mp suffix with rfl | later
        · exact kept
        · exact before here later some
      · exact ⟨before _ List.suffix_rfl (List.cons_ne_nil c text),
          fun here suffix => before here (suffix.trans (List.suffix_cons c text))⟩

theorem unused_iff {text : List Char} : Unused rule text ↔ uses rule text = [] := by
  induction text with
  | nil =>
      refine iff_of_true (fun here suffix some => ?_) rfl
      exact absurd (List.suffix_nil.mp suffix) some
  | cons c rest ih =>
      rw [unused_cons_iff, ih]
      constructor
      · rintro ⟨kept, behind⟩
        rw [uses_kept kept, behind]
      · intro none
        have kept : rule (c :: rest) = .none := by
          cases applied : rule (c :: rest) with
          | none => rfl
          | some use =>
              have used := mem_uses_self (List.cons_ne_nil c rest) applied
              rw [none] at used
              cases used
        rw [uses_kept kept] at none
        exact ⟨kept, none⟩

/-- A rule that looks past a part of a text neither before nor behind it is used where it is used in
that part. -/
theorem unused_between_iff {front text back : List Char}
    (before : ∀ here, here <:+ front → here ≠ [] → rule (here ++ (text ++ back)) = none)
    (within : ∀ here, here <:+ text → here ≠ [] → (rule (here ++ back) = none ↔ rule here = none))
    (behind : Unused rule back) : Unused rule (front ++ (text ++ back)) ↔ Unused rule text := by
  rw [unused_append_iff, and_iff_right before, unused_append_iff, and_iff_left behind]
  exact forall_congr' fun here => forall_congr' fun suffix => forall_congr' fun some =>
    within here suffix some

end

end Bindery.Text
