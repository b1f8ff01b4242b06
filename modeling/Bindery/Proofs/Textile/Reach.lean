import Bindery.Proofs.Textile.References
import Bindery.Proofs.Textile.Untangled

/-!
# The reach of the rules within a line

A rule looks for its own signs, and what follows a text without them changes nothing of
what it finds there. What it writes at a use has the same tags each time, so the tags and
marks in the output tell how often each rule was used.
-/

set_option autoImplicit false

namespace Bindery.Textile

section

variable {text rest front back shown here label content : List Char} {c mark sign : Char}

/-! ## What a rule finds in a part of a text -/

theorem bracketed?_append_cons (other : Text.isDecimalDigit sign = false ∧ sign ≠ '[' ∧ sign ≠ ']')
    (text rest : List Char) : bracketed? (text ++ sign :: rest) = bracketed? text := by
  ext digits
  rw [bracketed?_eq_some_iff, bracketed?_eq_some_iff]
  refine and_congr_right fun number => ⟨fun starts => ?_, fun starts => ?_⟩
  · refine Text.prefix_of_prefix_append_cons ?_ starts
    simp [inBrackets, other, number.not_mem other.1]
  · exact starts.trans (List.prefix_append _ _)

theorem footnoteRule_append_cons
    (other : Text.isDecimalDigit sign = false ∧ sign ≠ '[' ∧ sign ≠ ']') (nonempty : here ≠ [])
    (rest : List Char) : footnoteRule (here ++ sign :: rest) = footnoteRule here := by
  obtain ⟨c, tail, rfl⟩ := List.exists_cons_of_ne_nil nonempty
  rw [List.cons_append, footnoteRule, footnoteRule, bracketed?_append_cons other]

theorem footnoteRule_of_other (other : rest.head? ≠ some '[') :
    footnoteRule (c :: rest) = none := by
  rw [footnoteRule, opensBracket_bracketed? rest other]
  exact ite_self none

theorem unused_footnoteRule_of_not_mem (absent : '[' ∉ text) : Text.Unused footnoteRule text := by
  intro here suffix some
  obtain ⟨c, tail, rfl⟩ := List.exists_cons_of_ne_nil some
  refine footnoteRule_of_other fun head => absent (suffix.subset ?_)
  exact List.mem_cons_of_mem c (List.mem_of_mem_head? head)

theorem takeWhile_ne_append_cons (once : mark ∉ content) (rest : List Char) :
    (content ++ mark :: rest).takeWhile (· != mark) = content :=
  takeWhile_append_cons (fun c member => bne_iff_ne.mpr fun same => once (same ▸ member)) (by simp)

theorem linkRule_quoted (once : '"' ∉ label) (after : List Char) :
    linkRule ('"' :: (label ++ '"' :: ':' :: after)) = none ↔ label = [] ∨ address after = [] := by
  have taken : (label ++ '"' :: ':' :: after).takeWhile (· != '"') = label :=
    takeWhile_ne_append_cons once _
  rw [linkRule, taken, List.drop_left]
  simp only [Bool.or_eq_true, List.isEmpty_iff, ite_eq_left_iff, reduceCtorEq, imp_false, not_not]

theorem linkRule_uncoloned (once : '"' ∉ label) (other : rest.head? ≠ some ':') :
    linkRule ('"' :: (label ++ '"' :: rest)) = none := by
  have taken : (label ++ '"' :: rest).takeWhile (· != '"') = label :=
    takeWhile_ne_append_cons once _
  rw [linkRule, taken, List.drop_left]
  dsimp only
  split
  · next after same =>
      obtain rfl := (List.cons.inj same).2
      exact absurd rfl other
  · rfl

theorem linkRule_unclosed (absent : '"' ∉ rest) : linkRule ('"' :: rest) = none := by
  cases used : linkRule ('"' :: rest) with
  | none => rfl
  | some use =>
      obtain ⟨taken, behind, whole, -, -, label, target, -, -, -, -, rfl, -⟩ :=
        usedAs_linkRule _ _ used
      rw [List.cons_append, List.cons.injEq] at whole
      refine absurd ?_ absent
      simp [whole.2]

theorem address_eq_nil_iff : address text = [] ↔
    ∀ c ∈ text.takeWhile (fun c => !Text.isBlank c && c != '<'), isTrailing c = true := by
  rw [address, Text.dropEndWhile, List.reverse_eq_nil_iff, List.dropWhile_eq_nil_iff]
  simp only [List.mem_reverse]

/-- Behind a character that an address can have and end with, no address is empty. -/
theorem address_append_cons_eq_nil_iff
    (inside : Text.isBlank sign = false ∧ sign ≠ '<' ∧ isTrailing sign = false)
    (text rest : List Char) :
    address (text ++ sign :: rest) = [] ↔ address (text ++ [sign]) = [] := by
  have within : ∀ rest, (sign :: rest).takeWhile (fun c => !Text.isBlank c && c != '<') =
      sign :: rest.takeWhile (fun c => !Text.isBlank c && c != '<') :=
    fun rest => List.takeWhile_cons_of_pos (by simp [inside])
  rw [address_eq_nil_iff, address_eq_nil_iff, List.takeWhile_append, List.takeWhile_append]
  split
  · rw [within, within]
    have last := inside.2.2
    refine iff_of_false (fun all => ?_) fun all => ?_
    all_goals
      rw [all sign (by simp)] at last
      cases last
  · exact Iff.rfl

/-- The mark behind a code phrase can be in the address of a link, and nothing behind it matters. -/
theorem linkRule_append_iff (absent : '"' ∉ back) (suffix : here <:+ shown ++ ['@'])
    (nonempty : here ≠ []) : linkRule (here ++ back) = none ↔ linkRule here = none := by
  obtain ⟨inside, rfl, -⟩ := (List.suffix_concat_iff.mp suffix).resolve_left nonempty
  rw [List.append_assoc, List.singleton_append]
  cases inside with
  | nil => exact iff_of_true (linkRule_of_other (by decide) _) (linkRule_of_other (by decide) _)
  | cons c inside =>
      by_cases quote : c = '"'
      · subst quote
        by_cases closed : '"' ∈ inside
        · obtain ⟨label, more, rfl, once⟩ := List.eq_append_cons_of_mem closed
          simp only [List.cons_append, List.append_assoc]
          cases more with
          | nil =>
              exact iff_of_true (linkRule_uncoloned once (by simp))
                (linkRule_uncoloned once (by simp))
          | cons d more =>
              by_cases colon : d = ':'
              · subst colon
                rw [List.cons_append, List.cons_append, linkRule_quoted once, linkRule_quoted once,
                  address_append_cons_eq_nil_iff (by decide)]
              · exact iff_of_true (linkRule_uncoloned once (by simpa using colon))
                  (linkRule_uncoloned once (by simpa using colon))
        · exact iff_of_true (linkRule_unclosed (by simp [closed, absent]))
            (linkRule_unclosed (by simp [closed]))
      · exact iff_of_true (linkRule_of_other quote _) (linkRule_of_other quote _)

theorem unused_linkRule_of_not_mem (absent : '"' ∉ text) : Text.Unused linkRule text := by
  intro here suffix some
  obtain ⟨c, tail, rfl⟩ := List.exists_cons_of_ne_nil some
  refine linkRule_of_other (fun same => absent (suffix.subset ?_)) tail
  exact same ▸ List.mem_cons_self

theorem phrase?_closed (once : mark ∉ content) (rest : List Char) :
    phrase? mark (mark :: (content ++ mark :: rest)) =
      phrase? mark (mark :: (content ++ [mark])) := by
  have taken : ∀ rest, (content ++ mark :: rest).takeWhile (· != mark) = content :=
    takeWhile_ne_append_cons once
  have longer : ∀ rest, content.length ≠ (content ++ mark :: rest).length := by
    intro rest
    rw [List.length_append, List.length_cons]
    omega
  rw [phrase?, phrase?, taken, taken]
  simp only [if_neg (longer _)]

theorem phrase?_unclosed (absent : mark ∉ rest) : phrase? mark (mark :: rest) = none := by
  cases found : phrase? mark (mark :: rest) with
  | none => rfl
  | some content =>
      obtain ⟨-, -, more, same⟩ := eq_of_phrase? found
      rw [(List.cons.inj same).2] at absent
      exact absurd (List.mem_append_right _ List.mem_cons_self) absent

theorem phrase?_of_other (other : c ≠ mark) (rest : List Char) :
    phrase? mark (c :: rest) = none := by
  rw [phrase?, if_neg other]

theorem phrase?_content (once : mark ∉ content) (nonempty : content ≠ [])
    (first : ∀ c ∈ content.head?, Text.isBlank c = false)
    (last : ∀ c ∈ content.getLast?, Text.isBlank c = false) (rest : List Char) :
    phrase? mark (mark :: (content ++ mark :: rest)) = some content := by
  have taken : (content ++ mark :: rest).takeWhile (· != mark) = content :=
    takeWhile_ne_append_cons once _
  have longer : content.length ≠ (content ++ mark :: rest).length := by
    rw [List.length_append, List.length_cons]
    omega
  rw [phrase?, if_pos rfl, taken]
  dsimp only
  rw [if_neg longer]
  cases starts : content.head? with
  | none => exact absurd (List.head?_eq_none_iff.mp starts) nonempty
  | some c =>
      cases ends : content.getLast? with
      | none => exact absurd (List.getLast?_eq_none_iff.mp ends) nonempty
      | some d => simp [first c starts, last d ends]

/-- A phrase needs both of its marks. -/
theorem phrase?_append (absent : mark ∉ back) (nonempty : here ≠ []) :
    phrase? mark (here ++ back) = phrase? mark here := by
  obtain ⟨c, tail, rfl⟩ := List.exists_cons_of_ne_nil nonempty
  by_cases opens : c = mark
  · subst opens
    by_cases closed : c ∈ tail
    · obtain ⟨content, more, rfl, once⟩ := List.eq_append_cons_of_mem closed
      simp only [List.cons_append, List.append_assoc]
      rw [phrase?_closed once, phrase?_closed once more]
    · rw [List.cons_append, phrase?_unclosed closed, phrase?_unclosed]
      exact List.not_mem_append closed absent
  · rw [List.cons_append, phrase?_of_other opens, phrase?_of_other opens]

theorem phraseRule_append_of_not_mem {name : String} (absent : mark ∉ front)
    (suffix : here <:+ front) (nonempty : here ≠ []) (rest : List Char) :
    phraseRule mark name (here ++ rest) = none := by
  obtain ⟨c, tail, rfl⟩ := List.exists_cons_of_ne_nil nonempty
  have other : c ≠ mark := fun same => absent (suffix.subset (same ▸ List.mem_cons_self))
  rw [List.cons_append, phraseRule, phrase?_of_other other]
  rfl

theorem unused_phraseRule_of_not_mem (name : String) (absent : mark ∉ text) :
    Text.Unused (phraseRule mark name) text := by
  intro here suffix _
  rw [phraseRule, phrase?_eq_none fun member => absent (suffix.subset member)]
  rfl

theorem emphasisRule_append (absent : '_' ∉ back) (nonempty : here ≠ []) :
    emphasisRule (here ++ back) = emphasisRule here := by
  obtain ⟨c, tail, rfl⟩ := List.exists_cons_of_ne_nil nonempty
  rw [List.cons_append, emphasisRule, emphasisRule]
  cases tail with
  | nil =>
      rw [List.nil_append, phrase?_eq_none absent]
      rfl
  | cons d tail => rw [phrase?_append absent (List.cons_ne_nil d tail)]

theorem emphasisRule_of_other (other : rest.head? ≠ some '_') :
    emphasisRule (c :: rest) = none := by
  have none : phrase? '_' rest = none := by
    cases rest with
    | nil => rfl
    | cons d rest => exact phrase?_of_other (by simpa using other) rest
  rw [emphasisRule, none]
  exact ite_self _

/-! ## How often a character is written -/

theorem count_of_decimal {digits : List Char} (other : Text.isDecimalDigit sign = false)
    (decimal : ∀ digit ∈ digits, Text.isDecimalDigit digit = true) : digits.count sign = 0 :=
  List.count_eq_zero.mpr (Footnote.not_mem_of_decimal other decimal)

theorem count_substitute_footnoteRule
    (other : Text.isDecimalDigit sign = false ∧ sign ≠ '[' ∧ sign ≠ ']') (text : List Char) :
    (Text.substitute footnoteRule text).count sign =
      text.count sign +
        (footnoteReference []).count sign * (Text.uses footnoteRule text).length := by
  have each : Text.UsedAs footnoteRule fun taken written _ =>
      written.count sign + 0 = taken.count sign + (footnoteReference []).count sign := by
    refine usedAs_footnoteRule.imp fun taken written _ how => ?_
    obtain ⟨c, digits, decimal, rfl, rfl⟩ := how
    have number := count_of_decimal other.1 decimal
    unfold footnoteReference
    simp only [List.count_cons, List.count_append, List.count_nil, number, beq_iff_eq,
      if_neg other.2.1.symm, if_neg other.2.2.symm]
    omega
  have whole := each.count_substitute text
  rwa [Nat.zero_mul, Nat.add_zero] at whole

theorem count_substitute_linkRule (text : List Char) :
    (Text.substitute linkRule text).count sign +
        "\"\":".toList.count sign * (Text.uses linkRule text).length =
      text.count sign +
        ("<a href=\"".toList ++ "\">".toList ++ "</a>".toList).count sign *
          (Text.uses linkRule text).length := by
  refine (usedAs_linkRule.imp fun taken written _ how => ?_).count_substitute text
  obtain ⟨label, target, -, -, -, -, rfl, rfl⟩ := how
  have signs : "\"\":".toList.count sign =
      (['"'] : List Char).count sign + (['"'] : List Char).count sign + [':'].count sign := by
    rw [← List.count_append, ← List.count_append]
    rfl
  simp only [List.count_append, List.count_cons, List.count_nil, signs]
  omega

theorem count_element (name : String) (content : List Char) :
    (element name content).count sign = content.count sign + (element name []).count sign := by
  unfold element
  simp only [List.count_append, List.count_nil]
  omega

theorem count_substitute_phraseRule (mark : Char) (name : String) (text : List Char) :
    (Text.substitute (phraseRule mark name) text).count sign +
        [mark, mark].count sign * (Text.uses (phraseRule mark name) text).length =
      text.count sign +
        (element name []).count sign * (Text.uses (phraseRule mark name) text).length := by
  refine ((usedAs_phraseRule name).imp fun taken written _ how => ?_).count_substitute text
  obtain ⟨content, -, -, rfl, rfl⟩ := how
  rw [count_element]
  simp only [List.count_cons, List.count_append, List.count_nil]
  omega

theorem count_emphasise (text : List Char) :
    (emphasise text).count sign +
        ['_', '_'].count sign * (Text.uses emphasisRule (' ' :: text)).length =
      text.count sign +
        (element "em" []).count sign * (Text.uses emphasisRule (' ' :: text)).length := by
  have each : Text.UsedAs emphasisRule fun taken written _ =>
      written.count sign + ['_', '_'].count sign =
        taken.count sign + (element "em" []).count sign := by
    refine usedAs_emphasisRule.imp fun taken written _ how => ?_
    obtain ⟨c, content, -, -, -, rfl, rfl⟩ := how
    rw [List.count_cons, count_element]
    simp only [List.count_cons, List.count_append, List.count_nil]
    omega
  have whole := each.count_substitute (' ' :: text)
  have blank : ∀ rest : List Char,
      (' ' :: rest).count sign = rest.count sign + [' '].count sign := by
    intro rest
    rw [← List.singleton_append, List.count_append, Nat.add_comm]
  rw [← emphasise_eq, blank (emphasise text), blank text] at whole
  omega

theorem usedAs_restoreRule {contents : List (List Char)} :
    Text.UsedAs (restoreRule contents) fun taken written _ =>
      ∃ digits, (∀ digit ∈ digits, Text.isDecimalDigit digit = true) ∧
        taken = opener :: (digits ++ [closer]) ∧ written = filled contents digits := by
  intro text use used
  obtain ⟨digits, read, rfl⟩ := Option.map_eq_some_iff.mp used
  obtain ⟨decimal, rest, rfl⟩ := eq_append_of_standInDigits? read
  exact ⟨opener :: (digits ++ [closer]), rest, by simp, List.cons_ne_nil _ _, by simp, digits,
    decimal, rfl, rfl⟩

/-- Without spans each stand-in leaves nothing. -/
theorem count_restore_nil (other : Text.isDecimalDigit sign = false) (text : List Char) :
    (restore [] text).count sign +
        [opener, closer].count sign * (Text.uses (restoreRule []) text).length =
      text.count sign := by
  have each : Text.UsedAs (restoreRule []) fun taken written _ =>
      written.count sign + [opener, closer].count sign = taken.count sign + 0 := by
    refine usedAs_restoreRule.imp fun taken written _ how => ?_
    obtain ⟨digits, decimal, rfl, rfl⟩ := how
    have nothing : filled [] digits = [] := by simp [filled]
    have number := count_of_decimal other decimal
    rw [nothing]
    simp only [List.count_cons, List.count_append, List.count_nil, number]
    omega
  have whole := each.count_substitute text
  rwa [Nat.zero_mul, Nat.add_zero] at whole

end

end Bindery.Textile
