import Bindery.Proofs.Text.Substitution
import Bindery.Textile.Phrase

/-!
# Markup among the rules

Markup that an early rule has written is text for the rules that follow. Code,
strong phrases and emphasis pass it by if it holds none of their marks, and so
does the rule for links where no quotation mark stands before a colon.
-/

set_option autoImplicit false

namespace Bindery.Textile

section

variable {mark : Char} {markup : List Char}

/-- A phrase that begins before the markup ends before it or holds it whole. -/
theorem phrase?_reaches {before rest content : List Char} (absent : mark ∉ markup)
    (nonempty : markup ≠ []) (found : phrase? mark (before ++ (markup ++ rest)) = some content) :
    content.length + 2 ≤ before.length ∨ markup <:+: content := by
  have outside : ∀ c ∈ markup, (c != mark) = true := by
    intro c member
    exact bne_iff_ne.mpr fun same => absent (same ▸ member)
  cases before with
  | nil =>
      obtain ⟨c, tail, rfl⟩ := List.exists_cons_of_ne_nil nonempty
      have other := bne_iff_ne.mp (outside c List.mem_cons_self)
      rw [List.nil_append, List.cons_append, phrase?, if_neg other] at found
      cases found
  | cons c before =>
      rw [List.cons_append, phrase?] at found
      split at found
      · dsimp only at found
        split at found
        · cases found
        · split at found
          · split at found
            · cases found
            · obtain rfl := Option.some.inj found
              -- The content goes on up to the mark, and there is none in the markup.
              rw [List.takeWhile_append]
              split
              · right
                rw [List.takeWhile_append_of_pos outside]
                exact List.infix_append' _ _ _
              · next shorter =>
                  left
                  have bound := (List.takeWhile_prefix (l := before) (· != mark)).length_le
                  rw [List.length_cons]
                  omega
          · cases found
      · cases found

theorem infix_element {content : List Char} (name : String) (inside : markup <:+: content) :
    markup <:+: element name content := by
  refine inside.trans ⟨"<".toList ++ name.toList ++ ">".toList,
    "</".toList ++ name.toList ++ ">".toList, ?_⟩
  unfold element
  simp only [List.append_assoc]

theorem passesBy_phraseRule (name : String) (absent : mark ∉ markup) (nonempty : markup ≠ []) :
    Text.PassesBy (phraseRule mark name) markup where
  inside := by
    intro here rest suffix some use used
    obtain ⟨content, found, -⟩ := Option.map_eq_some_iff.mp used
    obtain ⟨c, tail, rfl⟩ := List.exists_cons_of_ne_nil some
    have other : c ≠ mark := fun same =>
      absent (suffix.subset (same ▸ List.mem_cons_self))
    rw [List.cons_append, phrase?, if_neg other] at found
    cases found
  reaching := by
    intro before rest _ use used
    obtain ⟨content, found, rfl⟩ := Option.map_eq_some_iff.mp used
    exact (phrase?_reaches absent nonempty found).imp_right (infix_element name)

theorem passesBy_emphasisRule (absent : '_' ∉ markup) (nonempty : markup ≠ []) :
    Text.PassesBy emphasisRule markup where
  inside := by
    intro here rest suffix some use used
    obtain ⟨c, tail, rfl⟩ := List.exists_cons_of_ne_nil some
    rw [List.cons_append, emphasisRule] at used
    split at used
    · -- The rule takes the character before a phrase along, here the last one of the markup.
      obtain ⟨content, found, rfl⟩ := Option.map_eq_some_iff.mp used
      cases tail with
      | nil => exact ⟨rfl, List.prefix_append [c] _⟩
      | cons d tail =>
          have other : d ≠ '_' := fun same =>
            absent (suffix.subset (same ▸ List.mem_cons_of_mem c List.mem_cons_self))
          rw [List.cons_append, phrase?, if_neg other] at found
          cases found
    · cases used
  reaching := by
    intro before rest some use used
    obtain ⟨c, before, rfl⟩ := List.exists_cons_of_ne_nil some
    rw [List.cons_append, emphasisRule] at used
    split at used
    · obtain ⟨content, found, rfl⟩ := Option.map_eq_some_iff.mp used
      refine (phrase?_reaches absent nonempty found).imp (fun short => ?_) fun inside =>
        List.infix_cons (infix_element "em" inside)
      rw [List.length_cons]
      exact Nat.succ_le_succ short
    · cases used

theorem infix_emphasise {text : List Char} (absent : '_' ∉ markup) (nonempty : markup ≠ [])
    (inside : markup <:+: text) : markup <:+: emphasise text := by
  have passes := passesBy_emphasisRule absent nonempty
  unfold emphasise
  split
  · next content found =>
      obtain ⟨before, rest, rfl⟩ := inside
      rw [List.append_assoc] at found ⊢
      rcases phrase?_reaches absent nonempty found with short | covers
      · rw [List.drop_append_of_le_length short]
        exact (passes.infix_substitute ⟨_, rest, List.append_assoc _ _ _⟩).trans
          (List.suffix_append _ _).isInfix
      · exact (infix_element "em" covers).trans (List.prefix_append _ _).isInfix
  · exact passes.infix_substitute inside

end

/-- The sign between the name of a link and its address. -/
def linkSign : List Char := ['"', ':']

theorem linkSign_infix_of_linkRule {text : List Char} {use : Nat × List Char}
    (used : linkRule text = some use) : linkSign <:+: text := by
  unfold linkRule at used
  split at used
  · next rest =>
      dsimp only at used
      split at used
      · next after found =>
          have whole := List.drop_suffix (rest.takeWhile (· != '"')).length rest
          rw [found] at whole
          exact List.infix_cons ((List.prefix_append linkSign after).isInfix.trans whole.isInfix)
      · cases used
  · cases used

/-- A text without the sign of a link gets none. -/
theorem substitute_linkRule_eq_self {text : List Char} (unlinked : ¬ linkSign <:+: text) :
    Text.substitute linkRule text = text := by
  refine Text.substitute_eq_self fun here suffix _ => ?_
  cases applied : linkRule here with
  | none => rfl
  | some use => exact absurd ((linkSign_infix_of_linkRule applied).trans suffix.isInfix) unlinked

theorem phrase?_eq_none {mark : Char} {text : List Char} (absent : mark ∉ text) :
    phrase? mark text = none := by
  cases text with
  | nil => rfl
  | cons c rest =>
      rw [List.mem_cons, not_or] at absent
      rw [phrase?, if_neg (Ne.symm absent.1)]

/-- A text without the mark has no phrases. -/
theorem substitute_phraseRule_eq_self {mark : Char} {text : List Char} (name : String)
    (absent : mark ∉ text) : Text.substitute (phraseRule mark name) text = text := by
  refine Text.substitute_eq_self fun here suffix _ => ?_
  rw [phraseRule, phrase?_eq_none fun member => absent (suffix.subset member)]
  rfl

theorem emphasise_eq_self {text : List Char} (absent : '_' ∉ text) : emphasise text = text := by
  rw [emphasise, phrase?_eq_none absent]
  refine Text.substitute_eq_self fun here suffix _ => ?_
  cases here with
  | nil => rfl
  | cons c rest =>
      have absent : '_' ∉ rest :=
        fun member => absent (suffix.subset (List.mem_cons_of_mem c member))
      rw [emphasisRule, phrase?_eq_none absent]
      exact ite_self none

/-- Markup of the footnote rule is found in the phrase as all rules leave it. -/
theorem infix_renderInline {markup phrase : List Char} (nonempty : markup ≠ [])
    (unmarked : '@' ∉ markup ∧ '*' ∉ markup ∧ '_' ∉ markup)
    (unlinked : ¬ linkSign <:+: Text.substitute footnoteRule (escapeText phrase))
    (inside : markup <:+: Text.substitute footnoteRule (escapeText phrase)) :
    markup <:+: renderInline phrase := by
  obtain ⟨code, strong, emphasis⟩ := unmarked
  unfold renderInline
  dsimp only
  rw [substitute_linkRule_eq_self unlinked]
  exact infix_emphasise emphasis nonempty
    ((passesBy_phraseRule "strong" strong nonempty).infix_substitute
      ((passesBy_phraseRule "code" code nonempty).infix_substitute inside))

end Bindery.Textile
