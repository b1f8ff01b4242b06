import Bindery.Proofs.Textile.FootnoteMarkup
import Bindery.Proofs.Textile.Nesting

/-!
# Links and references

A phrase without tags of its own is read as plain characters and references. A link
leaves the tags nested if it begins between tags and its address has no quotation
mark; its label then has no tags in it.
-/

set_option autoImplicit false

namespace Bindery.Textile

/-- A text of characters that are no signs of tags, and references. -/
inductive Noted : List Char → Prop where
  | nil : Noted []
  | plain {c : Char} {rest : List Char} (left : c ≠ '<') (right : c ≠ '>') (later : Noted rest) :
      Noted (c :: rest)
  | reference {digits rest : List Char}
      (decimal : ∀ digit ∈ digits, Text.isDecimalDigit digit = true) (later : Noted rest) :
      Noted (footnoteReference digits ++ rest)

/-- The address of the link at the start of a text. -/
def linkTarget (here : List Char) : List Char :=
  address ((here.tail.dropWhile (· != '"')).drop 2)

/-- The address of the link has no quotation mark. -/
def TargetUnquoted (here : List Char) : Prop := '"' ∉ linkTarget here

instance : DecidablePred TargetUnquoted := fun _ => inferInstanceAs (Decidable (¬ _))

/-- A reference up to its last quotation mark. -/
def referenceFront (digits : List Char) : List Char :=
  "<sup class=\"footnote\" id=\"fnr".toList ++ digits ++ "\"><a href=\"#fn".toList ++ digits

/-- A reference behind its last quotation mark. -/
def referenceBack (digits : List Char) : List Char := ">".toList ++ digits ++ "</a></sup>".toList

section

variable {text front rest label target digits : List Char} {c : Char} {names : List String}

theorem footnoteReference_eq (digits : List Char) :
    footnoteReference digits = referenceFront digits ++ '"' :: referenceBack digits := by
  unfold footnoteReference referenceFront referenceBack
  simp only [List.append_assoc]
  rfl

/-! ## Phrases without tags -/

theorem not_mem_substitute_escapeSign (text : List Char) :
    '<' ∉ Text.substitute escapeSign text ∧ '>' ∉ Text.substitute escapeSign text := by
  refine usedAs_escapeSign.induction
    (motive := fun _ written => '<' ∉ written ∧ '>' ∉ written) ?_ ?_ ?_ text
  · exact ⟨List.not_mem_nil, List.not_mem_nil⟩
  · intro c rest kept later
    have left : '<' ≠ c := by
      rintro rfl
      cases kept
    have right : '>' ≠ c := by
      rintro rfl
      cases kept
    exact ⟨List.not_mem_cons_of_ne_of_not_mem left later.1,
      List.not_mem_cons_of_ne_of_not_mem right later.2⟩
  · intro taken rest written _ how later
    exact ⟨List.not_mem_append (how.2 '<' (.inl rfl)) later.1,
      List.not_mem_append (how.2 '>' (.inr rfl)) later.2⟩

/-- No tag is kept in a text without the sign that opens tags. -/
theorem plain_of_mem_piecesAfter (plain : '<' ∉ text) (taken : Nat) :
    ∀ piece ∈ piecesAfter taken text, ∃ content, piece = .plain content := by
  induction text generalizing taken with
  | nil => cases taken <;> nofun
  | cons c rest ih =>
      rw [List.mem_cons, not_or] at plain
      cases taken with
      | succ taken => exact ih plain.2 taken
      | zero =>
          rw [piecesAfter]
          cases kept : keptLength? (c :: rest) with
          | some length =>
              exact absurd (Option.some.inj (endsTag_of_keptLength? kept).1).symm plain.1
          | none =>
              have later := ih plain.2 0
              dsimp only
              unfold addPlain
              split
              · next content others whole =>
                  rw [whole] at later
                  exact List.forall_mem_cons.mpr ⟨⟨_, rfl⟩, (List.forall_mem_cons.mp later).2⟩
              · exact List.forall_mem_cons.mpr ⟨⟨_, rfl⟩, later⟩

theorem not_mem_escapeText (plain : '<' ∉ text) :
    '<' ∉ escapeText text ∧ '>' ∉ escapeText text := by
  have each : ∀ piece ∈ pieces text, '<' ∉ piece.escape ∧ '>' ∉ piece.escape := by
    intro piece member
    obtain ⟨content, rfl⟩ := plain_of_mem_piecesAfter plain 0 piece member
    exact not_mem_substitute_escapeSign content
  constructor
  · intro member
    obtain ⟨piece, among, inside⟩ := List.mem_flatMap.mp member
    exact (each piece among).1 inside
  · intro member
    obtain ⟨piece, among, inside⟩ := List.mem_flatMap.mp member
    exact (each piece among).2 inside

theorem noted_substitute (plain : '<' ∉ text ∧ '>' ∉ text) :
    Noted (Text.substitute footnoteRule text) := by
  revert plain
  refine usedAs_footnoteRule.induction
    (motive := fun text written => '<' ∉ text ∧ '>' ∉ text → Noted written) ?_ ?_ ?_ text
  · exact fun _ => .nil
  · intro c rest _ later plain
    simp only [List.mem_cons, not_or] at plain
    exact .plain (Ne.symm plain.1.1) (Ne.symm plain.2.1) (later ⟨plain.1.2, plain.2.2⟩)
  · intro taken rest written _ how later plain
    obtain ⟨c, digits, decimal, rfl, rfl⟩ := how
    simp only [List.cons_append, List.mem_cons, List.mem_append, not_or] at plain
    exact .plain (Ne.symm plain.1.1) (Ne.symm plain.2.1)
      (.reference decimal (later ⟨plain.1.2.2.2, plain.2.2.2.2⟩))

theorem Noted.of_append (noted : Noted (front ++ rest)) (absent : '<' ∉ front) :
    '>' ∉ front ∧ Noted rest := by
  induction front with
  | nil => exact ⟨List.not_mem_nil, noted⟩
  | cons c front ih =>
      rw [List.mem_cons, not_or] at absent
      generalize whole : c :: front ++ rest = text at noted
      cases noted with
      | nil => cases whole
      | plain left right later =>
          obtain ⟨rfl, rfl⟩ := List.cons.inj whole
          obtain ⟨inside, behind⟩ := ih later absent.2
          exact ⟨List.not_mem_cons_of_ne_of_not_mem right.symm inside, behind⟩
      | reference decimal later => exact absurd (List.cons.inj whole).1.symm absent.1

/-- The label of a link that begins outside references has no tags in it. -/
theorem Noted.unmarked (noted : Noted (label ++ '"' :: ':' :: rest)) (unquoted : '"' ∉ label) :
    '<' ∉ label := by
  induction label with
  | nil => exact List.not_mem_nil
  | cons c label ih =>
      generalize whole : c :: label ++ '"' :: ':' :: rest = text at noted
      cases noted with
      | nil => cases whole
      | plain left right later =>
          obtain ⟨rfl, rfl⟩ := List.cons.inj whole
          rw [List.mem_cons, not_or] at unquoted
          exact List.not_mem_cons_of_ne_of_not_mem left.symm (ih later unquoted.2)
      | @reference digits behind decimal later =>
          -- The first quotation mark of a reference does not end a label.
          have first := Text.splitOnce_eq_some_iff.mpr ⟨whole.symm, unquoted⟩
          have quote : '"' ∉ "<sup class=".toList := by decide
          obtain ⟨more, start⟩ : "<sup class=\"footnote\" id=\"fnr".toList <+:
              footnoteReference digits ++ behind := by
            unfold footnoteReference
            simp only [List.append_assoc]
            exact List.prefix_append _ _
          have opening : "<sup class=\"footnote\" id=\"fnr".toList =
              "<sup class=".toList ++ '"' :: 'f' :: "ootnote\" id=\"fnr".toList := rfl
          rw [opening, List.append_assoc] at start
          rw [Text.splitOnce_eq_some_iff.mpr ⟨start.symm, quote⟩] at first
          cases first

/-! ## Reading a link -/

/-- Behind a value only a blank or the end of the tag leads on. -/
theorem run_behind_of_quote {place : Place} {name : List Char}
    (behind : place = .plain (.behind name) ∨ ∃ begun, place = .standing (.behind name) begun)
    (plain : ∀ c ∈ target, c ≠ '>' ∧ c ≠ ' ') (rest : List Char) :
    run pass place (target ++ '"' :: rest) = none := by
  have quote : Text.isDecimalDigit '"' = false ∧ '"' ≠ closer ∧ '"' ≠ opener := by decide
  induction target generalizing place with
  | nil =>
      have unread : pass place '"' = none := by
        obtain ⟨digit, notCloser, notOpener⟩ := quote
        rcases behind with rfl | ⟨begun, rfl⟩
        · simp [pass, step, notOpener]
        · simp [pass, digit, notCloser]
      rw [List.nil_append, run, unread]
      rfl
  | cons c target ih =>
      obtain ⟨here, others⟩ := List.forall_mem_cons.mp plain
      have stays : pass place c = none ∨ ∃ marks next, pass place c = some (marks, next) ∧
          (next = .plain (.behind name) ∨ ∃ begun, next = .standing (.behind name) begun) := by
        rcases behind with rfl | ⟨begun, rfl⟩
        · have strange : step (.behind name) c = none := by simp [step, here]
          rw [pass, strange]
          by_cases opens : c = opener
          · exact .inr ⟨[], _, if_pos opens, .inr ⟨false, rfl⟩⟩
          · exact .inl (if_neg opens)
        · rw [pass]
          by_cases digit : Text.isDecimalDigit c = true
          · exact .inr ⟨[], _, if_pos digit, .inr ⟨true, rfl⟩⟩
          · rw [if_neg digit]
            by_cases ends : begun = true ∧ c = closer
            · exact .inr ⟨[], _, if_pos ends, .inl rfl⟩
            · exact .inl (if_neg ends)
      rw [List.cons_append, run]
      rcases stays with unread | ⟨marks, next, read, within⟩
      · rw [unread]
        rfl
      · rw [read]
        dsimp only [bind, Option.bind]
        rw [ih within others]

/-- A quotation mark in the value of an attribute ends it too early. -/
theorem run_value_of_quote (quoted : '"' ∈ target)
    (plain : ∀ c ∈ target, c ≠ '<' ∧ c ≠ '>' ∧ c ≠ ' ') (name rest : List Char) :
    run pass (.plain (.value name)) (target ++ '"' :: rest) = none := by
  induction target with
  | nil => cases quoted
  | cons c target ih =>
      obtain ⟨here, others⟩ := List.forall_mem_cons.mp plain
      by_cases first : c = '"'
      · subst first
        have ends : pass (.plain (.value name)) '"' = some ([], .plain (.behind name)) := rfl
        rw [List.cons_append, run, ends]
        dsimp only [bind, Option.bind]
        rw [run_behind_of_quote (.inl rfl) fun c member => (others c member).2]
      · have inside := List.mem_of_ne_of_mem (Ne.symm first) quoted
        have stays : pass (.plain (.value name)) c = some ([], .plain (.value name)) := by
          apply pass_of_step
          simp [step, first, here]
        rw [List.cons_append, run_stay stays]
        exact ih inside others

theorem run_value (plain : ∀ c ∈ target, c ≠ '<' ∧ c ≠ '>') (unquoted : '"' ∉ target)
    (name : List Char) :
    run pass (.plain (.value name)) target = some ([], .plain (.value name)) := by
  refine run_of_stays fun c member => pass_of_step ?_
  have quote : c ≠ '"' := fun same => unquoted (same ▸ member)
  simp [step, quote, plain c member]

theorem run_plain (plain : ∀ c ∈ text, c ≠ '<' ∧ c ≠ '>') :
    run pass between text = some ([], between) := by
  refine run_of_stays fun c member => pass_of_step ?_
  simp [step, plain c member]

/-- A link is an element with one attribute. -/
theorem run_link (target' : ∀ c ∈ target, c ≠ '<' ∧ c ≠ '>') (unquoted : '"' ∉ target)
    (label' : ∀ c ∈ label, c ≠ '<' ∧ c ≠ '>') :
    run pass between ("<a href=\"".toList ++ target ++ "\">".toList ++ label ++ "</a>".toList) =
      some ([.start "a".toList, .finish "a".toList], between) := by
  have opens : run pass between "<a href=\"".toList =
      some ([], .plain (.value "a".toList)) := by decide
  have ends : run pass (.plain (.value "a".toList)) "\">".toList =
      some ([.start "a".toList], between) := by decide
  have closes : run pass between "</a>".toList = some ([.finish "a".toList], between) := by decide
  exact run_append (run_append (run_append (run_append opens (run_value target' unquoted _)) ends)
    (run_plain label')) closes

/-- A link with a quotation mark in its address cannot be read. -/
theorem run_link_of_quote (quoted : '"' ∈ target)
    (plain : ∀ c ∈ target, c ≠ '<' ∧ c ≠ '>' ∧ c ≠ ' ') (label rest : List Char) :
    run pass between
      ("<a href=\"".toList ++ target ++ "\">".toList ++ label ++ "</a>".toList ++ rest) = none := by
  have opens : run pass between "<a href=\"".toList =
      some ([], .plain (.value "a".toList)) := by decide
  have whole : "<a href=\"".toList ++ target ++ "\">".toList ++ label ++ "</a>".toList ++ rest =
      "<a href=\"".toList ++ (target ++ '"' :: ('>' :: (label ++ ("</a>".toList ++ rest)))) := by
    simp only [List.append_assoc]
    rfl
  rw [whole]
  exact run_append_of_none opens (run_value_of_quote quoted plain _ _)

theorem linkRule_of_other (other : c ≠ '"') (rest : List Char) : linkRule (c :: rest) = none := by
  unfold linkRule
  split
  · next whole => exact absurd (List.cons.inj whole).1 other
  · rfl

/-- No link begins before a quotation mark that ends a tag, unless there is a colon before it. -/
theorem linkRule_of_angle (colon : ':' ∉ front) (nonempty : front ≠ []) (rest : List Char) :
    linkRule (front ++ '"' :: '>' :: rest) = none := by
  cases used : linkRule (front ++ '"' :: '>' :: rest) with
  | none => rfl
  | some use =>
      obtain ⟨taken, behind, whole, -, -, label, target, -, unquoted, -, -, rfl, -⟩ :=
        usedAs_linkRule _ _ used
      obtain ⟨c, front, rfl⟩ := List.exists_cons_of_ne_nil nonempty
      rw [List.cons_append, List.cons_append, List.append_assoc, List.cons_append,
        List.cons_append] at whole
      rw [List.mem_cons, not_or] at colon
      -- The first quotation mark behind the start has no colon behind it.
      rcases List.append_eq_append_iff.mp (List.cons.inj whole).2 with
        ⟨middle, rfl, same⟩ | ⟨middle, rfl, same⟩
      · cases middle with
        | nil => cases same
        | cons d middle =>
            obtain ⟨rfl, -⟩ := List.cons.inj same
            exact absurd (List.mem_append_right _ List.mem_cons_self) unquoted
      · cases middle with
        | nil => cases same
        | cons d middle =>
            cases middle with
            | nil => cases same
            | cons e middle =>
                obtain ⟨rfl, -⟩ := List.cons.inj (List.cons.inj same).2
                exact absurd (by simp) colon.2

section

variable (decimal : ∀ digit ∈ digits, Text.isDecimalDigit digit = true)

include decimal

theorem plain_of_decimal :
    (∀ c ∈ digits, c ≠ '<' ∧ c ≠ '>') ∧ '"' ∉ digits ∧ ':' ∉ digits := by
  have other : ∀ sign, Text.isDecimalDigit sign = false → sign ∉ digits :=
    fun _ other => Footnote.not_mem_of_decimal other decimal
  refine ⟨fun c member => ⟨?_, ?_⟩, other '"' (by decide), other ':' (by decide)⟩
  · exact fun same => other '<' (by decide) (same ▸ member)
  · exact fun same => other '>' (by decide) (same ▸ member)

/-- The last quotation mark of a reference stands in a tag. -/
theorem run_referenceFront : run pass between (referenceFront digits) =
    some ([.start "sup".toList], .plain (.value "a".toList)) := by
  obtain ⟨plain, quote, -⟩ := plain_of_decimal decimal
  have opens : run pass between "<sup class=\"footnote\" id=\"fnr".toList =
      some ([], .plain (.value "sup".toList)) := by decide
  have link : run pass (.plain (.value "sup".toList)) "\"><a href=\"#fn".toList =
      some ([.start "sup".toList], .plain (.value "a".toList)) := by decide
  have number : ∀ name, run pass (.plain (.value name)) digits = some ([], .plain (.value name)) :=
    run_value plain quote
  exact run_append (run_append (run_append opens (number _)) link) (number _)

theorem run_footnoteReference : run pass between (footnoteReference digits) =
    some ([.start "sup".toList, .start "a".toList, .finish "a".toList, .finish "sup".toList],
      between) := by
  obtain ⟨plain, -, -⟩ := plain_of_decimal decimal
  have ends : run pass (.plain (.value "a".toList)) "\">".toList =
      some ([.start "a".toList], between) := by decide
  have closes : run pass between "</a></sup>".toList =
      some ([.finish "a".toList, .finish "sup".toList], between) := by decide
  have whole : footnoteReference digits =
      referenceFront digits ++ "\">".toList ++ digits ++ "</a></sup>".toList := rfl
  rw [whole]
  exact run_append (run_append (run_append (run_referenceFront decimal) ends) (run_plain plain))
    closes

/-- In a reference no link begins before its last quotation mark. -/
theorem substitute_referenceFront (rest : List Char) :
    Text.substitute linkRule (footnoteReference digits ++ rest) =
        referenceFront digits ++ Text.substitute linkRule ('"' :: (referenceBack digits ++ rest)) ∧
      Text.uses linkRule (footnoteReference digits ++ rest) =
        Text.uses linkRule ('"' :: (referenceBack digits ++ rest)) := by
  obtain ⟨-, -, colon⟩ := plain_of_decimal decimal
  have absent : ':' ∉ referenceFront digits := by
    unfold referenceFront
    refine List.not_mem_append (List.not_mem_append (List.not_mem_append ?_ colon) ?_) colon
    all_goals decide
  have angle : referenceBack digits = '>' :: (digits ++ "</a></sup>".toList) := rfl
  rw [footnoteReference_eq, List.append_assoc, List.cons_append, angle]
  refine Text.substitute_unused fun here suffix nonempty => ?_
  exact linkRule_of_angle (fun member => absent (suffix.subset member)) nonempty _

/-- Behind the last quotation mark of a reference no link begins in it. -/
theorem substitute_referenceBack (rest : List Char) :
    Text.substitute linkRule (referenceBack digits ++ rest) =
        referenceBack digits ++ Text.substitute linkRule rest ∧
      Text.uses linkRule (referenceBack digits ++ rest) = Text.uses linkRule rest := by
  obtain ⟨-, quote, -⟩ := plain_of_decimal decimal
  have absent : '"' ∉ referenceBack digits := by
    unfold referenceBack
    refine List.not_mem_append (List.not_mem_append ?_ quote) ?_
    all_goals decide
  refine Text.substitute_unused fun here suffix nonempty => ?_
  obtain ⟨d, tail, rfl⟩ := List.exists_cons_of_ne_nil nonempty
  exact linkRule_of_other (fun same => absent (suffix.subset (same ▸ List.mem_cons_self))) _

end

theorem linkTarget_taken (unquoted : '"' ∉ label) (found : address (target ++ rest) = target) :
    linkTarget ('"' :: (label ++ '"' :: ':' :: target) ++ rest) = target := by
  have others : ∀ c ∈ label, (c != '"') = true :=
    fun c member => bne_iff_ne.mpr fun same => unquoted (same ▸ member)
  have behind : (label ++ '"' :: ':' :: (target ++ rest)).dropWhile (· != '"') =
      '"' :: ':' :: (target ++ rest) := by
    rw [List.dropWhile_append_of_pos others, List.dropWhile_cons_of_neg (by simp)]
  have inside : label ++ '"' :: ':' :: target ++ rest =
      label ++ '"' :: ':' :: (target ++ rest) := by
    rw [List.append_assoc, List.cons_append, List.cons_append]
  rw [linkTarget, List.cons_append, List.tail_cons, inside, behind]
  exact found

/-- A link at the start of a text without tags of its own has none in what it takes. -/
theorem Noted.of_taken (noted : Noted ('"' :: (label ++ '"' :: ':' :: target) ++ rest))
    (unquoted : '"' ∉ label) (found : address (target ++ rest) = target) :
    (∀ c ∈ '"' :: (label ++ '"' :: ':' :: target), c ≠ '<' ∧ c ≠ '>') ∧ Noted rest := by
  have inside : '"' :: (label ++ '"' :: ':' :: target) ++ rest =
      ['"'] ++ (label ++ '"' :: ':' :: (target ++ rest)) := by
    rw [List.cons_append, List.append_assoc, List.cons_append, List.cons_append,
      List.singleton_append]
  have behind := noted
  rw [inside] at behind
  have label' := (behind.of_append (by decide)).2.unmarked unquoted
  have target' : '<' ∉ target := by
    intro member
    rw [← found] at member
    exact (mem_address member).2 rfl
  have left : '<' ∉ '"' :: (label ++ '"' :: ':' :: target) := by
    refine List.not_mem_cons_of_ne_of_not_mem (by decide) (List.not_mem_append label' ?_)
    exact List.not_mem_cons_of_ne_of_not_mem (by decide)
      (List.not_mem_cons_of_ne_of_not_mem (by decide) target')
  obtain ⟨right, later⟩ := noted.of_append left
  refine ⟨fun c member => ⟨?_, ?_⟩, later⟩
  · exact fun same => left (same ▸ member)
  · exact fun same => right (same ▸ member)

theorem tagged_kept (stays : pass between c = some ([], between))
    (kept : linkRule (c :: rest) = none)
    (later : TaggedBy ["a", "sup"] (Text.substitute linkRule rest)
      (UsedBetween linkRule 0 TargetUnquoted rest)) :
    TaggedBy ["a", "sup"] (Text.substitute linkRule (c :: rest))
      (UsedBetween linkRule 0 TargetUnquoted (c :: rest)) := by
  rw [Text.substitute_kept kept, taggedBy_of_stays stays]
  refine later.congr ?_
  rw [usedBetween_iff, usedBetween_iff, usedFrom_kept kept stays]

theorem tagged_taken (noted : Noted ('"' :: (label ++ '"' :: ':' :: target) ++ rest))
    (unquoted : '"' ∉ label) (found : address (target ++ rest) = target)
    (used : linkRule ('"' :: (label ++ '"' :: ':' :: target) ++ rest) =
      some (('"' :: (label ++ '"' :: ':' :: target)).length,
        "<a href=\"".toList ++ target ++ "\">".toList ++ label ++ "</a>".toList))
    (later : TaggedBy ["a", "sup"] (Text.substitute linkRule rest)
      (UsedBetween linkRule 0 TargetUnquoted rest)) :
    TaggedBy ["a", "sup"]
      (Text.substitute linkRule ('"' :: (label ++ '"' :: ':' :: target) ++ rest))
      (UsedBetween linkRule 0 TargetUnquoted ('"' :: (label ++ '"' :: ':' :: target) ++ rest)) := by
  obtain ⟨plain, -⟩ := noted.of_taken unquoted found
  have inLabel : ∀ c ∈ label, c ≠ '<' ∧ c ≠ '>' := fun c member => plain c (by simp [member])
  have inTarget : ∀ c ∈ target, c ≠ '<' ∧ c ≠ '>' := fun c member => plain c (by simp [member])
  have nonempty : '"' :: (label ++ '"' :: ':' :: target) ≠ [] := List.cons_ne_nil _ _
  have target' := linkTarget_taken unquoted found
  have conditions : UsedFrom between linkRule 0 TargetUnquoted
      ('"' :: (label ++ '"' :: ':' :: target) ++ rest) ↔ _ :=
    usedFrom_taken nonempty used (run_plain plain)
  rw [TargetUnquoted, target'] at conditions
  rw [Text.substitute_taken nonempty used]
  by_cases quoted : '"' ∈ target
  · have blank : ∀ c ∈ target, c ≠ '<' ∧ c ≠ '>' ∧ c ≠ ' ' := by
      intro c member
      refine ⟨(inTarget c member).1, (inTarget c member).2, ?_⟩
      rintro rfl
      rw [← found] at member
      exact absurd (mem_address member).1 (by decide)
    refine (taggedBy_of_unread (run_link_of_quote quoted blank label _)).congr
      (iff_of_false id fun proper => ?_)
    exact (conditions.mp (usedBetween_iff.mp proper)).1.2 quoted
  · have named : ∀ tag ∈ [Mark.start "a".toList, .finish "a".toList],
        ∃ name ∈ ["a", "sup"], tag.name = name.toList := by
      decide
    refine ((taggedBy_of_run (run_link inTarget quoted inLabel) rfl named).append later).congr ?_
    rw [true_and, usedBetween_iff, usedBetween_iff, conditions]
    have start : LeadsBetween between (('"' :: (label ++ '"' :: ':' :: target) ++ rest).take 0) :=
      ⟨[], rfl⟩
    exact (and_iff_right ⟨start, quoted⟩).symm

theorem tagged_reference_kept (decimal : ∀ digit ∈ digits, Text.isDecimalDigit digit = true)
    (unused : linkRule ('"' :: (referenceBack digits ++ rest)) = none)
    (later : TaggedBy ["a", "sup"] (Text.substitute linkRule rest)
      (UsedBetween linkRule 0 TargetUnquoted rest)) :
    TaggedBy ["a", "sup"] (Text.substitute linkRule (footnoteReference digits ++ rest))
      (UsedBetween linkRule 0 TargetUnquoted (footnoteReference digits ++ rest)) := by
  obtain ⟨front, frontUses⟩ := substitute_referenceFront decimal rest
  obtain ⟨back, backUses⟩ := substitute_referenceBack decimal rest
  have same : Text.substitute linkRule (footnoteReference digits ++ rest) =
      footnoteReference digits ++ Text.substitute linkRule rest := by
    rw [front, Text.substitute_kept unused, back, footnoteReference_eq, List.append_assoc,
      List.cons_append]
  have uses : Text.uses linkRule (footnoteReference digits ++ rest) = Text.uses linkRule rest := by
    rw [frontUses, Text.uses_kept unused, backUses]
  have named : ∀ tag ∈ [Mark.start "sup".toList, .start "a".toList, .finish "a".toList,
      .finish "sup".toList], ∃ name ∈ ["a", "sup"], tag.name = name.toList := by
    decide
  rw [same]
  refine ((taggedBy_of_run (run_footnoteReference decimal) rfl named).append later).congr ?_
  rw [true_and, usedBetween_iff, usedBetween_iff,
    usedFrom_unused uses (run_footnoteReference decimal)]

/-- A link that begins at the last quotation mark of a reference begins in a tag. -/
theorem tagged_reference_used {use : Nat × List Char}
    (decimal : ∀ digit ∈ digits, Text.isDecimalDigit digit = true)
    (used : linkRule ('"' :: (referenceBack digits ++ rest)) = some use) :
    TaggedBy names (Text.substitute linkRule (footnoteReference digits ++ rest))
      (UsedBetween linkRule 0 TargetUnquoted (footnoteReference digits ++ rest)) := by
  obtain ⟨front, frontUses⟩ := substitute_referenceFront decimal rest
  obtain ⟨taken, behind, -, -, -, label, target, -, -, -, -, -, written⟩ := usedAs_linkRule _ _ used
  obtain ⟨tail, angle⟩ : ∃ tail, Text.substitute linkRule
      ('"' :: (referenceBack digits ++ rest)) = '<' :: tail := by
    rw [Text.substitute, Text.substituteAfter, used]
    dsimp only
    rw [written]
    exact ⟨_, rfl⟩
  have unread : run pass (.plain (.value "a".toList)) ('<' :: tail) = none := by
    cases read : run pass (.plain (.value "a".toList)) ('<' :: tail) with
    | none => rfl
    | some read => cases eq_between_of_run read
  rw [front, angle]
  refine (taggedBy_of_unread (run_append_of_none (run_referenceFront decimal) unread)).congr
    (iff_of_false id fun proper => ?_)
  have first := Text.mem_uses_self (List.cons_ne_nil _ _) used
  have begins := (usedBetween_iff.mp proper _ (frontUses ▸ first)).1
  rw [footnoteReference_eq, List.append_assoc, List.cons_append, Text.ahead_append, List.take_zero,
    List.append_nil] at begins
  obtain ⟨marks, again⟩ := begins
  rw [run_referenceFront decimal] at again
  cases again

theorem tagged_reference (decimal : ∀ digit ∈ digits, Text.isDecimalDigit digit = true)
    (later : TaggedBy ["a", "sup"] (Text.substitute linkRule rest)
      (UsedBetween linkRule 0 TargetUnquoted rest)) :
    TaggedBy ["a", "sup"] (Text.substitute linkRule (footnoteReference digits ++ rest))
      (UsedBetween linkRule 0 TargetUnquoted (footnoteReference digits ++ rest)) := by
  cases used : linkRule ('"' :: (referenceBack digits ++ rest)) with
  | none => exact tagged_reference_kept decimal used later
  | some use => exact tagged_reference_used decimal used

/-- The rule for links leaves tags nested exactly if each link begins between tags and its address
has no quotation mark. -/
theorem tagged_substitute_linkRule (noted : Noted text) :
    TaggedBy ["a", "sup"] (Text.substitute linkRule text)
      (UsedBetween linkRule 0 TargetUnquoted text) := by
  induction length : text.length using Nat.strong_induction_on generalizing text with
  | _ length ih =>
      subst length
      cases id noted with
      | nil =>
          have none : ∀ tag ∈ ([] : List Mark), ∃ name ∈ ["a", "sup"], tag.name = name.toList :=
            fun _ member => absurd member List.not_mem_nil
          exact (taggedBy_of_run rfl rfl none).congr (iff_of_true trivial nofun)
      | @plain c rest left right later =>
          have stays : pass between c = some ([], between) := by
            apply pass_of_step
            rw [step, if_neg left, if_neg right]
          cases used : linkRule (c :: rest) with
          | none => exact tagged_kept stays used (ih _ (Nat.lt_succ_self _) later rfl)
          | some use =>
              obtain ⟨taken, behind, whole, -, count, label, target, -, unquoted, -, found, rfl,
                written⟩ := usedAs_linkRule _ _ used
              rw [List.cons_append] at whole
              obtain ⟨rfl, rfl⟩ := List.cons.inj whole
              have behind' := (noted.of_taken unquoted found).2
              refine tagged_taken noted unquoted found
                (used.trans (congrArg some (Prod.ext count written))) (ih _ ?_ behind' rfl)
              simp only [List.length_cons, List.length_append]
              omega
      | @reference digits rest decimal later =>
          refine tagged_reference decimal (ih rest.length ?_ later rfl)
          have some : 0 < (footnoteReference digits).length := Nat.succ_pos _
          rw [List.length_append]
          omega

end

end Bindery.Textile
