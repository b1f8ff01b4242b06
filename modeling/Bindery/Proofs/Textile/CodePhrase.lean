import Bindery.Proofs.Textile.Reach

/-!
# Code phrases

The rules within a line do not spare code. Footnote references and links are marked up
before it, strong phrases and emphasis behind it, and the stand-ins in it are taken away
in the end. So the content of a code phrase is shown as it is written exactly if none of
these rules finds anything in it.
-/

set_option autoImplicit false

namespace Bindery.Textile

/-- Nothing in the text is a sign for a rule within a line. -/
def IsInert (text : List Char) : Prop :=
  ∀ sign ∈ ['<', '"', '@', '*', '_', '[', opener], sign ∉ text

instance : DecidablePred IsInert := fun text =>
  inferInstanceAs (Decidable (∀ sign ∈ ['<', '"', '@', '*', '_', '[', opener], sign ∉ text))

/-- What can stand between the marks of a code phrase, without tags and references. -/
structure IsCode (code : List Char) : Prop where
  plain : ∀ sign ∈ ['@', '<', '&'], sign ∉ code
  first : ∀ c ∈ code.head?, Text.isBlank c = false
  last : ∀ c ∈ code.getLast?, Text.isBlank c = false

instance : DecidablePred IsCode := fun code =>
  decidable_of_iff ((∀ sign ∈ ['@', '<', '&'], sign ∉ code) ∧
      (∀ c ∈ code.head?, Text.isBlank c = false) ∧ ∀ c ∈ code.getLast?, Text.isBlank c = false)
    ⟨fun all => ⟨all.1, all.2.1, all.2.2⟩, fun own => ⟨own.plain, own.first, own.last⟩⟩

def escapeAngle (c : Char) : List Char := if c = '>' then "&gt;".toList else [c]

/-- The code as it is shown. -/
def escapedCode (code : List Char) : List Char := code.flatMap escapeAngle

/-- Code with its signs escaped. -/
structure IsContent (shown : List Char) : Prop where
  unmarked : '@' ∉ shown
  plain : '<' ∉ shown
  first : ∀ c ∈ shown.head?, Text.isBlank c = false
  last : ∀ c ∈ shown.getLast?, Text.isBlank c = false

/-- No other rule finds anything in the content of a code phrase. The mark before it can carry a
footnote reference, the mark behind it can be an address, and the tag before it leads emphasis. -/
structure Undisturbed (shown : List Char) : Prop where
  some : shown ≠ []
  references : Text.uses footnoteRule ('@' :: shown) = []
  links : Text.uses linkRule (shown ++ ['@']) = []
  strong : Text.uses (phraseRule '*' "strong") shown = []
  emphasis : Text.uses emphasisRule ('>' :: shown) = []
  standIns : standIns shown = []

instance : DecidablePred Undisturbed := fun shown =>
  decidable_of_iff (shown ≠ [] ∧ Text.uses footnoteRule ('@' :: shown) = [] ∧
      Text.uses linkRule (shown ++ ['@']) = [] ∧
      Text.uses (phraseRule '*' "strong") shown = [] ∧
      Text.uses emphasisRule ('>' :: shown) = [] ∧ standIns shown = [])
    ⟨fun all => ⟨all.1, all.2.1, all.2.2.1, all.2.2.2.1, all.2.2.2.2.1, all.2.2.2.2.2⟩,
      fun all => ⟨all.some, all.references, all.links, all.strong, all.emphasis, all.standIns⟩⟩

section

variable {text front back shown : List Char} {c sign : Char}

/-! ## A line with a code phrase -/

/-- A line with a code phrase, with its signs escaped. -/
def marked (front shown back : List Char) : List Char := front ++ '@' :: (shown ++ '@' :: back)

/-- The line with the phrase as code. -/
def withCode (front shown back : List Char) : List Char := front ++ (element "code" shown ++ back)

/-- A line as it is in the output of a text without spans. -/
def lineHtml (line : List Char) : List Char := restore [] (renderInline line)

theorem withCode_eq (front shown back : List Char) : withCode front shown back =
    (front ++ "<code>".toList) ++ (shown ++ ("</code>".toList ++ back)) := by
  unfold withCode element
  simp only [List.append_assoc]
  rfl

theorem head?_append_cons_ne (absent : sign ∉ front) (other : c ≠ sign) (rest : List Char) :
    (front ++ c :: rest).head? ≠ some sign := by
  cases front with
  | nil => simpa using other
  | cons d front =>
      rw [List.mem_cons, not_or] at absent
      simpa using Ne.symm absent.1

theorem unused_footnoteRule_marked_iff (before : '[' ∉ front) (behind : '[' ∉ back) :
    Text.Unused footnoteRule (marked front shown back) ↔
      Text.Unused footnoteRule ('@' :: shown) := by
  have whole : marked front shown back = front ++ ('@' :: shown ++ '@' :: back) := rfl
  rw [whole]
  refine Text.unused_between_iff ?_ ?_ ?_
  · intro here suffix some
    obtain ⟨c, tail, rfl⟩ := List.exists_cons_of_ne_nil some
    refine footnoteRule_of_other (head?_append_cons_ne (fun member => before ?_) (by decide) _)
    exact suffix.subset (List.mem_cons_of_mem c member)
  · intro here _ some
    rw [footnoteRule_append_cons (by decide) some]
  · exact unused_footnoteRule_of_not_mem (List.not_mem_cons_of_ne_of_not_mem (by decide) behind)

theorem unused_linkRule_marked_iff (before : '"' ∉ front) (behind : '"' ∉ back) :
    Text.Unused linkRule (marked front shown back) ↔ Text.Unused linkRule (shown ++ ['@']) := by
  have whole : marked front shown back = (front ++ ['@']) ++ ((shown ++ ['@']) ++ back) := by
    simp [marked]
  rw [whole]
  refine Text.unused_between_iff ?_ ?_ (unused_linkRule_of_not_mem behind)
  · intro here suffix some
    obtain ⟨c, tail, rfl⟩ := List.exists_cons_of_ne_nil some
    refine linkRule_of_other ?_ _
    rintro rfl
    have absent : '"' ∉ front ++ ['@'] := List.not_mem_append before (by decide)
    exact absent (suffix.subset List.mem_cons_self)
  · exact fun here suffix some => linkRule_append_iff behind suffix some

theorem unused_phraseRule_withCode_iff (before : '*' ∉ front) (behind : '*' ∉ back) :
    Text.Unused (phraseRule '*' "strong") (withCode front shown back) ↔
      Text.Unused (phraseRule '*' "strong") shown := by
  have front' : '*' ∉ front ++ "<code>".toList := List.not_mem_append before (by decide)
  have back' : '*' ∉ "</code>".toList ++ back := List.not_mem_append (by decide) behind
  rw [withCode_eq]
  refine Text.unused_between_iff ?_ ?_ (unused_phraseRule_of_not_mem "strong" back')
  · exact fun here suffix some => phraseRule_append_of_not_mem front' suffix some _
  · intro here _ some
    rw [phraseRule, phraseRule, phrase?_append back' some]

theorem unused_emphasisRule_withCode_iff (before : '_' ∉ front) (behind : '_' ∉ back) :
    Text.Unused emphasisRule (' ' :: withCode front shown back) ↔
      Text.Unused emphasisRule ('>' :: shown) := by
  have whole : ' ' :: withCode front shown back =
      (' ' :: (front ++ "<code".toList)) ++ (('>' :: shown) ++ ("</code>".toList ++ back)) := by
    have tag : "<code>".toList = "<code".toList ++ ['>'] := rfl
    rw [withCode_eq, tag]
    simp only [List.append_assoc, List.cons_append, List.nil_append]
  have front' : '_' ∉ ' ' :: (front ++ "<code".toList) :=
    List.not_mem_cons_of_ne_of_not_mem (by decide) (List.not_mem_append before (by decide))
  have back' : '_' ∉ "</code>".toList ++ back := List.not_mem_append (by decide) behind
  rw [whole]
  refine Text.unused_between_iff ?_ ?_ ?_
  · intro here suffix some
    obtain ⟨c, tail, rfl⟩ := List.exists_cons_of_ne_nil some
    refine emphasisRule_of_other (head?_append_cons_ne (fun member => front' ?_) (by decide) _)
    exact suffix.subset (List.mem_cons_of_mem c member)
  · intro here _ some
    rw [emphasisRule_append back' some]
  · intro here suffix some
    obtain ⟨c, tail, rfl⟩ := List.exists_cons_of_ne_nil some
    refine emphasisRule_of_other fun head => back' (suffix.subset ?_)
    exact List.mem_cons_of_mem c (List.mem_of_mem_head? head)

theorem unused_restoreRule_iff {contents : List (List Char)} :
    Text.Unused (restoreRule contents) text ↔ standIns text = [] := by
  induction text with
  | nil => exact iff_of_true (Text.unused_iff.mpr rfl) rfl
  | cons c rest ih =>
      rw [Text.unused_cons_iff, ih, standIns, List.append_eq_nil_iff, restoreRule,
        Option.map_eq_none_iff]
      cases standInDigits? (c :: rest) <;> simp

theorem standIns_withCode (before : opener ∉ front) (behind : opener ∉ back) :
    standIns (withCode front shown back) = standIns shown := by
  have front' : opener ∉ front ++ "<code>".toList := List.not_mem_append before (by decide)
  have back' : opener ∉ "</code>".toList ++ back := List.not_mem_append (by decide) behind
  have ends : ("</code>".toList ++ back).head?.all endsStandIn = true := by
    have angle : endsStandIn '<' = true := by decide
    exact angle
  rw [withCode_eq, standIns_append_of_not_mem front', standIns_append ends,
    standIns_of_not_mem back', List.append_nil]

theorem unused_code_of_empty (before : '@' ∉ front) (behind : '@' ∉ back) :
    Text.Unused (phraseRule '@' "code") (marked front [] back) := by
  have first : phrase? '@' ('@' :: '@' :: back) = none := by
    have closed : phrase? '@' ('@' :: ([] ++ '@' :: back)) = _ :=
      phrase?_closed List.not_mem_nil back
    exact closed
  refine Text.unused_append_iff.mpr ⟨?_, ?_⟩
  · exact fun here suffix some => phraseRule_append_of_not_mem before suffix some _
  · refine Text.unused_cons_iff.mpr ⟨?_, Text.unused_cons_iff.mpr ⟨?_, ?_⟩⟩
    · rw [phraseRule, List.nil_append, first]
      rfl
    · rw [phraseRule, phrase?_unclosed behind]
      rfl
    · exact unused_phraseRule_of_not_mem "code" behind

theorem substitute_code (content : IsContent shown) (nonempty : shown ≠ []) (before : '@' ∉ front)
    (behind : '@' ∉ back) :
    Text.substitute (phraseRule '@' "code") (marked front shown back) =
      withCode front shown back := by
  have unused : ∀ here, here <:+ front → here ≠ [] →
      phraseRule '@' "code" (here ++ '@' :: (shown ++ '@' :: back)) = none :=
    fun here suffix some => phraseRule_append_of_not_mem before suffix some _
  have whole : '@' :: (shown ++ '@' :: back) = '@' :: (shown ++ ['@']) ++ back := by simp
  have used : phraseRule '@' "code" ('@' :: (shown ++ ['@']) ++ back) =
      some (('@' :: (shown ++ ['@'])).length, element "code" shown) := by
    rw [← whole, phraseRule, phrase?_content content.unmarked nonempty content.first content.last]
    simp
  rw [marked, (Text.substitute_unused unused).1, whole,
    Text.substitute_taken (List.cons_ne_nil _ _) used,
    (unused_phraseRule_of_not_mem "code" behind).substitute_eq]
  rfl

/-- What the uses of the rules write and take, by a character. -/
theorem count_lineHtml (sign : Char)
    (other : Text.isDecimalDigit sign = false ∧ sign ≠ '[' ∧ sign ≠ ']') (line : List Char) :
    (lineHtml line).count sign +
        ("\"\":".toList.count sign * (Text.uses linkRule (noted line)).length +
          ['@', '@'].count sign * (Text.uses (phraseRule '@' "code") (linked line)).length +
          ['*', '*'].count sign * (Text.uses (phraseRule '*' "strong") (coded line)).length +
          ['_', '_'].count sign * (Text.uses emphasisRule (' ' :: strengthened line)).length +
          [opener, closer].count sign * (Text.uses (restoreRule []) (renderInline line)).length) =
      (escapeText line).count sign +
        ((footnoteReference []).count sign * (Text.uses footnoteRule (escapeText line)).length +
          ("<a href=\"".toList ++ "\">".toList ++ "</a>".toList).count sign *
            (Text.uses linkRule (noted line)).length +
          (element "code" []).count sign *
            (Text.uses (phraseRule '@' "code") (linked line)).length +
          (element "strong" []).count sign *
            (Text.uses (phraseRule '*' "strong") (coded line)).length +
          (element "em" []).count sign *
            (Text.uses emphasisRule (' ' :: strengthened line)).length) := by
  have references : (noted line).count sign = _ :=
    count_substitute_footnoteRule other (escapeText line)
  have links : (linked line).count sign + _ = _ := count_substitute_linkRule (noted line)
  have code : (coded line).count sign + _ = _ :=
    count_substitute_phraseRule '@' "code" (linked line)
  have strong : (strengthened line).count sign + _ = _ :=
    count_substitute_phraseRule '*' "strong" (coded line)
  have emphasis : (renderInline line).count sign + _ = _ := count_emphasise (strengthened line)
  have standIns : (lineHtml line).count sign + _ = _ :=
    count_restore_nil other.1 (renderInline line)
  omega

/-- The uses of the rules in a line, by the signs of their tags. -/
theorem angles_lineHtml (line : List Char) :
    (lineHtml line).count '<' = (escapeText line).count '<' +
      4 * (Text.uses footnoteRule (escapeText line)).length +
      2 * (Text.uses linkRule (noted line)).length +
      2 * (Text.uses (phraseRule '@' "code") (linked line)).length +
      2 * (Text.uses (phraseRule '*' "strong") (coded line)).length +
      2 * (Text.uses emphasisRule (' ' :: strengthened line)).length := by
  have whole := count_lineHtml '<' (by decide) line
  rw [show "\"\":".toList.count '<' = 0 by decide, show ['@', '@'].count '<' = 0 by decide,
    show ['*', '*'].count '<' = 0 by decide, show ['_', '_'].count '<' = 0 by decide,
    show [opener, closer].count '<' = 0 by decide,
    show (footnoteReference []).count '<' = 4 by decide,
    show ("<a href=\"".toList ++ "\">".toList ++ "</a>".toList).count '<' = 2 by decide,
    show (element "code" []).count '<' = 2 by decide,
    show (element "strong" []).count '<' = 2 by decide,
    show (element "em" []).count '<' = 2 by decide] at whole
  omega

/-- Only the rule for code takes its mark away. -/
theorem marks_lineHtml (line : List Char) :
    (lineHtml line).count '@' + 2 * (Text.uses (phraseRule '@' "code") (linked line)).length =
      (escapeText line).count '@' := by
  have whole := count_lineHtml '@' (by decide) line
  rw [show "\"\":".toList.count '@' = 0 by decide, show ['@', '@'].count '@' = 2 by decide,
    show ['*', '*'].count '@' = 0 by decide, show ['_', '_'].count '@' = 0 by decide,
    show [opener, closer].count '@' = 0 by decide,
    show (footnoteReference []).count '@' = 0 by decide,
    show ("<a href=\"".toList ++ "\">".toList ++ "</a>".toList).count '@' = 0 by decide,
    show (element "code" []).count '@' = 0 by decide,
    show (element "strong" []).count '@' = 0 by decide,
    show (element "em" []).count '@' = 0 by decide] at whole
  omega

theorem emphasise_of_unused (unused : Text.Unused emphasisRule (' ' :: text)) :
    emphasise text = text := by
  have whole := emphasise_eq text
  rw [unused.substitute_eq] at whole
  exact (List.cons.inj whole).2

/-- No rule but the one for code is used in the line with a code phrase. -/
structure OnlyCode (front shown back : List Char) : Prop where
  some : shown ≠ []
  references : Text.Unused footnoteRule (marked front shown back)
  links : Text.Unused linkRule (marked front shown back)
  strong : Text.Unused (phraseRule '*' "strong") (withCode front shown back)
  emphasis : Text.Unused emphasisRule (' ' :: withCode front shown back)
  standIns : Text.Unused (restoreRule []) (withCode front shown back)

theorem onlyCode_iff (before : IsInert front) (behind : IsInert back) :
    OnlyCode front shown back ↔ Undisturbed shown := by
  have references : Text.Unused footnoteRule (marked front shown back) ↔
      Text.uses footnoteRule ('@' :: shown) = [] :=
    (unused_footnoteRule_marked_iff (before '[' (by decide)) (behind '[' (by decide))).trans
      Text.unused_iff
  have links : Text.Unused linkRule (marked front shown back) ↔
      Text.uses linkRule (shown ++ ['@']) = [] :=
    (unused_linkRule_marked_iff (before '"' (by decide)) (behind '"' (by decide))).trans
      Text.unused_iff
  have strong : Text.Unused (phraseRule '*' "strong") (withCode front shown back) ↔
      Text.uses (phraseRule '*' "strong") shown = [] :=
    (unused_phraseRule_withCode_iff (before '*' (by decide)) (behind '*' (by decide))).trans
      Text.unused_iff
  have emphasis : Text.Unused emphasisRule (' ' :: withCode front shown back) ↔
      Text.uses emphasisRule ('>' :: shown) = [] :=
    (unused_emphasisRule_withCode_iff (before '_' (by decide)) (behind '_' (by decide))).trans
      Text.unused_iff
  have standIns :
      Text.Unused (restoreRule []) (withCode front shown back) ↔ standIns shown = [] := by
    rw [unused_restoreRule_iff,
      standIns_withCode (before opener (by decide)) (behind opener (by decide))]
  constructor
  · intro only
    exact ⟨only.some, references.mp only.references, links.mp only.links, strong.mp only.strong,
      emphasis.mp only.emphasis, standIns.mp only.standIns⟩
  · intro undisturbed
    exact ⟨undisturbed.some, references.mpr undisturbed.references, links.mpr undisturbed.links,
      strong.mpr undisturbed.strong, emphasis.mpr undisturbed.emphasis,
      standIns.mpr undisturbed.standIns⟩

section

variable {line : List Char} (escaped : escapeText line = marked front shown back)
  (own : IsContent shown) (before : '@' ∉ front) (behind : '@' ∉ back)

include escaped own before behind

theorem coded_eq (some : shown ≠ [])
    (references : Text.Unused footnoteRule (marked front shown back))
    (links : Text.Unused linkRule (marked front shown back)) :
    coded line = withCode front shown back := by
  rw [coded, linked, noted, escaped, references.substitute_eq, links.substitute_eq,
    substitute_code own some before behind]

theorem OnlyCode.lineHtml_eq (only : OnlyCode front shown back) :
    lineHtml line = withCode front shown back := by
  have coded := coded_eq escaped own before behind only.some only.references only.links
  have strengthened : strengthened line = withCode front shown back := by
    rw [Textile.strengthened, coded, only.strong.substitute_eq]
  change restore [] (emphasise (Textile.strengthened line)) = _
  rw [strengthened, emphasise_of_unused only.emphasis]
  exact only.standIns.substitute_eq

/-- The escaped line has no tag and two marks of code, and the line with the phrase as code has one
element and no mark. So the rule for code is used once, and there are no tags for another use. -/
theorem onlyCode_of_lineHtml (plain : '<' ∉ front ∧ '<' ∉ back)
    (shows : lineHtml line = withCode front shown back) : OnlyCode front shown back := by
  have angles := angles_lineHtml line
  have marks := marks_lineHtml line
  have tags : (element "code" []).count '<' = 2 ∧ (element "code" []).count '@' = 0 := by decide
  have angled : (withCode front shown back).count '<' = 2 := by
    rw [withCode, List.count_append, List.count_append, count_element, tags.1,
      List.count_eq_zero.mpr plain.1, List.count_eq_zero.mpr plain.2,
      List.count_eq_zero.mpr own.plain]
  have unmarked : (withCode front shown back).count '@' = 0 := by
    rw [withCode, List.count_append, List.count_append, count_element, tags.2,
      List.count_eq_zero.mpr before, List.count_eq_zero.mpr behind,
      List.count_eq_zero.mpr own.unmarked]
  have signs : (marked front shown back).count '@' = 2 := by
    rw [marked, List.count_append, List.count_cons_self, List.count_append, List.count_cons_self,
      List.count_eq_zero.mpr before, List.count_eq_zero.mpr behind,
      List.count_eq_zero.mpr own.unmarked]
  rw [shows, unmarked, escaped, signs] at marks
  rw [shows, angled] at angles
  have once : (Text.uses (phraseRule '@' "code") (linked line)).length = 1 := by omega
  have unused : ∀ {rule : Text.Rule} {stage : List Char}, (Text.uses rule stage).length = 0 →
      Text.Unused rule stage :=
    fun none => Text.unused_iff.mpr (List.length_eq_zero_iff.mp none)
  have references : Text.Unused footnoteRule (marked front shown back) := by
    rw [← escaped]
    exact unused (by omega)
  have noted : noted line = marked front shown back := by
    rw [Textile.noted, escaped, references.substitute_eq]
  have links : Text.Unused linkRule (marked front shown back) := by
    rw [← noted]
    exact unused (by omega)
  have linked : linked line = marked front shown back := by
    rw [Textile.linked, noted, links.substitute_eq]
  have some : shown ≠ [] := by
    rintro rfl
    rw [linked, Text.unused_iff.mp (unused_code_of_empty before behind)] at once
    cases once
  have coded := coded_eq escaped own before behind some references links
  have strong : Text.Unused (phraseRule '*' "strong") (withCode front shown back) := by
    rw [← coded]
    exact unused (by omega)
  have strengthened : strengthened line = withCode front shown back := by
    rw [Textile.strengthened, coded, strong.substitute_eq]
  have emphasis : Text.Unused emphasisRule (' ' :: withCode front shown back) := by
    rw [← strengthened]
    exact unused (by omega)
  refine ⟨some, references, links, strong, emphasis, unused ?_⟩
  -- Each stand-in that is taken away takes an opening character along.
  have rendered : renderInline line = withCode front shown back := by
    change emphasise (Textile.strengthened line) = _
    rw [strengthened, emphasise_of_unused emphasis]
  have taken : (lineHtml line).count opener + _ = _ :=
    count_restore_nil (by decide) (renderInline line)
  rw [shows, rendered, show [opener, closer].count opener = 1 by decide] at taken
  omega

end

/-- The content of a code phrase is shown as it is exactly if no other rule finds anything in it. -/
theorem lineHtml_eq_iff {line : List Char} (escaped : escapeText line = marked front shown back)
    (before : IsInert front) (behind : IsInert back) (own : IsContent shown) :
    lineHtml line = withCode front shown back ↔ Undisturbed shown := by
  have front' := before '@' (by decide)
  have back' := behind '@' (by decide)
  rw [← onlyCode_iff before behind]
  constructor
  · exact onlyCode_of_lineHtml escaped own front' back'
      ⟨before '<' (by decide), behind '<' (by decide)⟩
  · exact OnlyCode.lineHtml_eq escaped own front' back'

/-! ## Escaped code -/

theorem IsInert.escapeText (inert : IsInert text) : IsInert (escapeText text) := by
  have others : ∀ sign ∈ ['<', '"', '@', '*', '_', '[', opener], sign ∉ "&amp;&lt;&gt;".toList := by
    decide
  intro sign among member
  exact (mem_escapeText member).elim (inert sign among) (others sign among)

/-- Escaping goes on behind a mark of code as at the start of a text. -/
theorem escapeText_append_mark (plain : '<' ∉ text) (rest : List Char) :
    escapeText (text ++ '@' :: rest) = escapeText text ++ '@' :: escapeText rest := by
  have absent : ∀ reference, IsReference reference → '@' ∉ reference :=
    fun _ => not_mem_reference (by decide) (by decide) (by decide)
  have agrees : ∀ here, here <:+ text → here ≠ [] →
      escapeRule (here ++ '@' :: rest) = escapeRule here ∧
        ∀ use ∈ escapeRule here, use.1 ≤ here.length := by
    intro here suffix some
    obtain ⟨c, tail, rfl⟩ := List.exists_cons_of_ne_nil some
    have other : c ≠ '<' := fun same => plain (suffix.subset (same ▸ List.mem_cons_self))
    rw [escapeRule_of_unkept (keptLength?_of_head (by simpa using other)),
      escapeRule_of_unkept (keptLength?_of_head (by simpa using other))]
    exact escapeSign_append_cons absent some rest
  have kept : escapeRule ('@' :: rest) = none := by
    rw [escapeRule_of_unkept (keptLength?_of_head (by simp)),
      escapeSign_cons (referenceLength?_of_head (by simp))]
    rfl
  rw [escapeText_eq_substitute, escapeText_eq_substitute, escapeText_eq_substitute,
    Text.substitute, Text.substituteAfter_append_of_agrees (Nat.zero_le _) agrees,
    Text.substitute_kept kept]
  rfl

theorem escapeText_code {code : List Char} (tag : '<' ∉ code) (reference : '&' ∉ code) :
    escapeText code = escapedCode code := by
  rw [escapeText_eq_substitute]
  induction code with
  | nil => rfl
  | cons c rest ih =>
      rw [List.mem_cons, not_or] at tag reference
      have applied : escapeRule (c :: rest) =
          if escapedChar c = [c] then none else some (1, escapedChar c) := by
        rw [escapeRule_of_unkept (keptLength?_of_head (by simpa using Ne.symm tag.1)),
          escapeSign_cons (referenceLength?_of_head (by simpa using Ne.symm reference.1))]
      have same : escapedChar c = escapeAngle c := by
        rw [escapedChar, if_neg (Ne.symm reference.1), if_neg (Ne.symm tag.1), escapeAngle]
      rw [escapedCode, List.flatMap_cons, ← escapedCode, ← ih tag.2 reference.2, ← same]
      split at applied
      · next kept => rw [Text.substitute_kept applied, kept, List.singleton_append]
      · have written : Text.substitute escapeRule ([c] ++ rest) = _ :=
          Text.substitute_taken (List.cons_ne_nil c []) applied
        exact written

theorem mem_escapedCode {code : List Char} (member : sign ∈ escapedCode code) :
    sign ∈ code ∨ sign ∈ "&gt;".toList := by
  obtain ⟨c, among, inside⟩ := List.mem_flatMap.mp member
  unfold escapeAngle at inside
  split at inside
  · exact .inr inside
  · exact .inl (List.mem_singleton.mp inside ▸ among)

theorem isBlank_of_mem_escapeAngle (visible : Text.isBlank c = false)
    (member : sign ∈ escapeAngle c) : Text.isBlank sign = false := by
  unfold escapeAngle at member
  split at member
  · exact (by decide : ∀ sign ∈ "&gt;".toList, Text.isBlank sign = false) sign member
  · rwa [List.mem_singleton.mp member]

theorem escapeAngle_ne_nil (c : Char) : escapeAngle c ≠ [] := by
  unfold escapeAngle
  split
  · decide
  · exact List.cons_ne_nil c []

theorem IsCode.isContent {code : List Char} (own : IsCode code) : IsContent (escapedCode code) where
  unmarked member := (mem_escapedCode member).elim (own.plain '@' (by decide)) (by decide)
  plain member := (mem_escapedCode member).elim (own.plain '<' (by decide)) (by decide)
  first := by
    intro sign head
    cases code with
    | nil => cases head
    | cons c rest =>
        rw [escapedCode, List.flatMap_cons, List.head?_append_of_ne_nil _ (escapeAngle_ne_nil c)]
          at head
        exact isBlank_of_mem_escapeAngle (own.first c rfl) (List.mem_of_mem_head? head)
  last := by
    intro sign ends
    rcases List.eq_nil_or_concat code with rfl | ⟨front, c, rfl⟩
    · cases ends
    · rw [escapedCode, List.concat_eq_append, List.flatMap_append, List.flatMap_singleton,
        List.getLast?_append_of_ne_nil _ (escapeAngle_ne_nil c)] at ends
      exact isBlank_of_mem_escapeAngle (own.last c (by simp)) (List.mem_of_getLast? ends)

/-- The code phrase of a line is shown as it is written exactly if no other rule finds anything in
it. -/
theorem lineHtml_codePhrase_iff {before code after : List Char} (ahead : IsInert before)
    (behind : IsInert after) (own : IsCode code) :
    lineHtml (before ++ '@' :: (code ++ '@' :: after)) =
        escapeText before ++ (element "code" (escapedCode code) ++ escapeText after) ↔
      Undisturbed (escapedCode code) := by
  have code' : '<' ∉ code := own.plain '<' (by decide)
  refine lineHtml_eq_iff ?_ ahead.escapeText behind.escapeText own.isContent
  rw [escapeText_append_mark (ahead '<' (by decide)), escapeText_append_mark code',
    escapeText_code code' (own.plain '&' (by decide))]
  rfl

/-! ## Paragraphs -/

/-- A block as it is in the output of a text without spans. -/
def blockHtml (block : List Char) : List Char := restore [] (renderBlock block) ++ ['\n']

/-- The output of a text with something in the place of a line of one of its paragraphs. What is
given are the blocks before and behind the paragraph, and its lines above and below. -/
def outputAround (before behind above below : List (List Char)) (shown : List Char) : List Char :=
  before.flatMap blockHtml ++
    (element "p" (Text.join "<br />\n".toList
      (above.map lineHtml ++ shown :: below.map lineHtml)) ++ '\n' :: behind.flatMap blockHtml)

theorem IsSign.restore_append {contents : List (List Char)} {between : List Char}
    (signed : IsSign between) (text rest : List Char) :
    restore contents (text ++ (between ++ rest)) =
      restore contents text ++ (between ++ restore contents rest) := by
  rw [Textile.restore_append (head?_append_ends signed.ends rest),
    restore_append_of_not_mem (opener_not_mem_of_active signed.active)]

theorem restore_join {contents : List (List Char)} {separator : List Char}
    (signed : IsSign separator) (pieces : List (List Char)) :
    restore contents (Text.join separator pieces) =
      Text.join separator (pieces.map (restore contents)) := by
  induction pieces with
  | nil => rfl
  | cons piece pieces ih =>
      cases pieces with
      | nil => rw [List.map_singleton, Text.join, Text.join, List.intercalate_singleton,
          List.intercalate_singleton]
      | cons next pieces =>
          rw [Text.join, Text.join, List.map_cons] at ih
          rw [Text.join, Text.join, List.map_cons, List.map_cons, List.intercalate_cons_cons,
            List.intercalate_cons_cons, List.append_assoc, signed.restore_append, ih,
            List.append_assoc]

/-- The lines of a paragraph stand in the output one by one. -/
theorem restore_renderParagraph {contents : List (List Char)} (content : List Char) :
    restore contents (renderParagraph content) =
      element "p" (Text.join "<br />\n".toList
        ((Text.lines content).map fun line => restore contents (renderInline line))) := by
  have opens : opener ∉ "<p>".toList := by decide
  have closes : IsSign "</p>".toList := ⟨by decide, by decide⟩
  have breaks : IsSign "<br />\n".toList := ⟨by decide, by decide⟩
  have tags : ∀ inside, element "p" inside = "<p>".toList ++ (inside ++ ("</p>".toList ++ [])) := by
    intro inside
    rw [List.append_nil]
    exact element_eq "p" inside
  rw [renderParagraph, tags, tags, restore_append_of_not_mem opens, closes.restore_append,
    renderLines, restore_join breaks, List.map_map]
  rfl

theorem restore_renderBlocks (blocks : List (List Char)) :
    restore [] (blocks.flatMap fun block => renderBlock block ++ ['\n']) =
      blocks.flatMap blockHtml := by
  induction blocks with
  | nil => rfl
  | cons block blocks ih =>
      rw [List.flatMap_cons, List.flatMap_cons, List.append_assoc, isSign_lineFeed.restore_append,
        ih, blockHtml, List.append_assoc]

/-- One piece may be exchanged for another among joined pieces. -/
theorem exists_join_around (separator : List Char) (above below : List (List Char)) :
    ∃ front back, ∀ piece,
      Text.join separator (above ++ piece :: below) = front ++ (piece ++ back) := by
  obtain ⟨back, follows⟩ : ∃ back, ∀ piece,
      Text.join separator (piece :: below) = piece ++ back := by
    cases below with
    | nil => exact ⟨[], fun piece => by rw [Text.join, List.intercalate_singleton, List.append_nil]⟩
    | cons next below =>
        exact ⟨separator ++ Text.join separator (next :: below), fun piece => by
          rw [Text.join, List.intercalate_cons_cons, List.append_assoc]
          rfl⟩
  induction above with
  | nil => exact ⟨[], back, follows⟩
  | cons first above ih =>
      obtain ⟨front, back, whole⟩ := ih
      refine ⟨first ++ (separator ++ front), back, fun piece => ?_⟩
      obtain ⟨next, others, same⟩ := List.exists_cons_of_ne_nil
        (List.append_ne_nil_of_right_ne_nil above (List.cons_ne_nil piece below))
      have later := whole piece
      rw [same] at later
      rw [List.cons_append, same, Text.join, List.intercalate_cons_cons, List.append_assoc,
        List.append_assoc, List.append_assoc, ← later]
      rfl

theorem outputAround_inj {before behind above below : List (List Char)} {first second : List Char} :
    outputAround before behind above below first = outputAround before behind above below second ↔
      first = second := by
  obtain ⟨front, back, whole⟩ :=
    exists_join_around "<br />\n".toList (above.map lineHtml) (below.map lineHtml)
  simp only [outputAround, whole, element, List.append_assoc, List.append_cancel_left_eq,
    List.append_cancel_right_eq]

end

/-- The content of a code phrase in a line of a paragraph is shown as it is written, with its `>`
escaped, exactly if no other rule finds anything in it. -/
theorem render_codePhrase_iff {text : String} {block content before code after : List Char}
    {front back above below : List (List Char)} (unspanned : spans text.toList = [])
    (placed : blocks (lift (Text.unixEndings text.toList)) = front ++ block :: back)
    (paragraph : formOf block = .paragraph content)
    (phrased : Text.lines content = above ++ (before ++ '@' :: (code ++ '@' :: after)) :: below)
    (ahead : IsInert before) (behind : IsInert after) (own : IsCode code) :
    (render text).toList = outputAround front back above below
        (escapeText before ++ (element "code" (escapedCode code) ++ escapeText after)) ↔
      Undisturbed (escapedCode code) := by
  have output : (render text).toList = outputAround front back above below
      (lineHtml (before ++ '@' :: (code ++ '@' :: after))) := by
    have none : spans (Text.unixEndings text.toList) = [] := by
      rw [spans_unixEndings, unspanned, List.map_nil]
    have here : blockHtml block = element "p" (Text.join "<br />\n".toList
        (above.map lineHtml ++ lineHtml (before ++ '@' :: (code ++ '@' :: after)) ::
          below.map lineHtml)) ++ ['\n'] := by
      rw [blockHtml, renderBlock_eq, paragraph, BlockForm.render, restore_renderParagraph, phrased,
        List.map_append, List.map_cons]
      rfl
    rw [render, String.toList_ofList, renderChars, none, renderBlocks, restore_renderBlocks, placed,
      List.flatMap_append, List.flatMap_cons, here, List.append_assoc, outputAround]
    rfl
  rw [output, outputAround_inj, lineHtml_codePhrase_iff ahead behind own]

theorem render_codePhrase_comparison :
    IsCode "a > b".toList ∧ (render "If\nso, @a > b@ holds\n\nEnd").toList =
      outputAround [] ["End".toList] ["If".toList] [] (escapeText "so, ".toList ++
        (element "code" (escapedCode "a > b".toList) ++ escapeText " holds".toList)) := by
  have unspanned : spans "If\nso, @a > b@ holds\n\nEnd".toList = [] := by decide
  have placed : blocks (lift (Text.unixEndings "If\nso, @a > b@ holds\n\nEnd".toList)) =
      [] ++ "If\nso, @a > b@ holds".toList :: ["End".toList] := by decide +kernel
  have paragraph : formOf "If\nso, @a > b@ holds".toList =
      .paragraph "If\nso, @a > b@ holds".toList := by decide +kernel
  have phrased : Text.lines "If\nso, @a > b@ holds".toList = ["If".toList] ++
      ("so, ".toList ++ '@' :: ("a > b".toList ++ '@' :: " holds".toList)) :: [] := by decide
  have own : IsCode "a > b".toList := by decide
  refine ⟨own, ?_⟩
  exact (render_codePhrase_iff unspanned placed paragraph phrased (by decide) (by decide) own).mpr
    (by decide)

/-- A strong phrase is marked up within code. -/
theorem render_codePhrase_strong :
    IsCode "a *b* c".toList ∧ escapedCode "a *b* c".toList = "a *b* c".toList ∧
      render "@a *b* c@" = "<p><code>a <strong>b</strong> c</code></p>\n" ∧
      render "@a *b* c@" ≠ "<p><code>a *b* c</code></p>\n" := by
  decide +kernel

end Bindery.Textile
