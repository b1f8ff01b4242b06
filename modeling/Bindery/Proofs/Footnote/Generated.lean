import Bindery.Footnote.Reconcile
import Bindery.Proofs.Markdown.FootnoteMarkup
import Bindery.Proofs.Textile.FootnoteMarkup

/-!
# Generated markup

Markdown counts its notes and Textile takes the numbers from the text. So the ids
and links that Markdown writes take part in the numbering of a book as long as
there are numbers, and those that Textile writes exactly if the text spells each
number as the book would.
-/

set_option autoImplicit false

namespace Bindery.Footnote

/-- What Markdown writes for footnotes is recognised exactly if its labels are fewer than there are
numbers, and what Textile writes exactly if every number in the text is written with the digits of
a number in range. Outside alternative texts this markup stands in the result; a reference of
Textile does so unless a later rule takes what it has written for the end of a link. -/
theorem generated_markup_recognised_iff (text : String) :
    ((∀ markup, Markdown.WritesFootnote text markup → Recognised markup) ↔
      (Markdown.labelTable text).length < Marker.limit) ∧
    (∀ source markup, (source, .html markup) ∈ Markdown.linkedEvents text →
      markup <:+: (Markdown.render text).toList) ∧
    ((∀ markup, Textile.WritesFootnote text markup → Recognised markup) ↔
      ∀ number ∈ Textile.noteNumbers text ++ Textile.referenceNumbers text, Canonical number) ∧
    (∀ number ∈ Textile.noteNumbers text,
      Textile.noteOpening number <:+: (Textile.render text).toList) ∧
    (∀ phrase ∈ (Textile.forms text).flatMap Textile.BlockForm.phrases,
      ¬ Textile.linkSign <:+: Text.substitute Textile.footnoteRule (Textile.escapeText phrase) →
        ∀ number ∈ Textile.phraseReferences phrase,
          Textile.footnoteReference number <:+: (Textile.render text).toList) :=
  ⟨Markdown.writesFootnote_recognised_iff text, fun _ _ => Markdown.html_infix_render,
    Textile.writesFootnote_recognised_iff text, fun _ => Textile.noteOpening_infix_render,
    fun _ among unlinked _ => Textile.footnoteReference_infix_render among unlinked⟩

/-- A note and a reference with the number `01`: the book finds neither of them. -/
theorem leading_zero_unrecognised :
    let text := "See[01].\n\nfn01. Note."
    let html := "<p>See<sup class=\"footnote\" id=\"fnr01\"><a href=\"#fn01\">01</a></sup>.</p>\n" ++
      "<p class=\"footnote\" id=\"fn01\"><a href=\"#fnr01\"><sup>01</sup></a> Note.</p>\n"
    Textile.render text = html ∧
      Textile.WritesFootnote text (Textile.noteOpening ['0', '1']) ∧
      Textile.WritesFootnote text (Textile.footnoteReference ['0', '1']) ∧
      ¬ Recognised (Textile.noteOpening ['0', '1']) ∧
      ¬ Recognised (Textile.footnoteReference ['0', '1']) ∧
      reconcile html .start = .ok (⟨html, 0, 0⟩, .start) := by
  have decimal : ∀ digit ∈ ['0', '1'], Text.isDecimalDigit digit = true :=
    List.all_eq_true.mp (by decide)
  have other : ¬ Canonical ['0', '1'] := by
    rw [canonical_iff]
    decide
  refine ⟨by decide +kernel, .note (by decide +kernel), .reference (by decide +kernel), ?_, ?_,
    by decide +kernel⟩
  · rwa [Textile.recognised_noteOpening_iff decimal]
  · rwa [recognised_footnoteReference_iff decimal]

end Bindery.Footnote
