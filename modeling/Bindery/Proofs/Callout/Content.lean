import Bindery.Proofs.Callout.OneLine
import Bindery.Proofs.Html.LeadingContent

/-!
# The content of callouts

The content of a callout is read as a document of its own, and what stands in its body is kept.
Elements of the head that come first are put into the head, and so they are lost. All that follows
is kept in order.
-/

set_option autoImplicit false

namespace Bindery.Callout

variable {markup : Markup} {format : Format} {inset : List Char} {text html : String}

/-- The content of a callout is rendered, and what it is rendered to may stand in a body. -/
def HasFlow (markup : Markup) (format : Format) (inset : List Char) : Prop :=
  ∃ html, markup.render format (String.ofList (Inset.headerAndBody inset).2) = .ok html ∧
    Html.IsFlowContent html

theorem exists_renderCallout
    (content : markup.render format (String.ofList (Inset.headerAndBody inset).2) = .ok html)
    (flow : Html.IsFlowContent html) :
    ∃ children,
      renderCallout markup format inset = .ok (Inset.foldLines
        (container (className (Inset.headerAndBody inset).1) children).outer.toList) ∧
      (Html.laterContents html).Sublist (Html.Tree.itemsAll false children) ∧
      ((Html.documentContents html).Sublist (Html.Tree.itemsAll false children) ↔
        Html.leadingContents html = []) := by
  obtain ⟨body, children, read, kept, whole⟩ := Html.exists_body_of_isFlowContent flow
  refine ⟨children, ?_, kept, whole⟩
  unfold renderCallout
  dsimp only
  rw [content]
  dsimp only [bind, Except.bind]
  rw [read]
  rfl

/-- A callout of flow content keeps all that stands behind the elements of the head with which the
content begins, and it keeps all of the content exactly if there are none of them. -/
theorem render_keepsContent_iff
    (rendered : ∀ inset ∈ Inset.insets (Inset.cut marker text.toList),
      HasFlow markup format inset ∨ ∃ div, renderCallout markup format inset = .ok div) :
    ∃ write, render markup format text =
        .ok (String.ofList (Inset.splice marker write (Inset.cut marker text.toList))) ∧
      ∀ inset ∈ Inset.insets (Inset.cut marker text.toList), ∀ html,
        markup.render format (String.ofList (Inset.headerAndBody inset).2) = .ok html →
        Html.IsFlowContent html →
        ∃ children,
          write inset = Inset.foldLines
            (container (className (Inset.headerAndBody inset).1) children).outer.toList ∧
          (Html.laterContents html).Sublist (Html.Tree.itemsAll false children) ∧
          ((Html.documentContents html).Sublist (Html.Tree.itemsAll false children) ↔
            Html.leadingContents html = []) := by
  let write := fun inset => (renderCallout markup format inset).toOption.getD []
  have written : ∀ {inset div}, renderCallout markup format inset = .ok div →
      write inset = div := by
    intro inset div ran
    simp [write, ran, Except.toOption]
  have returns : ∀ inset ∈ Inset.insets (Inset.cut marker text.toList),
      renderCallout markup format inset = .ok (write inset) := by
    intro inset member
    rcases rendered inset member with ⟨html, content, flow⟩ | ⟨div, ran⟩
    · obtain ⟨children, ran, -⟩ := exists_renderCallout content flow
      rw [written ran, ran]
    · rw [written ran, ran]
  refine ⟨write, render_eq_ok_iff.mpr ⟨write, returns, String.toList_ofList⟩, ?_⟩
  intro inset _ html content flow
  obtain ⟨children, ran, kept⟩ := exists_renderCallout content flow
  exact ⟨children, written ran, kept⟩

/-- A line with a void element and a style, and a table. -/
def styledHtml : String :=
  "<p>x<br>y<style>p\x7b\x7d</style></p>\n<table><td>z</table>"

def styledInset : List Char := (" tip\n" ++ styledHtml).toList

def styledCallout : String := "&&& tip\n" ++ styledHtml ++ "&&&"

theorem render_keepsContent_styled :
    ∃ children, render .standard .html styledCallout =
        .ok (String.ofList (Inset.foldLines (container "tip" children).outer.toList)) ∧
      Html.documentContents styledHtml =
        [.element "p".toList [], .char 'x', .element "br".toList [], .char 'y',
          .element "style".toList [], .char 'p', .char '\x7b', .char '\x7d',
          .element "table".toList [], .element "td".toList [], .char 'z'] ∧
      (Html.documentContents styledHtml).Sublist (Html.Tree.itemsAll false children) := by
  have pieces : Inset.cut marker styledCallout.toList = [[], styledInset, []] := by decide +kernel
  have content : Markup.standard.render .html
      (String.ofList (Inset.headerAndBody styledInset).2) = .ok styledHtml := by decide +kernel
  have flow : Html.IsFlowContent styledHtml := by decide +kernel
  have named : className (Inset.headerAndBody styledInset).1 = "tip" := by decide +kernel
  have insets : Inset.insets (Inset.cut marker styledCallout.toList) = [styledInset] := by
    rw [pieces]
    rfl
  have flows : ∀ inset ∈ Inset.insets (Inset.cut marker styledCallout.toList),
      HasFlow .standard .html inset ∨ ∃ div, renderCallout .standard .html inset = .ok div := by
    rw [insets]
    exact List.forall_mem_singleton.mpr (.inl ⟨styledHtml, content, flow⟩)
  obtain ⟨write, rendered, each⟩ := render_keepsContent_iff flows
  obtain ⟨children, same, -, whole⟩ :=
    each styledInset (insets ▸ List.mem_singleton_self _) styledHtml content flow
  rw [named] at same
  refine ⟨children, ?_, by decide +kernel, whole.mpr (by decide +kernel)⟩
  rw [rendered, pieces, ← same]
  simp [Inset.splice, Inset.pieceWritten]

/-- A style that comes first is lost. -/
theorem render_loses_style :
    render .standard .html "&&&\n<style>p\x7b\x7d</style>x\n&&&" =
        .ok "<div class=\"callout\">x&#10;</div>" ∧
      Html.IsFlowContent "<style>p\x7b\x7d</style>x\n" ∧
      .element "style".toList [] ∈ Html.documentContents "<style>p\x7b\x7d</style>x\n" := by
  decide +kernel

end Bindery.Callout
