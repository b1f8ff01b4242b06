import Bindery.Chapter
import Bindery.Proofs.Splicing
import Bindery.Proofs.Textile.Block

/-!
# Callouts in the outer pass

A callout is rendered on its own, and then the text around it is rendered with
the callout in it. Textile leaves the callout alone if the block it is in begins
with markup, as it does when the callout is the first thing in the block. Below a
line of prose the callout is part of a paragraph, and the rules within a line
are applied to it once more.
-/

set_option autoImplicit false

namespace Bindery

namespace Callout

/-! ## The element of a callout -/

def opening : List Char := "<div ".toList

def closing : List Char := "</div>".toList

/-- The element of a callout stands between a start tag and an end tag. -/
theorem outer_container (name : String) (children : List Html.Node) :
    ∃ inside, (container name children).outer.toList = opening ++ (inside ++ closing) := by
  obtain ⟨tag, same, division, named, first, others, attributes⟩ : ∃ tag : Html.Element,
      container name children = .element tag children ∧ tag.isVoid = false ∧ tag.name = "div" ∧
        ∃ first others, tag.attributes = first :: others := by
    unfold container
    dsimp only
    split
    · exact ⟨_, rfl, rfl, rfl, _, _, rfl⟩
    · exact ⟨_, rfl, rfl, rfl, _, _, rfl⟩
  have opened : opening = "<".toList ++ ("div".toList ++ " ".toList) := by decide
  have closed : closing = "</".toList ++ ("div".toList ++ ">".toList) := by decide
  let content := Html.Tree.writeAll ⟨tag.isVerbatim, false || tag.isVoid⟩ children
  refine ⟨first.writtenName.toList ++ ("=\"".toList ++ ((Html.escapeValue first.value).toList ++
    ("\"".toList ++ ((others.map Html.Attribute.write).flatMap String.toList ++
      (">".toList ++ content.toList))))), ?_⟩
  rw [same, opened, closed, Html.Tree.outer, Html.Tree.write]
  simp only [Html.Surroundings.outside, division, Html.Element.startTag, Html.Element.endTag, named,
    attributes, Html.Attribute.write, Bool.false_eq_true, if_false, Bool.or_false,
    String.toList_append, String.toList_join, List.map_cons, List.flatMap_cons, List.append_assoc,
    content]

/-- One line that stands between the tags of an element. -/
structure Line (div : List Char) : Prop where
  plain : '\n' ∉ div
  tags : ∃ inside, div = opening ++ (inside ++ closing)

/-- A callout is one line between the tags of its element. -/
theorem line_of_renderCallout {markup : Markup} {format : Format} {inset div : List Char}
    (rendered : renderCallout markup format inset = .ok div) : Line div := by
  obtain ⟨name, children, rfl⟩ : ∃ name children,
      div = Inset.foldLines (container name children).outer.toList := by
    unfold renderCallout at rendered
    obtain ⟨content, -, rendered⟩ := bind_eq_ok rendered
    split at rendered
    · cases rendered
    · cases rendered
      exact ⟨_, _, rfl⟩
  obtain ⟨inside, whole⟩ := outer_container name children
  have first : Inset.foldLines opening = opening := by decide
  have last : Inset.foldLines closing = closing := by decide
  refine ⟨Inset.lineFeed_not_mem_foldLines _, Inset.foldLines inside, ?_⟩
  rw [whole, Inset.foldLines_append (.inl (by decide)),
    Inset.foldLines_append (.inr (by decide)), first, last]

/-! ## The text around a callout -/

section

variable {div : List Char} (line : Line div)

include line

theorem Line.head?_eq (after : List Char) : (div ++ after).head? = some '<' := by
  obtain ⟨inside, rfl⟩ := line.tags
  rfl

theorem Line.getLast?_eq : div.getLast? = some '>' := by
  obtain ⟨inside, rfl⟩ := line.tags
  have last : closing.getLast? = some '>' := by decide
  rw [← List.append_assoc, List.getLast?_append_of_ne_nil _ (by decide), last]

theorem Line.isMarkup_of_blank {lead : List Char} (blank : Text.allBlank lead = true) :
    Textile.isMarkup (Text.trimStart (lead ++ div)) = true := by
  obtain ⟨inside, rfl⟩ := line.tags
  have trimmed : Text.trimStart (lead ++ (opening ++ (inside ++ closing))) =
      Text.trimStart (opening ++ (inside ++ closing)) :=
    List.dropWhile_append_of_pos (List.all_eq_true.mp blank)
  have tag : Textile.isMarkup opening = true := by decide
  have space : ' ' ∈ opening := by decide
  rw [trimmed]
  exact Textile.isMarkup_trimStart_of_opening _ tag rfl space

theorem Line.unixEndings_around (before after : List Char) :
    Text.unixEndings (before ++ (div ++ after)) =
      Text.unixEndings before ++ (div ++ Text.unixEndings after) := by
  have start : (div ++ after).head? ≠ some '\n' := by
    rw [line.head?_eq]
    decide
  have finish : div.getLast? ≠ some '\r' := by
    rw [line.getLast?_eq]
    decide
  rw [Text.unixEndings_append (.inr start), Text.unixEndings_append (.inl finish),
    Text.unixEndings_eq_self line.plain]

/-- Spans are taken out of the text before a callout and of the text behind it. -/
theorem Line.lift_around {before : List Char}
    (closed : Textile.SpansClosed (Text.unixEndings before))
    (unopened : ¬ Textile.spanOpening <:+: div) (after : List Char) :
    ∃ index, Textile.lift (Text.unixEndings (before ++ (div ++ after))) =
      Textile.lift (Text.unixEndings before) ++
        (div ++ Textile.liftAfter 0 index (Text.unixEndings after)) :=
  ⟨_, by
    rw [line.unixEndings_around, Textile.lift, Textile.liftAfter_append (Nat.zero_le _)
        (Textile.opensWithin_of_head (line.head?_eq _)) closed,
      Textile.liftAfter_append_of_unopened (Textile.opensWithin_of_last line.getLast?_eq) unopened]
    rfl⟩

theorem Line.renderBlock_eq_self_iff (lead rest : List Char) :
    Textile.renderBlock (lead ++ div ++ rest) = lead ++ div ++ rest ↔
      Textile.isMarkup (Text.trimStart (lead ++ div)) = true := by
  have visible : Text.isBlank '<' = false ∧ Text.isBlank '>' = false := by decide
  have first : '<' ∈ lead ++ div :=
    List.mem_append_right _ (List.mem_of_mem_head? (List.append_nil div ▸ line.head?_eq []))
  have last : '>' ∈ Text.trimStart (lead ++ div) :=
    Text.mem_trimStart (List.mem_append_right _ (List.mem_of_getLast? line.getLast?_eq)) visible.2
  have shown : Text.allBlank (lead ++ div) = false := by
    rw [Text.allBlank, List.all_eq_false]
    exact ⟨'<', first, by simp [visible.1]⟩
  have whole := Text.mem_trimStart (List.mem_append_left rest first) visible.1
  have standing : Textile.isStandIn (Text.trimStart (lead ++ div ++ rest)) ≠ true :=
    fun passed => Textile.not_mem_of_isStandIn passed whole
  rw [Textile.renderBlock_eq_self_iff, Textile.formOf_eq_kept_iff, or_iff_right standing,
    Text.trimStart_append rest shown, Textile.isMarkup_append rest rfl last]

/-- The block that a callout is in: it begins where the last block does when the text ends with the
callout, and it stays as it is exactly if it begins with markup. -/
theorem Line.exists_block {before : List Char}
    (closed : Textile.SpansClosed (Text.unixEndings before))
    (unopened : ¬ Textile.spanOpening <:+: div) (after : List Char) :
    ∃ lead rest,
      (Textile.blocks (Textile.lift (Text.unixEndings (before ++ div)))).getLast? =
        some (lead ++ div) ∧
      lead ++ div ++ rest ∈
        Textile.blocks (Textile.lift (Text.unixEndings (before ++ (div ++ after)))) ∧
      (Textile.renderBlock (lead ++ div ++ rest) = lead ++ div ++ rest ↔
        Textile.isMarkup (Text.trimStart (lead ++ div)) = true) := by
  obtain ⟨index, lifted⟩ := line.lift_around closed unopened after
  -- The text that ends with the callout is taken apart in the same way.
  obtain ⟨_, alone⟩ := line.lift_around closed unopened []
  rw [List.append_nil] at alone
  have tag : '<' ∈ div := List.mem_of_mem_head? (List.append_nil div ▸ line.head?_eq [])
  obtain ⟨lead, rest, last, among⟩ := Textile.exists_block_around
    (Textile.lift (Text.unixEndings before)) (Textile.liftAfter 0 index (Text.unixEndings after))
    line.plain tag line.getLast?_eq
  refine ⟨lead, rest, ?_, ?_, line.renderBlock_eq_self_iff lead rest⟩
  · rw [alone]
    simpa [Text.unixEndings, Textile.liftAfter] using last
  · rwa [lifted]

theorem Line.infix_render {block : List Char} {text : String} (own : Textile.opener ∉ div)
    (among : block ∈ Textile.blocks (Textile.lift (Text.unixEndings text.toList)))
    (inside : div <:+: block) (same : Textile.renderBlock block = block) :
    div <:+: (Textile.render text).toList := by
  have start : div.head?.any Textile.endsStandIn = true := by
    have first := line.head?_eq []
    rw [List.append_nil] at first
    rw [first]
    decide
  exact Textile.infix_render own start among (same.symm ▸ inside)

end

/-- The spans of the text before a callout end there, and the callout itself holds nothing that is
taken out or put in. -/
structure Apart (before div : List Char) : Prop where
  closed : Textile.SpansClosed (Text.unixEndings before)
  unopened : ¬ Textile.spanOpening <:+: div
  own : Textile.opener ∉ div

/-- What the outer pass does to a callout. The callout is in the block that begins with `lead`; the
block stays as it is exactly if it begins with markup, and then the callout stands in the result.
That is so when only blanks are before the callout in its block. -/
def LeftToBlock (before div after html : List Char) : Prop :=
  ∃ lead rest,
    (Textile.blocks (Textile.lift (Text.unixEndings (before ++ div)))).getLast? =
      some (lead ++ div) ∧
    lead ++ div ++ rest ∈
      Textile.blocks (Textile.lift (Text.unixEndings (before ++ (div ++ after)))) ∧
    (Textile.renderBlock (lead ++ div ++ rest) = lead ++ div ++ rest ↔
      Textile.isMarkup (Text.trimStart (lead ++ div)) = true) ∧
    (Textile.isMarkup (Text.trimStart (lead ++ div)) = true → div <:+: html) ∧
    (Text.allBlank lead = true → Textile.isMarkup (Text.trimStart (lead ++ div)) = true)

theorem Line.leftToBlock {before div : List Char} (line : Line div) (apart : Apart before div)
    (after : List Char) :
    LeftToBlock before div after
      (Textile.render (String.ofList (before ++ (div ++ after)))).toList := by
  obtain ⟨lead, rest, last, among, same⟩ := line.exists_block apart.closed apart.unopened after
  refine ⟨lead, rest, last, among, same, fun markup => ?_, line.isMarkup_of_blank⟩
  refine line.infix_render apart.own ?_ (List.infix_append lead div rest) (same.mpr markup)
  rwa [String.toList_ofList]

end Callout

/-- Every callout of a Textile text is left to the block that it is in by the pass over the text
around it, unless it takes part in the passing through of spans. -/
theorem Pipeline.renderText_leftToBlock {pipeline : Pipeline} {plain : Bool} {text html : String}
    {above below : List Inset.Part} {inset : List Char}
    (engine : pipeline.markup.textile = Markup.standard.textile)
    (stands : Inset.parts Callout.marker (pipeline.snippets.render .textile plain text).toList =
      above ++ .inset inset :: below)
    (rendered : pipeline.renderText plain .textile text = .ok html) :
    ∃ before div after,
      above.mapM (Callout.renderPart pipeline.markup .textile) = .ok before ∧
      Callout.renderCallout pipeline.markup .textile inset = .ok div ∧
      below.mapM (Callout.renderPart pipeline.markup .textile) = .ok after ∧
      (Callout.Apart before.flatten div →
        Callout.LeftToBlock before.flatten div after.flatten html.toList) := by
  unfold Pipeline.renderText at rendered
  obtain ⟨withCallouts, called, rendered⟩ := bind_eq_ok rendered
  rw [Callout.render_eq, stands] at called
  obtain ⟨parts, done, rfl⟩ := map_eq_ok called
  obtain ⟨before, others, first, rest, rfl⟩ := mapM_eq_ok_append done
  obtain ⟨div, after, own, last, rfl⟩ := mapM_eq_ok_cons rest
  refine ⟨before, div, after, first, own, last, fun apart => ?_⟩
  have line := Callout.line_of_renderCallout own
  have whole : (before ++ div :: after).flatten = before.flatten ++ (div ++ after.flatten) := by
    rw [List.flatten_append, List.flatten_cons]
  rw [Markup.render, engine, whole] at rendered
  rw [← Except.ok.inj rendered]
  exact line.leftToBlock apart after.flatten

/-- A pipeline without files. -/
def barePipeline : Pipeline where
  snippets := ⟨"code", fun _ => .error .missing, Snippet.plainHighlighter⟩
  markup := .standard

/-- A callout with a text that Textile is to pass through. -/
def passingInset : List Char := " tip\n<notextile>a*b*c</notextile>\n".toList

def passingCallout : List Char := "<div class=\"tip\">a*b*c&#10;</div>".toList

theorem renderCallout_passingInset :
    Callout.renderCallout barePipeline.markup .textile passingInset = .ok passingCallout := by
  decide +kernel

/-- With a blank line above it the callout is a block of its own. -/
theorem Pipeline.renderText_leftToBlock_of_blank_line :
    let text := "Consider this:\n\n&&& tip\n<notextile>a*b*c</notextile>\n&&&"
    let html := "<p>Consider this:</p>\n<div class=\"tip\">a*b*c&#10;</div>\n"
    Inset.parts Callout.marker (barePipeline.snippets.render .textile false text).toList =
        [.plain "Consider this:\n\n".toList] ++ .inset passingInset :: [.plain []] ∧
      barePipeline.renderText false .textile text = .ok html ∧
      Callout.Apart "Consider this:\n\n".toList passingCallout ∧
      Callout.LeftToBlock "Consider this:\n\n".toList passingCallout [] html.toList := by
  have stands : Inset.parts Callout.marker (barePipeline.snippets.render .textile false
      "Consider this:\n\n&&& tip\n<notextile>a*b*c</notextile>\n&&&").toList =
        [.plain "Consider this:\n\n".toList] ++ .inset passingInset :: [.plain []] := by
    decide +kernel
  have rendered : barePipeline.renderText false .textile
      "Consider this:\n\n&&& tip\n<notextile>a*b*c</notextile>\n&&&" =
        .ok "<p>Consider this:</p>\n<div class=\"tip\">a*b*c&#10;</div>\n" := by
    decide +kernel
  have apart : Callout.Apart "Consider this:\n\n".toList passingCallout :=
    ⟨Textile.spansClosed_of_not_mem (by decide +kernel), by decide +kernel, by decide +kernel⟩
  obtain ⟨before, div, after, first, own, last, left⟩ :=
    Pipeline.renderText_leftToBlock rfl stands rendered
  obtain rfl : ["Consider this:\n\n".toList] = before := Except.ok.inj first
  obtain rfl : passingCallout = div :=
    Except.ok.inj (renderCallout_passingInset.symm.trans own)
  obtain rfl : [[]] = after := Except.ok.inj last
  exact ⟨stands, rendered, apart, left apart⟩

/-- Right below a line of prose a text in the callout is taken for a strong phrase. -/
theorem Pipeline.callout_below_prose_rewritten :
    let text := "Consider this:\n&&& tip\n<notextile>a*b*c</notextile>\n&&&"
    let html := "<p>Consider this:<br />\n" ++
      "<div class=\"tip\">a<strong>b</strong>c&#10;</div></p>\n"
    Inset.parts Callout.marker (barePipeline.snippets.render .textile false text).toList =
        [.plain "Consider this:\n".toList, .inset passingInset, .plain []] ∧
      Callout.renderCallout barePipeline.markup .textile passingInset = .ok passingCallout ∧
      barePipeline.renderText false .textile text = .ok html ∧
      ¬ passingCallout <:+: html.toList :=
  ⟨by decide +kernel, renderCallout_passingInset, by decide +kernel, by decide +kernel⟩

end Bindery
