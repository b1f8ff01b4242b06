import Bindery.Proofs.Snippet.Directive
import Bindery.Proofs.Snippet.Fragment
import Bindery.Proofs.Snippet.PlainCode
import Bindery.Proofs.Splicing

/-!
# Snippets and later stages

A snippet of plain code is a fragment, whose texts are the name of its language, the
name of its file and its code as a document has them. So no later stage takes a part
of it for a sign of its own, whatever the code is.
-/

set_option autoImplicit false

namespace Bindery.Snippet

open Html

/-! ## Highlighted code as a fragment -/

theorem escapeValue_language (language : String) :
    (escapeValue ("language-" ++ language)).toList =
      "language-".toList ++ language.toList.flatMap escapeValueChar := by
  have plain : "language-".toList.flatMap escapeValueChar = "language-".toList := by decide
  rw [escapeValue, String.toList_ofList, String.toList_append, List.flatMap_append, plain]

theorem toList_startTag_code (language : String) :
    block.element.startTag.toList ++ (codeTag (codeAttributes language)).element.startTag.toList =
      Fragment.languageOpening ++ (language.toList.flatMap escapeValueChar ++
        (Fragment.dataOpening ++ (language.toList.flatMap escapeValueChar ++
          Fragment.codeOpening))) := by
  have value : (escapeValue language).toList = language.toList.flatMap escapeValueChar :=
    String.toList_ofList
  have opens : Fragment.languageOpening = block.element.startTag.toList ++ ("<code".toList ++
      (" class=\"".toList ++ "language-".toList)) := by decide
  have data : Fragment.dataOpening = "\"".toList ++ " data-lang=\"".toList := by decide
  have code : Fragment.codeOpening = "\"".toList ++ ">".toList := by decide
  have written : (codeTag (codeAttributes language)).element.startTag =
      "<code" ++ ((" class=\"" ++ escapeValue ("language-" ++ language) ++ "\"") ++
        (" data-lang=\"" ++ escapeValue language ++ "\"")) ++ ">" := rfl
  rw [written, opens, data, code]
  simp only [String.toList_append, escapeValue_language, value, List.append_assoc]

/-- Highlighted code behind a caption, if there is one, is a fragment. -/
theorem toList_highlighted {above content : List Node} {caption? : Option (List Char)}
    {code : List Char} (language : String)
    (captioned : (Tree.writeAll .outside above).toList =
      (caption?.map Fragment.captionMarkup).getD [])
    (coded : (Tree.writeAll .outside content).toList = code) :
    (Tree.write .outside (highlighted above language content)).toList =
      Fragment.markup ⟨caption?, language.toList.flatMap escapeValueChar, code⟩ := by
  have opens : Fragment.opening = wrapper.element.startTag.toList := by decide
  have ends : Fragment.closing = (codeTag (codeAttributes language)).element.endTag.toList ++
      (block.element.endTag.toList ++ wrapper.element.endTag.toList) := by
    have closed : Fragment.closing = "</code>".toList ++ ("</pre>".toList ++ "</div>".toList) := by
      decide
    exact closed
  have tags := toList_startTag_code language
  rw [toList_write_highlighted, captioned, coded, Fragment.markup, opens, ends]
  have inside : ∀ after, block.element.startTag.toList ++
      ((codeTag (codeAttributes language)).element.startTag.toList ++ after) =
        Fragment.languageOpening ++ (language.toList.flatMap escapeValueChar ++
          (Fragment.dataOpening ++ (language.toList.flatMap escapeValueChar ++
            (Fragment.codeOpening ++ after)))) := by
    intro after
    simpa only [List.append_assoc] using congrArg (· ++ after) tags
  rw [inside]

theorem toList_plainHighlighter (code language : String) :
    (plainHighlighter code language).toList = Fragment.markup ⟨none,
      language.toList.flatMap escapeValueChar, code.toList.flatMap escapeTextChar⟩ := by
  rw [plainHighlighter, plainCode_eq, Tree.outer]
  exact toList_highlighted language rfl (toList_writeAll_text code)

/-! ## Reading it back -/

/-- A text as a document has it. -/
def shownText (text : List Char) : List Char := (lineFeeds text).filter (· ≠ '\x00')

/-- A value as a document has it. -/
def shownValue (text : List Char) : List Char := (lineFeeds text).map withoutNull

/-- A text with its line endings as a document reads them. -/
def feeds (text : String) : String := String.ofList (lineFeeds text.toList)

theorem documentText_plainHighlighter (code language : String) :
    documentText (plainHighlighter code language) =
      (plainHighlighter (feeds code) (feeds language)).toList := by
  have begins : ∀ fragment : Fragment, ∃ rest, fragment.markup = '<' :: rest := by
    intro fragment
    have opens : Fragment.opening = '<' :: Fragment.opening.tail := by decide
    rw [Fragment.markup, opens]
    exact ⟨_, rfl⟩
  have marked : withoutByteOrderMark (plainHighlighter code language).toList =
      (plainHighlighter code language).toList := by
    rw [toList_plainHighlighter]
    obtain ⟨rest, same⟩ := begins ⟨none, language.toList.flatMap escapeValueChar,
      code.toList.flatMap escapeTextChar⟩
    rw [same]
    rfl
  rw [documentText, marked, toList_plainHighlighter, toList_plainHighlighter,
    Fragment.edit_markup Fragment.editsLines_lineFeeds]
  simp only [Fragment.map, feeds, String.toList_ofList, Option.map_none,
    lineFeeds_escaped escapes_text, lineFeeds_escaped escapes_value]

theorem keptAttributes_feeds (language : String) :
    keptAttributes (feeds language) =
      codeAttributes (String.ofList (shownValue language.toList)) := by
  have plain : "language-".toList.map withoutNull = "language-".toList := by decide
  have kept : ∀ value, keptValue ("language-" ++ value) = "language-" ++ keptValue value := by
    intro value
    rw [keptValue, String.toList_append, List.map_append, plain, String.ofList_append,
      String.ofList_toList, keptValue]
  have shown : keptValue (feeds language) = String.ofList (shownValue language.toList) := by
    rw [keptValue, feeds, String.toList_ofList, shownValue]
  simp only [keptAttributes, codeAttributes, List.map_cons, List.map_nil, keptAttribute, kept,
    shown]

theorem parseBody?_plainHighlighter (code language : String) :
    parseBody? (plainHighlighter code language) =
      some (.element (.ofName "body" [])
        [highlighted [] (String.ofList (shownValue language.toList))
          (codeText (shownText code.toList))]) := by
  have reads := reads_plainCode (feeds code) (feeds language)
  have content : (feeds code).toList.filter (· ≠ '\x00') = shownText code.toList := by
    rw [feeds, String.toList_ofList, shownText]
  rw [content, keptAttributes_feeds] at reads
  have arena : parseDocument (plainHighlighter code language) =
      (behindCode (codeAttributes (String.ofList (shownValue language.toList)))
        (shownText code.toList) [3, 1]).arena := by
    rw [parseDocument, documentText_plainHighlighter, plainHighlighter,
      reads.readWithin_eq rfl (by omega), take_finish]
  have parsed : parse? (plainHighlighter code language) = some
      ⟨(behindCode (codeAttributes (String.ofList (shownValue language.toList)))
        (shownText code.toList) [3, 1]).arena, 3⟩ := by
    rw [parse?, arena, find_body]
    rfl
  rw [parseBody?, parsed]
  exact tree?_behindCode _ _

theorem toList_writeAll_codeText (content : List Char) :
    (Tree.writeAll .outside (codeText content)).toList = content.flatMap escapeTextChar := by
  cases content with
  | nil => simp [codeText, Tree.writeAll]
  | cons c content => rw [codeText, toList_writeAll_text, String.toList_ofList]

theorem toList_writeAll_caption (file : List Char) :
    (Tree.writeAll .outside [caption file]).toList =
      Fragment.captionMarkup (("./code/".toList ++ file).flatMap escapeTextChar) := by
  let tag := Element.ofName "span" [("class", "filename")]
  have opens : Fragment.captionOpening = tag.startTag.toList := by decide
  have closes : Fragment.captionClosing = tag.endTag.toList := by decide
  have alone := toList_writeAll_concat [] (caption file)
  rw [List.nil_append] at alone
  rw [alone, caption, toList_write_element rfl rfl, toList_writeAll_text, Fragment.captionMarkup,
    opens, closes, String.toList_append, String.toList_ofList]
  simp [Tree.writeAll, tag]

theorem addCaption_highlighted (file : List Char) (language : String) (content : List Node) :
    addCaption file (.element (.ofName "body" []) [highlighted [] language content]) =
      .element (.ofName "body" []) [highlighted [caption file] language content] := by
  have marked : wrapper.element.hasClass "highlight" = true := by decide
  have plain : (Element.ofName "body" []).hasClass "highlight" = false := by decide
  simp [addCaption, highlighted, Tree.prependIn?, Tree.prependInAny?, marked, plain]

/-- A snippet of plain code before it is put on one line. -/
theorem toList_finish (code language : String) (file : Option (List Char)) :
    (finish (plainHighlighter code language) file).toList = Fragment.markup
      ⟨file.map fun file => ("./code/".toList ++ file).flatMap escapeTextChar,
        (shownValue language.toList).flatMap escapeValueChar,
        (shownText code.toList).flatMap escapeTextChar⟩ := by
  have alone : ∀ node : Node, (Tree.writeAll .outside [node]).toList =
      (Tree.write .outside node).toList := by
    intro node
    simp [Tree.writeAll]
  have value : (shownValue language.toList).flatMap escapeValueChar =
      (String.ofList (shownValue language.toList)).toList.flatMap escapeValueChar := by
    rw [String.toList_ofList]
  rw [finish, parseBody?_plainHighlighter, value]
  cases file with
  | none =>
      exact (alone _).trans (toList_highlighted _ rfl (toList_writeAll_codeText _))
  | some file =>
      dsimp only
      rw [addCaption_highlighted]
      exact (alone _).trans
        (toList_highlighted _ (toList_writeAll_caption file) (toList_writeAll_codeText _))

/-! ## What snippets are written as -/

theorem carriageReturn_not_mem_lineFeeds (text : List Char) : '\r' ∉ lineFeeds text := by
  fun_induction lineFeeds text with
  | case1 => exact List.not_mem_nil
  | case2 rest ih => simpa using ih
  | case3 rest alone ih => simpa using ih
  | case4 c rest _ other ih => simpa using ⟨Ne.symm other, ih⟩

theorem carriageReturn_not_mem_shownText (text : List Char) : '\r' ∉ shownText text :=
  fun member => carriageReturn_not_mem_lineFeeds text (List.mem_filter.mp member).1

theorem carriageReturn_not_mem_shownValue (text : List Char) : '\r' ∉ shownValue text := by
  intro member
  obtain ⟨c, among, same⟩ := List.mem_map.mp member
  unfold withoutNull at same
  split at same
  · exact absurd same (by decide)
  · exact carriageReturn_not_mem_lineFeeds text (same ▸ among)

theorem carriageReturn_not_mem_caption {header file : List Char}
    (named : (Directive.parse header).file = some file) : '\r' ∉ "./code/".toList ++ file := by
  have folder : '\r' ∉ "./code/".toList := by decide
  rw [List.mem_append, not_or]
  exact ⟨folder, Directive.carriageReturn_not_mem_file named⟩

namespace Engine

/-- The texts in a snippet of plain code. -/
def fragment (engine : Engine) (plain : Bool) (inset : List Char) : Fragment :=
  let (header, body) := Inset.headerAndBody inset
  let directive := Directive.parse header
  { caption? := directive.file.map fun file =>
      ("./code/".toList ++ file).flatMap (foldedChar escapeTextChar)
    language := (shownValue (language plain directive).toList).flatMap (foldedChar escapeValueChar)
    code := (shownText (engine.shownCode directive body)).flatMap (foldedChar escapeTextChar) }

theorem sealed_fragment (engine : Engine) (plain : Bool) (inset : List Char) :
    (engine.fragment plain inset).Sealed := by
  refine ⟨fun text shown => ?_, inert_value (carriageReturn_not_mem_shownValue _),
    inert_text (carriageReturn_not_mem_shownText _)⟩
  obtain ⟨file, named, rfl⟩ := Option.map_eq_some_iff.mp shown
  exact inert_text (carriageReturn_not_mem_caption named)

section

variable {engine : Engine} (plainly : engine.highlighter = plainHighlighter)

include plainly

/-- The text of a snippet before it is wrapped for its format. -/
theorem foldLines_finish (plain : Bool) (inset : List Char) :
    let directive := Directive.parse (Inset.headerAndBody inset).1
    let code := engine.shownCode directive (Inset.headerAndBody inset).2
    Inset.foldLines (finish (engine.highlighter (String.ofList code) (language plain directive))
      directive.file).toList = (engine.fragment plain inset).markup := by
  intro directive code
  have captioned : (directive.file.map fun file =>
      ("./code/".toList ++ file).flatMap escapeTextChar).map Inset.foldLines =
        (engine.fragment plain inset).caption? := by
    refine Option.map_map _ _ _ |>.trans (Option.map_congr fun file named => ?_)
    exact foldLines_flatMap escapes_text (carriageReturn_not_mem_caption named)
  rw [plainly, toList_finish, Fragment.edit_markup Fragment.editsLines_foldLines, Fragment.map,
    captioned, foldLines_flatMap escapes_value (carriageReturn_not_mem_shownValue _),
    foldLines_flatMap escapes_text (carriageReturn_not_mem_shownText _), String.toList_ofList]
  rfl

theorem renderSnippet_eq (format : Format) (plain : Bool) (inset : List Char) :
    engine.renderSnippet format plain inset = (engine.fragment plain inset).written format := by
  have inside := foldLines_finish plainly plain inset
  dsimp only at inside
  cases format with
  | textile =>
      exact (congrArg (fun html => Textile.spanOpening ++ html ++ Textile.spanClosing) inside).trans
        (List.append_assoc _ _ _)
  | markdown => exact inside
  | html => exact inside

theorem toList_render (format : Format) (plain : Bool) (text : String) :
    (engine.render format plain text).toList =
      (Inset.parts marker text.toList).flatMap
        (Inset.Part.written fun inset => (engine.fragment plain inset).written format) := by
  have same : engine.renderSnippet format plain =
      fun inset => (engine.fragment plain inset).written format :=
    funext fun inset => renderSnippet_eq plainly format plain inset
  rw [toList_render_eq, same]

/-- The callouts of a text with its snippets rendered begin and end in its plain parts. -/
theorem cut_render (format : Format) (plain : Bool) (text : String) :
    Inset.cut Callout.marker (engine.render format plain text).toList =
      ((Inset.parts marker text.toList).map (Inset.Part.pieces Callout.marker fun inset =>
        (engine.fragment plain inset).written format)).foldr Inset.glue [[]] := by
  have foreign : ∃ c rest, marker = c :: rest ∧ c ∉ Callout.marker :=
    ⟨'@', marker.tail, by decide, by decide⟩
  have closed := fun inset => (sealed_fragment engine plain inset).marker format
  rw [toList_render plainly]
  exact Inset.cut_ofPieces closed foreign _

end

/-- No later stage mistakes a part of a snippet for one of its own signs. The code and the caption
have no tags, line endings or markers, and the values cannot be ended from within. A snippet stays
on one line; the callouts of the text are those of its plain parts; and Textile passes the whole
snippet through unless the name of its language, which the header gives, ends the span. -/
theorem render_sealed (codeRoot : String) (reader : Reader) (format : Format) (plain : Bool)
    (text : String) :
    let engine : Engine := ⟨codeRoot, reader, plainHighlighter⟩
    let write := fun inset => (engine.fragment plain inset).written format
    let parts := Inset.parts marker text.toList
    (engine.render format plain text).toList = parts.flatMap (Inset.Part.written write) ∧
      (∀ inset, (engine.fragment plain inset).Sealed ∧ '\n' ∉ write inset ∧ '\r' ∉ write inset ∧
        Inset.Sealed Callout.marker (write inset)) ∧
      Inset.cut Callout.marker (engine.render format plain text).toList =
        (parts.map (Inset.Part.pieces Callout.marker write)).foldr Inset.glue [[]] ∧
      ∀ inset after,
        Textile.span? ((engine.fragment plain inset).written .textile ++ after) =
            some ((engine.fragment plain inset).markup,
              ((engine.fragment plain inset).written .textile).length) ↔
          ¬ Textile.spanClosing <:+: (engine.fragment plain inset).language := by
  intro engine write parts
  have closed := sealed_fragment engine plain
  refine ⟨toList_render rfl format plain text, fun inset => ?_, cut_render rfl format plain text,
    fun inset after => (closed inset).span?_iff after⟩
  exact ⟨closed inset, (closed inset).oneLine (.inl rfl) format,
    (closed inset).oneLine (.inr rfl) format, (closed inset).marker format⟩

end Engine

end Bindery.Snippet
