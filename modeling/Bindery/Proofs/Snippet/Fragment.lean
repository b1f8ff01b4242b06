import Bindery.Callout
import Bindery.Proofs.Html.Escape
import Bindery.Proofs.Inset
import Bindery.Proofs.Textile.Passthrough
import Mathlib.Data.List.Chain

/-!
# Fragments

A snippet of plain code is fixed markup around the name of its language, its code
and perhaps the name of its file. Each of them is escaped and stands on one line,
so it holds no sign that a later stage looks for.
-/

set_option autoImplicit false

namespace Bindery.Snippet

open Html

/-! ## Text on one line -/

/-- A character of a fragment, escaped and without a line feed. -/
def foldedChar (write : Char → List Char) (c : Char) : List Char :=
  if c = '\n' then "&#10;".toList else write c

/-- No ampersand stands behind another one. -/
def Unpaired (text : List Char) : Prop := text.IsChain fun c d => c = '&' → d ≠ '&'

theorem Unpaired.append {before after : List Char} (left : Unpaired before) (right : Unpaired after)
    (ends : before.getLast? ≠ some '&') : Unpaired (before ++ after) := by
  refine List.IsChain.append left right ?_
  rintro c last d - rfl
  exact absurd last ends

theorem Unpaired.not_infix_marker {text : List Char} (unpaired : Unpaired text) :
    ¬ Callout.marker <:+: text := by
  intro inside
  have pair : Unpaired Callout.marker := unpaired.infix inside
  exact absurd pair (by simp [Unpaired, Callout.marker])

theorem unpaired_reference {name : List Char} (plain : '&' ∉ name) (nonempty : name ≠ []) :
    Unpaired ('&' :: name) ∧ ('&' :: name).getLast? ≠ some '&' := by
  have other : ∀ d ∈ name, d ≠ '&' := fun d member => ne_of_mem_of_not_mem member plain
  constructor
  · have later : name.Pairwise fun c d => c = '&' → d ≠ '&' :=
      List.pairwise_of_forall_mem_list fun _ _ d member _ => other d member
    exact (List.pairwise_cons.mpr ⟨fun d member _ => other d member, later⟩).isChain
  · obtain ⟨d, rest, rfl⟩ := List.exists_cons_of_ne_nil nonempty
    rw [List.getLast?_cons_cons]
    exact fun last => plain (List.mem_of_getLast? last)

section

variable {write : Char → List Char} (escaped : Escapes write)

include escaped

theorem carriageReturn_not_mem_written {text : List Char} (plain : '\r' ∉ text) :
    '\r' ∉ text.flatMap write := by
  intro member
  obtain ⟨c, among, written⟩ := List.mem_flatMap.mp member
  exact plain (eq_of_mem_write escaped isOrdinary_carriageReturn (by decide) written ▸ among)

theorem foldLines_flatMap {text : List Char} (plain : '\r' ∉ text) :
    Inset.foldLines (text.flatMap write) = text.flatMap (foldedChar write) := by
  rw [Inset.foldLines,
    Text.unixEndings_eq_self_of_no_return (carriageReturn_not_mem_written escaped plain),
    List.flatMap_assoc]
  refine List.flatMap_congr fun c _ => ?_
  by_cases ending : c = '\n'
  · subst ending
    rw [write_of_isOrdinary escaped isOrdinary_lineFeed]
    rfl
  · have kept : ∀ d ∈ write c, (if d = '\n' then "&#10;".toList else [d]) = [d] := by
      intro d member
      refine if_neg ?_
      rintro rfl
      exact ending (eq_of_mem_write escaped isOrdinary_lineFeed (by decide) member)
    rw [foldedChar, if_neg ending, List.flatMap_congr kept, List.flatMap_singleton']

theorem unpaired_foldedChar (c : Char) :
    Unpaired (foldedChar write c) ∧ (foldedChar write c).getLast? ≠ some '&' := by
  have names : ∀ escape ∈ escapes, '&' ∉ escape.1 ∧ escape.1 ≠ [] := by decide
  have feed : '&' ∉ "#10;".toList ∧ "#10;".toList ≠ [] := by decide
  unfold foldedChar
  split
  · exact unpaired_reference feed.1 feed.2
  · rcases escaped c with ⟨plain, sign⟩ | ⟨name, written, member⟩
    · rw [plain]
      exact ⟨List.isChain_singleton _, by simpa using sign⟩
    · rw [written]
      exact unpaired_reference (names _ member).1 (names _ member).2

theorem unpaired_folded (text : List Char) : Unpaired (text.flatMap (foldedChar write)) := by
  induction text with
  | nil => exact List.isChain_nil
  | cons c text ih =>
      obtain ⟨single, ends⟩ := unpaired_foldedChar escaped c
      exact single.append ih ends

end

/-- Text without certain signs and without the marker of a callout. -/
structure Inert (signs text : List Char) : Prop where
  plain : ∀ c ∈ signs, c ∉ text
  marker : ¬ Callout.marker <:+: text

/-- The signs that could end a text between tags, or the line that it is on. -/
def textSigns : List Char := ['\n', '\r', '<', '>']

/-- The signs that could end a value, or the line that it is on. -/
def valueSigns : List Char := ['\n', '\r', '"']

/-- A character that stands in no reference. -/
def isForeign (c : Char) : Bool :=
  c ∉ "&#10;".toList && escapes.all fun escape => c ∉ escape.1

/-- A character that is escaped or folded, or that is no part of a document's text. -/
def isHidden (write : Char → List Char) (c : Char) : Bool :=
  isForeign c && (c == '\n' || c == '\r' || write c != [c])

section

variable {write : Char → List Char} (escaped : Escapes write)

include escaped

theorem eq_of_mem_foldedChar {c d : Char} (foreign : isForeign c = true)
    (member : c ∈ foldedChar write d) : d = c ∧ c ≠ '\n' ∧ write c = [c] := by
  simp only [isForeign, Bool.and_eq_true, decide_eq_true_eq, List.all_eq_true] at foreign
  unfold foldedChar at member
  split at member
  · exact absurd member foreign.1
  · next inside =>
      rcases escaped d with ⟨plain, -⟩ | ⟨name, written, listed⟩
      · rw [plain] at member
        obtain rfl := List.mem_singleton.mp member
        exact ⟨rfl, inside, plain⟩
      · rw [written] at member
        rcases List.mem_cons.mp member with rfl | among
        · exact absurd (by decide) foreign.1
        · exact absurd among (foreign.2 _ listed)

/-- Folding takes the line feeds away, and the writer the signs that it escapes. -/
theorem inert_folded {signs text : List Char} (plain : '\r' ∉ text)
    (hidden : signs.all (isHidden write) = true) :
    Inert signs (text.flatMap (foldedChar write)) := by
  refine ⟨fun c sign member => ?_, (unpaired_folded escaped text).not_infix_marker⟩
  obtain ⟨d, among, written⟩ := List.mem_flatMap.mp member
  have absent := List.all_eq_true.mp hidden c sign
  simp only [isHidden, Bool.and_eq_true, Bool.or_eq_true, beq_iff_eq, bne_iff_ne] at absent
  obtain ⟨foreign, (feed | rfl) | other⟩ := absent
  · exact (eq_of_mem_foldedChar escaped foreign written).2.1 feed
  · obtain ⟨rfl, -⟩ := eq_of_mem_foldedChar escaped foreign written
    exact plain among
  · obtain ⟨rfl, -, same⟩ := eq_of_mem_foldedChar escaped foreign written
    exact other same

end

section

variable {text : List Char} (plain : '\r' ∉ text)

include plain

theorem inert_text : Inert textSigns (text.flatMap (foldedChar escapeTextChar)) :=
  inert_folded escapes_text plain (by decide)

example : "a < b &&& c\n".toList.flatMap (foldedChar escapeTextChar) =
    "a &lt; b &amp;&amp;&amp; c&#10;".toList := by decide

theorem inert_value : Inert valueSigns (text.flatMap (foldedChar escapeValueChar)) :=
  inert_folded escapes_value plain (by decide)

end

/-! ## Fragments -/

/-- The texts in a snippet of plain code: the name of its file, if it has one, the name of its
language and its code. -/
structure Fragment where
  caption? : Option (List Char)
  language : List Char
  code : List Char

namespace Fragment

def map (edit : List Char → List Char) (fragment : Fragment) : Fragment :=
  ⟨fragment.caption?.map edit, edit fragment.language, edit fragment.code⟩

def opening : List Char := "<div class=\"highlight\">".toList

def captionOpening : List Char := "<span class=\"filename\">".toList

def captionClosing : List Char := "</span>".toList

def languageOpening : List Char := "<pre><code class=\"language-".toList

def dataOpening : List Char := "\" data-lang=\"".toList

def codeOpening : List Char := "\">".toList

def closing : List Char := "</code></pre></div>".toList

def captionMarkup (caption : List Char) : List Char := captionOpening ++ (caption ++ captionClosing)

def markup (fragment : Fragment) : List Char :=
  opening ++ ((fragment.caption?.map captionMarkup).getD [] ++
    (languageOpening ++ (fragment.language ++ (dataOpening ++ (fragment.language ++
      (codeOpening ++ (fragment.code ++ closing)))))))

def isLine (text : List Char) : Bool := !text.isEmpty && text.all fun c => c != '\n' && c != '\r'

theorem isLine_iff {text : List Char} :
    isLine text = true ↔ text ≠ [] ∧ ∀ c ∈ text, c ≠ '\n' ∧ c ≠ '\r' := by
  simp [isLine]

theorem not_mem_of_isLine {text : List Char} {c : Char} (line : isLine text = true)
    (ends : c = '\n' ∨ c = '\r') : c ∉ text :=
  fun member => ends.elim ((isLine_iff.mp line).2 c member).1 ((isLine_iff.mp line).2 c member).2

/-- An edit of line endings, which leaves markup as it is. -/
structure EditsLines (edit : List Char → List Char) : Prop where
  nil : edit [] = []
  plain : ∀ before after, isLine before = true → edit (before ++ after) = before ++ edit after
  append : ∀ before after, after.head? ≠ some '\n' →
    edit (before ++ after) = edit before ++ edit after

theorem editsLines_lineFeeds : EditsLines lineFeeds where
  nil := rfl
  plain _ after plain :=
    lineFeeds_append_of_not_mem after fun member => ((isLine_iff.mp plain).2 _ member).2 rfl
  append before _ whole := lineFeeds_append before whole

theorem editsLines_foldLines : EditsLines Inset.foldLines where
  nil := rfl
  plain before after plain := by
    have plain := isLine_iff.mp plain
    have same : Text.unixEndings before = before :=
      Text.unixEndings_eq_self fun member => (plain.2 _ member).1 rfl
    have kept : ∀ c ∈ before, (if c = '\n' then "&#10;".toList else [c]) = [c] :=
      fun c member => if_neg (plain.2 c member).1
    have closed : before.getLast? ≠ some '\r' := fun last =>
      (plain.2 _ (List.mem_of_getLast? last)).2 rfl
    rw [Inset.foldLines_append (.inl closed), Inset.foldLines, same, List.flatMap_congr kept,
      List.flatMap_singleton']
  append _ _ whole := Inset.foldLines_append (.inr whole)

section

variable {edit : List Char → List Char} (edits : EditsLines edit)

include edits

/-- A text in front of markup is edited on its own. -/
theorem EditsLines.between {literal : List Char} (line : isLine literal = true)
    (text after : List Char) :
    edit (text ++ (literal ++ after)) = edit text ++ (literal ++ edit after) := by
  obtain ⟨nonempty, plain⟩ := isLine_iff.mp line
  obtain ⟨c, rest, rfl⟩ := List.exists_cons_of_ne_nil nonempty
  have inside : c ≠ '\n' := (plain c List.mem_cons_self).1
  rw [edits.append _ _ (by simpa using inside), edits.plain _ _ line]

theorem edit_markup (fragment : Fragment) : edit fragment.markup = (fragment.map edit).markup := by
  have lines : ∀ literal ∈ [opening, captionOpening, captionClosing, languageOpening, dataOpening,
      codeOpening, closing], isLine literal = true := by
    decide
  simp only [List.forall_mem_cons] at lines
  obtain ⟨opens, caption, captionEnds, language, data, code, ends, -⟩ := lines
  have last := edits.between ends fragment.code []
  have captioned : ∀ after, edit ((fragment.caption?.map captionMarkup).getD [] ++ after) =
      (((fragment.map edit).caption?.map captionMarkup).getD [] ++ edit after) := by
    intro after
    rw [map]
    cases fragment.caption? with
    | none => rfl
    | some text =>
        simp only [Option.map_some, Option.getD_some, captionMarkup, List.append_assoc]
        rw [edits.plain _ _ caption, edits.between captionEnds]
  rw [edits.nil, List.append_nil] at last
  rw [markup, edits.plain _ _ opens, captioned, edits.plain _ _ language, edits.between data,
    edits.between code, last]
  rfl

end

/-- A snippet as it stands in a chapter. Textile passes it through. -/
def written (format : Format) (fragment : Fragment) : List Char :=
  match format with
  | .textile => Textile.spanOpening ++ (fragment.markup ++ Textile.spanClosing)
  | _ => fragment.markup

/-- Each text of a fragment is free of the signs that could end it, and of markers. -/
structure Sealed (fragment : Fragment) : Prop where
  caption : ∀ caption ∈ fragment.caption?, Inert textSigns caption
  language : Inert valueSigns fragment.language
  code : Inert textSigns fragment.code

/-- A text between the tags of an element, up to the next quotation mark. -/
def textSegment (text : List Char) (rest : String) : List Char :=
  '>' :: (text ++ '<' :: rest.toList)

/-- What stands behind the class of the wrapper. -/
def captionSegments : Option (List Char) → List (List Char)
  | none => ["><pre><code class=".toList]
  | some caption =>
      ["><span class=".toList, "filename".toList, textSegment caption "/span><pre><code class="]

/-- A fragment between its quotation marks. -/
def segments (fragment : Fragment) : List (List Char) :=
  "<div class=".toList :: "highlight".toList :: (captionSegments fragment.caption? ++
    ["language".toList ++ '-' :: fragment.language, " data-lang=".toList, fragment.language,
      textSegment fragment.code "/code></pre></div>"])

theorem markup_eq_join (fragment : Fragment) :
    fragment.markup = Text.join ['"'] fragment.segments := by
  have opens : opening = "<div class=".toList ++ '"' :: ("highlight".toList ++ ['"', '>']) := by
    decide
  have caption : captionOpening =
      "<span class=".toList ++ '"' :: ("filename".toList ++ ['"', '>']) := by decide
  have language : languageOpening =
      "<pre><code class=".toList ++ '"' :: ("language".toList ++ ['-']) := by decide
  have data : dataOpening = '"' :: (" data-lang=".toList ++ ['"']) := by decide
  have code : codeOpening = ['"', '>'] := by decide
  have ends : closing = '<' :: "/code></pre></div>".toList := by decide
  have bare : "><pre><code class=".toList = '>' :: "<pre><code class=".toList := by decide
  have captioned : "><span class=".toList = '>' :: "<span class=".toList := by decide
  have behind : '<' :: "/span><pre><code class=".toList =
      captionClosing ++ "<pre><code class=".toList := by decide
  obtain ⟨caption?, name, text⟩ := fragment
  rw [markup, opens, language, data, code, ends, segments, textSegment]
  cases caption? with
  | none =>
      rw [captionSegments, bare]
      simp only [Text.join, List.intercalate_cons_cons, List.intercalate_singleton,
        List.append_assoc, List.cons_append, List.nil_append, Option.map_none, Option.getD_none]
  | some shown =>
      rw [captionSegments, textSegment, captioned, behind]
      simp only [Text.join, List.intercalate_cons_cons, List.intercalate_singleton,
        List.append_assoc, List.cons_append, List.nil_append, Option.map_some, Option.getD_some,
        captionMarkup, caption]

/-- A mark without quotation marks is in one of the segments. -/
theorem infix_markup_iff {mark : List Char} (unquoted : '"' ∉ mark) (nonempty : mark ≠ [])
    (fragment : Fragment) :
    mark <:+: fragment.markup ↔ ∃ segment ∈ fragment.segments, mark <:+: segment := by
  rw [markup_eq_join, Text.infix_join_iff unquoted nonempty]

/-- The segments that are the same in all fragments. -/
def fixedSegments : List (List Char) :=
  ["<div class=", "highlight", "><pre><code class=", "><span class=", "filename",
    " data-lang="].map String.toList

/-- The fixed segments, and what is fixed in the others without the signs around the texts. -/
def fixedParts : List (List Char) :=
  fixedSegments ++ ["language".toList, "/span><pre><code class=".toList,
    "/code></pre></div>".toList]

/-- A segment is fixed, or it holds one of the texts. -/
theorem forall_mem_segments {fragment : Fragment} {holds : List Char → Prop}
    (fixed : ∀ segment ∈ fixedSegments, holds segment)
    (named : holds ("language".toList ++ '-' :: fragment.language))
    (value : holds fragment.language)
    (caption : ∀ caption ∈ fragment.caption?,
      holds (textSegment caption "/span><pre><code class="))
    (code : holds (textSegment fragment.code "/code></pre></div>")) :
    ∀ segment ∈ fragment.segments, holds segment := by
  simp only [fixedSegments, List.map_cons, List.map_nil, List.forall_mem_cons] at fixed
  obtain ⟨wrapper, highlight, bare, span, filename, data, -⟩ := fixed
  have middle : ∀ segment ∈ captionSegments fragment.caption?, holds segment := by
    cases shown : fragment.caption? with
    | none => exact List.forall_mem_singleton.mpr bare
    | some text =>
        have captioned := caption text shown
        simp only [captionSegments, List.forall_mem_cons]
        exact ⟨span, filename, captioned, nofun⟩
  simp only [segments, List.forall_mem_cons, List.forall_mem_append]
  exact ⟨wrapper, highlight, middle, named, data, value, code, nofun⟩

section

variable {fragment : Fragment} (closed : fragment.Sealed)

include closed

/-- A mark is in no fragment if it is in no text and stands across none of the signs that are
around the texts. -/
theorem Sealed.not_infix_markup {mark : List Char} (nonempty : mark ≠ [])
    (signs : (['"', '-', '<', '>'].all (· ∉ mark)) = true)
    (fixed : ∀ part ∈ fixedParts, ¬ mark <:+: part)
    (texts : ∀ text, Inert textSigns text → ¬ mark <:+: text)
    (values : ∀ text, Inert valueSigns text → ¬ mark <:+: text) : ¬ mark <:+: fragment.markup := by
  simp only [fixedParts, List.all_eq_true, decide_eq_true_eq, List.forall_mem_cons,
    List.forall_mem_append] at signs fixed
  obtain ⟨quote, dash, opening, closing, -⟩ := signs
  obtain ⟨fixed, language, behindCaption, behindCode, -⟩ := fixed
  have text : ∀ {text : List Char} {rest : String}, Inert textSigns text →
      ¬ mark <:+: rest.toList → ¬ mark <:+: textSegment text rest := by
    intro text rest inert absent
    rw [textSegment, ← List.nil_append ('>' :: _), Text.infix_append_cons_iff closing,
      Text.infix_append_cons_iff opening, List.infix_nil]
    rintro (empty | inside | later)
    · exact nonempty empty
    · exact texts text inert inside
    · exact absent later
  have absent : ∀ segment ∈ fragment.segments, ¬ mark <:+: segment := by
    refine forall_mem_segments fixed ?_ (values _ closed.language)
      (fun caption shown => text (closed.caption caption shown) behindCaption)
      (text closed.code behindCode)
    rw [Text.infix_append_cons_iff dash, not_or]
    exact ⟨language, values _ closed.language⟩
  rw [infix_markup_iff quote nonempty]
  rintro ⟨segment, member, inside⟩
  exact absent segment member inside

theorem Sealed.not_infix_marker : ¬ Callout.marker <:+: fragment.markup :=
  closed.not_infix_markup (by decide) (by decide) (by decide)
    (fun _ inert => inert.marker) fun _ inert => inert.marker

theorem Sealed.lineEnd_not_mem {c : Char} (ends : c = '\n' ∨ c = '\r') :
    c ∉ fragment.markup := by
  have lines : ∀ part ∈ fixedParts, isLine part = true := by decide
  have fixed : ∀ part ∈ fixedParts, ¬ [c] <:+: part := by
    intro part member
    rw [List.singleton_infix_iff]
    exact not_mem_of_isLine (lines part member) ends
  have apart : (['"', '-', '<', '>'].all (· ∉ [c])) = true := by
    rcases ends with rfl | rfl <;> decide
  have signs : c ∈ textSigns ∧ c ∈ valueSigns := by
    rcases ends with rfl | rfl <;> decide
  rw [← List.singleton_infix_iff]
  refine closed.not_infix_markup (List.cons_ne_nil c []) apart fixed
    (fun _ inert => ?_) (fun _ inert => ?_)
  · rw [List.singleton_infix_iff]
    exact inert.plain c signs.1
  · rw [List.singleton_infix_iff]
    exact inert.plain c signs.2

/-- Only the name of the language can hold the tag that ends a span. -/
theorem Sealed.infix_spanClosing_iff :
    Textile.spanClosing <:+: fragment.markup ↔ Textile.spanClosing <:+: fragment.language := by
  obtain ⟨tail, tag, plain⟩ : ∃ tail, Textile.spanClosing = '<' :: tail ∧
      '"' ∉ Textile.spanClosing ∧ '-' ∉ Textile.spanClosing :=
    ⟨Textile.spanClosing.tail, by decide, by decide⟩
  have fixed : ∀ segment ∈ fixedSegments ++ ["language".toList,
      '<' :: "/span><pre><code class=".toList, '<' :: "/code></pre></div>".toList],
        ¬ Textile.spanClosing <:+: segment := by
    decide
  simp only [List.forall_mem_cons, List.forall_mem_append] at fixed
  obtain ⟨fixed, language, behindCaption, behindCode, -⟩ := fixed
  have text : ∀ {text : List Char} {rest : String}, Inert textSigns text →
      ¬ Textile.spanClosing <:+: '<' :: rest.toList →
      ¬ Textile.spanClosing <:+: textSegment text rest := by
    intro text rest inert absent
    have first : '<' ∉ '>' :: text := by
      rw [List.mem_cons, not_or]
      exact ⟨by decide, inert.plain '<' (by decide)⟩
    rw [tag] at absent ⊢
    rwa [textSegment, ← List.cons_append, Text.infix_append_iff_of_head first]
  have only : ∀ segment ∈ fragment.segments,
      Textile.spanClosing <:+: segment → Textile.spanClosing <:+: fragment.language := by
    refine forall_mem_segments (fun segment fix inside => absurd inside (fixed segment fix))
      (fun inside => ?_) id (fun caption shown inside => ?_)
      fun inside => absurd inside (text closed.code behindCode)
    · exact ((Text.infix_append_cons_iff plain.2).mp inside).resolve_left language
    · exact absurd inside (text (closed.caption caption shown) behindCaption)
  rw [infix_markup_iff plain.1 (by simp [tag])]
  refine ⟨fun ⟨segment, member, inside⟩ => only segment member inside, fun inside => ?_⟩
  exact ⟨fragment.language, by simp [segments], inside⟩

theorem Sealed.oneLine {c : Char} (ends : c = '\n' ∨ c = '\r') (format : Format) :
    c ∉ fragment.written format := by
  have around : isLine Textile.spanOpening = true ∧ isLine Textile.spanClosing = true := by
    decide
  have opens := not_mem_of_isLine around.1 ends
  have closes := not_mem_of_isLine around.2 ends
  have inside := closed.lineEnd_not_mem ends
  cases format with
  | textile => simp [written, opens, closes, inside]
  | markdown => exact inside
  | html => exact inside

/-- Whatever stands around it, no part of a fragment belongs to the marker of a callout. -/
theorem Sealed.marker (format : Format) :
    Inset.Sealed Callout.marker (fragment.written format) := by
  have signs : '<' ∉ Callout.marker ∧ '>' ∉ Callout.marker := by decide
  have facts : ∀ tag ∈ [opening, closing, Textile.spanOpening, Textile.spanClosing],
      ¬ Callout.marker <:+: tag ∧ tag = '<' :: tag.tail ∧ tag = tag.dropLast ++ ['>'] := by
    decide
  have tags : ∀ tag ∈ [opening, closing, Textile.spanOpening, Textile.spanClosing],
      Inset.Sealed Callout.marker tag := by
    intro tag member
    obtain ⟨absent, first, last⟩ := facts tag member
    exact ⟨absent, ⟨'<', _, first, signs.1⟩, ⟨_, '>', last, signs.2⟩⟩
  simp only [List.forall_mem_cons] at tags
  obtain ⟨opens, closes, spanOpens, spanCloses, -⟩ := tags
  obtain ⟨inside, whole⟩ : ∃ inside, fragment.markup = opening ++ (inside ++ closing) :=
    ⟨(fragment.caption?.map captionMarkup).getD [] ++ (languageOpening ++ (fragment.language ++
      (dataOpening ++ (fragment.language ++ (codeOpening ++ fragment.code))))), by
        simp only [markup, List.append_assoc]⟩
  have absent := closed.not_infix_marker
  have markup : Inset.Sealed Callout.marker fragment.markup := by
    rw [whole] at absent ⊢
    refine opens.enclose closes fun within => absent (within.trans ?_)
    exact List.infix_append opening inside closing |>.trans (by simp)
  cases format with
  | textile => exact spanOpens.enclose spanCloses absent
  | markdown => exact markup
  | html => exact markup

/-- Textile passes a fragment through as a whole exactly if the name of its language does not
end the span. -/
theorem Sealed.span?_iff (after : List Char) :
    Textile.span? (fragment.written .textile ++ after) =
        some (fragment.markup, (fragment.written .textile).length) ↔
      ¬ Textile.spanClosing <:+: fragment.language := by
  obtain ⟨tail, tag, once⟩ : ∃ tail, Textile.spanClosing = '<' :: tail ∧ '<' ∉ tail :=
    ⟨Textile.spanClosing.tail, by decide, by decide⟩
  have whole : fragment.written .textile ++ after =
      Textile.spanOpening ++ (fragment.markup ++ (Textile.spanClosing ++ after)) := by
    simp only [written, List.append_assoc]
  have first := @Textile.splitAt?_first_iff fragment.markup after '<' tail once
  rw [← tag] at first
  have length : (fragment.written .textile).length =
      Textile.spanOpening.length + fragment.markup.length + Textile.spanClosing.length := by
    simp only [written, List.length_append, Nat.add_assoc]
  rw [← closed.infix_spanClosing_iff, ← first, whole, Textile.span?_opened, length]
  cases Textile.splitAt? Textile.spanClosing
      (fragment.markup ++ (Textile.spanClosing ++ after)) with
  | none => simp
  | some parts =>
      simp only [Option.map_some, Option.some.injEq, Prod.mk.injEq]
      exact ⟨And.left, fun same => ⟨same, by rw [same]⟩⟩

end

end Fragment

end Bindery.Snippet
