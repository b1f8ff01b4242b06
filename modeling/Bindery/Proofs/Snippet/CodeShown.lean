import Bindery.Proofs.Snippet.Sealed

/-!
# Code as it is shown

A snippet of plain code says what its header names and what its code is. Whoever undoes the
references in it has the code again, character by character.
-/

set_option autoImplicit false

namespace Bindery.Html

/-! ## Undoing references -/

/-- Replaces the references of a text; the number bounds the characters read. -/
def undoWithin : Nat → List Char → List Char
  | 0, _ => []
  | _ + 1, [] => []
  | n + 1, '&' :: rest =>
      match readReference false rest with
      | some (value, after) => value ++ undoWithin n after
      | none => '&' :: undoWithin n rest
  | n + 1, c :: rest => c :: undoWithin n rest

/-- The text that a text between tags stands for. -/
def undoReferences (written : List Char) : List Char := undoWithin written.length written

theorem undoWithin_reference {name value : List Char}
    (read : ∀ rest, readReference false (name ++ rest) = some (value, rest)) {bound : Nat}
    (rest : List Char) (enough : ('&' :: name ++ rest).length ≤ bound + 1) :
    undoWithin (bound + 1) ('&' :: name ++ rest) = value ++ undoWithin bound rest ∧
      rest.length ≤ bound := by
  rw [List.cons_append, List.length_cons, List.length_append] at enough
  rw [List.cons_append, undoWithin, read]
  exact ⟨rfl, by omega⟩

end Bindery.Html

namespace Bindery.Snippet

open Html

theorem undoWithin_folded {write : Char → List Char} (escaped : Escapes write) (text : List Char)
    {bound : Nat} (enough : (text.flatMap (foldedChar write)).length ≤ bound) :
    undoWithin bound (text.flatMap (foldedChar write)) = text := by
  induction text generalizing bound with
  | nil => cases bound <;> rfl
  | cons c text ih =>
      -- A character is written as it is, or as a reference that is read back wherever it stands.
      have one : (foldedChar write c = [c] ∧ c ≠ '&') ∨ ∃ name, foldedChar write c = '&' :: name ∧
          ∀ rest, readReference false (name ++ rest) = some ([c], rest) := by
        unfold foldedChar
        split
        · next feed => exact .inr ⟨_, rfl, fun rest => feed ▸ readReference_lineFeed false rest⟩
        · refine (escaped c).imp id ?_
          rintro ⟨name, written, member⟩
          exact ⟨name, written, readReference_escape member false⟩
      have some : 0 < (foldedChar write c).length := by
        rcases one with ⟨plain, -⟩ | ⟨name, written, -⟩
        · simp [plain]
        · simp [written]
      rw [List.flatMap_cons] at enough ⊢
      obtain ⟨bound, rfl⟩ : ∃ fewer, bound = fewer + 1 := by
        rw [List.length_append] at enough
        exact ⟨bound - 1, by omega⟩
      rcases one with ⟨plain, sign⟩ | ⟨name, written, read⟩
      · rw [plain, List.singleton_append, List.length_cons] at enough
        rw [plain, List.singleton_append, undoWithin, ih (Nat.le_of_succ_le_succ enough)]
        exact sign
      · rw [written] at enough ⊢
        obtain ⟨undone, fewer⟩ := undoWithin_reference read _ enough
        rw [undone, ih fewer, List.singleton_append]

theorem undoReferences_folded {write : Char → List Char} (escaped : Escapes write)
    (text : List Char) : undoReferences (text.flatMap (foldedChar write)) = text :=
  undoWithin_folded escaped text (Nat.le_refl _)

example : undoReferences "a &lt; b &amp;lt;&#10;&nbsp;c".toList =
    "a < b &lt;\n\u00a0c".toList := by decide +kernel

/-! ## Texts without line endings -/

theorem foldedChar_of_plain {write : Char → List Char} {text : List Char} (plain : '\n' ∉ text) :
    text.flatMap (foldedChar write) = text.flatMap write :=
  List.flatMap_congr fun _ member => if_neg (ne_of_mem_of_not_mem member plain)

theorem shownText_of_plain {text : List Char} (null : '\x00' ∉ text) (plain : '\r' ∉ text) :
    shownText text = text := by
  have whole := lineFeeds_append_of_not_mem [] plain
  rw [List.append_nil, lineFeeds, List.append_nil] at whole
  rw [shownText, whole, List.filter_eq_self]
  exact fun c member => decide_eq_true (ne_of_mem_of_not_mem member null)

theorem shownValue_of_plain {text : List Char} (null : '\x00' ∉ text) (plain : '\r' ∉ text) :
    shownValue text = text := by
  have whole := lineFeeds_append_of_not_mem [] plain
  rw [List.append_nil, lineFeeds, List.append_nil] at whole
  have kept : ∀ c ∈ text, withoutNull c = c :=
    fun c member => if_neg (ne_of_mem_of_not_mem member null)
  rw [shownValue, whole, List.map_congr_left kept, List.map_id']

namespace Engine

variable {engine : Engine} {directive : Directive} {header body : List Char}

theorem lineEnd_not_mem_language (plain : Bool) (header : List Char) {c : Char}
    (ends : c = '\n' ∨ c = '\r') : c ∉ (language plain (Directive.parse header)).toList := by
  have text : c ∉ "text".toList := by rcases ends with rfl | rfl <;> decide
  unfold language
  cases plain with
  | true => exact text
  | false =>
      cases named : (Directive.parse header).language with
      | none => exact text
      | some name =>
          have inside : c ∉ name := fun member => Directive.lineEnd_not_mem_written header ends
            (Directive.language_subset_written named member)
          simpa using inside

/-- What fails in a sequence of two is the first or the second of them. -/
theorem bind_eq_error {α β : Type} {first : Except SnippetError α}
    {second : α → Except SnippetError β} {error : SnippetError}
    (failed : (first >>= second) = .error error) :
    first = .error error ∨ ∃ value, first = .ok value ∧ second value = .error error := by
  cases first with
  | error other =>
      cases failed
      exact .inl rfl
  | ok value => exact .inr ⟨value, rfl, failed⟩

/-- The errors of a part of a file name what was asked for. -/
inductive Unselected (reference : List Char) : SnippetError → Prop where
  | block : Unselected reference (.missingBlock (String.ofList reference))
  | range : Unselected reference (.invalidRange (String.ofList reference))

theorem unselected_of_extractRange {content reference : List Char} {error : SnippetError}
    (failed : extractRange content reference = .error error) : Unselected reference error := by
  rcases bind_eq_error failed with unread | ⟨range, -, missed⟩
  · rw [LineRange.parse] at unread
    split at unread
    · cases unread
    · cases unread
      exact .range
  · split at missed
    · cases missed
    · cases missed
      exact .range

theorem unselected_of_extractBlock {content name : List Char} {error : SnippetError}
    (failed : extractBlock content name = .error error) : Unselected name error := by
  rw [extractBlock] at failed
  split at failed
  · cases failed
  · cases failed
    exact .block

theorem unselected_of_select {content : List Char} {error : SnippetError}
    (failed : directive.select content = .error error) :
    Unselected (directive.reference.getD []) error := by
  rw [Directive.select] at failed
  split at failed
  · exact unselected_of_extractRange failed
  · exact unselected_of_extractBlock failed
  · cases failed
  · cases failed

/-- An error names the file, or the part of it that was asked for. -/
theorem resolve_eq_error {error : SnippetError}
    (failed : engine.resolve directive body = .error error) :
    (∃ file, directive.file = some file ∧ error = .missingFile (String.ofList file)) ∨
      Unselected (directive.reference.getD []) error := by
  rw [resolve] at failed
  split at failed
  · cases failed
  · next file named =>
      rcases bind_eq_error failed with unread | ⟨content, -, later⟩
      · rw [readCode] at unread
        split at unread
        · cases unread
        · cases unread
          exact .inl ⟨file, named, rfl⟩
      · rcases bind_eq_error later with missed | ⟨code, -, ended⟩
        · exact .inr (unselected_of_select missed)
        · cases ended

/-- The message of an error is one line. -/
theorem lineEnd_not_mem_message {error : SnippetError} (header : List Char)
    (failed : engine.resolve (Directive.parse header) body = .error error) {c : Char}
    (ends : c = '\n' ∨ c = '\r') : c ∉ error.message.toList := by
  have written := Directive.lineEnd_not_mem_written header ends
  have around : ∀ {opening closing : String} {name : List Char}, c ∉ name →
      (∀ text ∈ [opening, closing], '\n' ∉ text.toList ∧ '\r' ∉ text.toList) →
        c ∉ (opening ++ String.ofList name ++ closing).toList := by
    intro opening closing name inside fixed
    have plain : ∀ text ∈ [opening, closing], c ∉ text.toList := fun text member =>
      ends.elim (fun same => same ▸ (fixed text member).1) fun same => same ▸ (fixed text member).2
    simp only [List.forall_mem_cons] at plain
    simp [plain, inside]
  rcases resolve_eq_error failed with ⟨file, named, rfl⟩ | unselected
  · have inside : c ∉ file := fun member => written (Directive.file_subset_written named member)
    exact around inside (by decide)
  · have inside : c ∉ (Directive.parse header).reference.getD [] := fun member =>
      written (Directive.reference_subset_written _ member)
    cases unselected <;> exact around inside (by decide)

/-- What stands in the chapter for a snippet of plain code, if the name of its language has no
character zero. -/
theorem renderSnippet_markup (plainly : engine.highlighter = plainHighlighter) {format : Format}
    (html : format ≠ .textile) (plain : Bool) (inset : List Char)
    (null : '\x00' ∉ (language plain (Directive.parse (Inset.headerAndBody inset).1)).toList) :
    let directive := Directive.parse (Inset.headerAndBody inset).1
    let code := engine.shownCode directive (Inset.headerAndBody inset).2
    engine.renderSnippet format plain inset = Fragment.markup
      ⟨directive.file.map fun file => ("./code/".toList ++ file).flatMap escapeTextChar,
        (language plain directive).toList.flatMap escapeValueChar,
        (shownText code).flatMap (foldedChar escapeTextChar)⟩ := by
  intro directive code
  have written : ∀ {c}, c = '\n' ∨ c = '\r' → c ∉ directive.written :=
    Directive.lineEnd_not_mem_written _
  have named : ∀ {c}, c = '\n' ∨ c = '\r' → c ∉ (language plain directive).toList :=
    lineEnd_not_mem_language plain _
  have caption : (directive.file.map fun file =>
      ("./code/".toList ++ file).flatMap (foldedChar escapeTextChar)) =
        directive.file.map fun file => ("./code/".toList ++ file).flatMap escapeTextChar := by
    refine Option.map_congr fun file shown => foldedChar_of_plain ?_
    have folder : '\n' ∉ "./code/".toList := by decide
    rw [List.mem_append, not_or]
    exact ⟨folder, fun member => written (.inl rfl) (Directive.file_subset_written shown member)⟩
  have same : (engine.fragment plain inset).written format =
      (engine.fragment plain inset).markup := by
    cases format with
    | textile => exact absurd rfl html
    | markdown => rfl
    | html => rfl
  rw [renderSnippet_eq plainly, same, fragment]
  dsimp only
  rw [caption, shownValue_of_plain null (named (.inr rfl)), foldedChar_of_plain (named (.inl rfl))]

/-- What a snippet of plain code shows is its code. In a chapter of Markdown or HTML it is one line:
a wrapper that holds the name of the file, if the header has one, and then the code with the name of
the language. Undoing the references of the code gives it back, or the message if there is none. -/
theorem render_shows_code (codeRoot : String) (reader : Reader) (plain : Bool) (text : String)
    {format : Format} (html : format ≠ .textile) :
    let engine : Engine := ⟨codeRoot, reader, plainHighlighter⟩
    (engine.render format plain text).toList = (Inset.parts marker text.toList).flatMap
        (Inset.Part.written (engine.renderSnippet format plain)) ∧
      ∀ header body inset, Inset.headerAndBody inset = (header, body) →
        let directive := Directive.parse header
        let name := if plain then "text".toList else directive.language.getD "text".toList
        '\x00' ∉ name → ∃ code,
          engine.renderSnippet format plain inset = Fragment.markup
            ⟨directive.file.map fun file => ("./code/".toList ++ file).flatMap escapeTextChar,
              name.flatMap escapeValueChar, code⟩ ∧
          '\n' ∉ engine.renderSnippet format plain inset ∧
          '\r' ∉ engine.renderSnippet format plain inset ∧
          (∀ resolved, engine.resolve directive body = .ok resolved →
            '\x00' ∉ resolved → '\r' ∉ resolved →
              code = resolved.flatMap (foldedChar escapeTextChar) ∧
                undoReferences code = resolved) ∧
          ∀ error, engine.resolve directive body = .error error →
            '\x00' ∉ error.message.toList →
              code = error.message.toList.flatMap escapeTextChar ∧
                undoReferences code = error.message.toList := by
  intro engine
  refine ⟨toList_render_eq engine format plain text, fun header body inset split => ?_⟩
  intro directive name null
  have named : name = (language plain directive).toList := by
    cases plain with
    | true => rfl
    | false => cases spoken : directive.language <;> simp [name, language, spoken]
  have shown := @renderSnippet_markup engine rfl format html plain inset <| by
    rw [split]
    exact named ▸ null
  have oneLine : ∀ c, c = '\n' ∨ c = '\r' → c ∉ engine.renderSnippet format plain inset := by
    intro c ends
    rw [renderSnippet_eq rfl]
    exact (sealed_fragment engine plain inset).oneLine ends format
  dsimp only at shown
  rw [split, ← named] at shown
  refine ⟨_, shown, oneLine _ (.inl rfl), oneLine _ (.inr rfl), ?_, ?_⟩
  · intro resolved found null plain
    have same : engine.shownCode directive body = resolved := by rw [shownCode, found]
    rw [same, shownText_of_plain null plain]
    exact ⟨rfl, undoReferences_folded escapes_text resolved⟩
  · intro error failed null
    have same : engine.shownCode directive body = error.message.toList := by rw [shownCode, failed]
    have plain := lineEnd_not_mem_message header failed (.inr (Eq.refl '\r'))
    have line := lineEnd_not_mem_message header failed (.inl (Eq.refl '\n'))
    rw [same, shownText_of_plain null plain]
    exact ⟨foldedChar_of_plain line, undoReferences_folded escapes_text _⟩

/-- A file that begins with a blank line and has references of its own. -/
def referringSource : String := "\nif (a &lt; b)\n\n\u00a0\tc &= d;\n"

def referringEngine : Engine := ⟨"code", fun _ => .ok referringSource, plainHighlighter⟩

theorem render_shows_code_referring : ∃ code,
    referringEngine.renderSnippet .markdown false "c a.c\n".toList =
      Fragment.markup ⟨some "./code/a.c".toList, "c".toList, code⟩ ∧
    code = "&#10;if (a &amp;lt; b)&#10;&#10;&nbsp;\tc &amp;= d;".toList ∧
    undoReferences code = "\nif (a &lt; b)\n\n\u00a0\tc &= d;".toList := by
  have split : Inset.headerAndBody "c a.c\n".toList = ("c a.c".toList, []) := by decide
  have parsed : Directive.parse "c a.c".toList =
      ⟨some "c".toList, some "a.c".toList, .wholeFile, none⟩ := by decide +kernel
  have resolved : referringEngine.resolve (Directive.parse "c a.c".toList) [] =
      .ok "\nif (a &lt; b)\n\n\u00a0\tc &= d;".toList := by decide +kernel
  have html : Format.markdown ≠ .textile := by decide
  obtain ⟨-, each⟩ := render_shows_code "code" (fun _ => .ok referringSource) false
    "@@@c a.c\n@@@" html
  obtain ⟨code, written, -, -, shown, -⟩ := each _ _ _ split (by rw [parsed]; decide)
  obtain ⟨same, undone⟩ := shown _ resolved (by decide) (by decide)
  rw [parsed] at written
  exact ⟨code, written.trans rfl, same.trans (by decide), undone⟩

end Engine

end Bindery.Snippet
