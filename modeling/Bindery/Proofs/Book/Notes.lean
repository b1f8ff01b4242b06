import Bindery.Proofs.Book.Document
import Bindery.Proofs.Footnote.Shown

/-!
# The notes of an edition

The notes of an edition are those of its chapters, as one document, and of its changelog.
Their number is that of the notes in its text exactly if each of them has an id that the
text shows.
-/

set_option autoImplicit false

namespace Bindery.Book

open Files (FileTree)
open Footnote (ReadAs CountsNotes Source Written Marker Settled countAll numbersShown)
open Html (TidyBody)

/-- The text of the changelog, if there is one. -/
def changelogTexts (settings : Settings) (tree : FileTree) : Except BookError (List String) :=
  match changelog? settings tree with
  | none => .ok []
  | some path =>
      match (pipeline settings tree).renderFile true path with
      | .error cause => .error (.chapter "CHANGELOG" cause)
      | .ok fragment => .ok [wrap "chapter changelog" fragment]

/-- The texts of a book whose notes are counted, one after the other. -/
def texts (config : Config) (tree : FileTree) : Except BookError (List String) := do
  let settings := config.settings
  let chapters ← Discovery.chapters tree settings.textPath
  let fragments ← chapters.mapM ((pipeline settings tree).renderNamed settings.plainSyntax)
  (changelogTexts settings tree).map (String.intercalate separator fragments :: ·)

/-- The text of an edition comes out of these texts, and its notes are theirs. -/
inductive Edition.ComesFrom (edition : Edition) : List Source → Prop where
  | document {document : Source} {result : Footnote.Reconciled} :
      Written document.text document.body (document.renumbered 1) result →
      edition.html = result.html → edition.stats.notes = document.count →
      edition.ComesFrom [document]
  | changelog {document changelog : Source} {first second : Footnote.Reconciled} :
      Written document.text document.body (document.renumbered 1) first →
      Written changelog.text changelog.body (changelog.renumbered (1 + document.count)) second →
      edition.html = (append first second).html →
      edition.stats.notes = document.count + changelog.count →
      edition.ComesFrom [document, changelog]

theorem exists_source {text : String} {counter after : Footnote.Counter}
    {result : Footnote.Reconciled}
    (reconciled : Footnote.reconcile text counter = .ok (result, after)) :
    ∃ source : Source, source.text = text ∧ result.definitions = source.count ∧
      after = counter.advance source.count ∧
      Written source.text source.body (source.renumbered counter.next) result := by
  cases parsed : Html.parseBody? text with
  | none =>
      rw [Footnote.reconcile, parsed] at reconciled
      cases reconciled
  | some body =>
      obtain ⟨other, ran, written, numbered, -⟩ := Footnote.reconcile_eq counter parsed
      rw [ran] at reconciled
      cases reconciled
      exact ⟨⟨text, body, parsed⟩, rfl, numbered, rfl, written⟩

section

variable {config : Config} {tree : FileTree} {edition : Edition}

theorem texts_of_rendered {chapters : List Chapter} {fragments : List String}
    (found : Discovery.chapters tree config.settings.textPath = .ok chapters)
    (rendered : chapters.mapM
      ((pipeline config.settings tree).renderNamed config.settings.plainSyntax) = .ok fragments) :
    texts config tree =
      (changelogTexts config.settings tree).map (String.intercalate separator fragments :: ·) := by
  simp only [texts, found, rendered, bind, Except.bind]

/-- A document with its changelog is the document alone, or the changelog has been rendered and
stands behind it. -/
theorem cases_withChangelog {settings : Settings} {first whole : Footnote.Reconciled}
    {counter : Footnote.Counter}
    (added : withChangelog (pipeline settings tree) (changelog? settings tree) (first, counter) =
      .ok whole) :
    (changelogTexts settings tree = .ok [] ∧ whole = first) ∨
      ∃ text log after, changelogTexts settings tree = .ok [text] ∧
        Footnote.reconcile text counter = .ok (log, after) ∧ whole = append first log := by
  unfold changelogTexts
  cases named : changelog? settings tree with
  | none =>
      rw [named] at added
      cases added
      exact .inl ⟨rfl, rfl⟩
  | some path =>
      rw [named] at added
      obtain ⟨log, logged, rfl⟩ := map_eq_ok added
      unfold renderChangelog at logged
      cases ran : (pipeline settings tree).renderFile true path with
      | error cause =>
          rw [ran] at logged
          cases logged
      | ok fragment =>
          rw [ran] at logged
          obtain ⟨⟨_, after⟩, reconciled, rfl⟩ := map_eq_ok logged
          exact .inr ⟨_, _, after, by simp only [ran], reconciled, rfl⟩

/-- An edition is made of the texts of its book. -/
theorem exists_sources (made : (make config tree).2 = .ok edition) :
    ∃ sources : List Source, texts config tree = .ok (sources.map (·.text)) ∧
      edition.ComesFrom sources := by
  cases found : Discovery.chapters tree config.settings.textPath with
  | error error =>
      rw [make, makeWith_of_undiscovered found] at made
      cases made
  | ok chapters =>
      cases done : (doInOrder (chapterWork config tree) (Job.ofChapters chapters)).2 with
      | error error =>
          rw [(make_of_failed found done).1] at made
          cases made
      | ok rendered =>
          have fragments := map_html_doInOrder config tree chapters
          rw [done] at fragments
          rw [texts_of_rendered found fragments.symm]
          rw [make_of_rendered found done, Pipeline.renderDocument, ← fragments] at made
          obtain ⟨⟨first, counter⟩, numbered, added⟩ := bind_eq_ok made
          obtain ⟨document, same, counted, rfl, written⟩ := exists_source numbered
          obtain ⟨whole, joined, rfl⟩ := map_eq_ok added
          rw [← same]
          rcases cases_withChangelog joined with ⟨none, rfl⟩ | ⟨text, log, after, one, ran, rfl⟩
          · rw [none]
            exact ⟨[document], rfl, .document written rfl counted⟩
          · obtain ⟨changelog, rfl, countedLog, -, writtenLog⟩ := exists_source ran
            rw [one]
            refine ⟨[document, changelog], rfl, .changelog written writtenLog rfl ?_⟩
            rw [← counted, ← countedLog]
            rfl

theorem Edition.ComesFrom.notes {sources : List Source} (made : edition.ComesFrom sources) :
    edition.stats.notes = countAll sources := by
  cases made with
  | document written html notes => simpa [countAll] using notes
  | changelog first second html notes => simpa [countAll] using notes

/-- Tidy texts are read back from the edition, one after the other. -/
theorem Edition.ComesFrom.readAs {sources : List Source} (made : edition.ComesFrom sources)
    (tidy : ∀ source ∈ sources, source.IsTidy) :
    ReadAs edition.html (numbersShown 1 sources) := by
  cases made with
  | @document document result written html notes =>
      have own := tidy document List.mem_cons_self
      rw [html, numbersShown, numbersShown, Set.union_empty]
      exact document.readAs (.inr own.body) written
  | @changelog document changelog first second written writtenLog html notes =>
      have own := tidy document List.mem_cons_self
      have log := tidy changelog (List.mem_cons_of_mem _ List.mem_cons_self)
      have body := Footnote.tidyBody_reconcileTree 1 own.body
      have some := Footnote.children_reconcileTree_ne_nil 1 own.some
      have joined := body.join (Footnote.tidyBody_reconcileTree (1 + document.count) log.body) some
        (Footnote.children_reconcileTree_ne_nil (1 + document.count) log.some)
        (show '\r' ∉ separator.toList by decide)
      have present : (document.renumbered 1).inner ≠ "" := by
        obtain ⟨rest, begins⟩ := body.exists_write some
        intro empty
        rw [← Html.Tree.inner, ← Source.renumbered, empty] at begins
        cases begins
      have between : Html.Tree.write .outside (.text separator) = separator := by decide
      have read := Footnote.readAs_of_tidyBody joined
      rw [Html.Tree.labelsAll_append, Footnote.noteNumbers_append, Html.Tree.writeAll_append,
        Html.Tree.writeAll, between, ← String.append_assoc] at read
      rw [html, append, own.inner written, log.inner writtenLog, if_neg present, numbersShown,
        numbersShown, numbersShown, Set.union_empty]
      exact read

end

/-- The notes that are counted in a text, or in a book, are those that are read from what comes out,
if that is read as it was written, exactly if each note has an id below the body. Tidy markup is
read as it was written. -/
theorem notes_counted_iff_shown (counter : Footnote.Counter) (config : Config) (tree : FileTree) :
    (∀ html result after, Footnote.reconcile html counter = .ok (result, after) →
      counter.next + result.definitions < Marker.limit →
      ∃ source : Source, source.text = html ∧ result.definitions = source.count ∧
        (ReadAs result.html (source.numbersShown counter.next) →
          (CountsNotes result.html counter.next result.definitions ↔ source.ShowsNotes)) ∧
        (Settled source.body ∨ TidyBody source.body.children →
          ReadAs result.html (source.numbersShown counter.next))) ∧
    ∀ edition, (make config tree).2 = .ok edition → 1 + edition.stats.notes < Marker.limit →
      ∃ sources : List Source, texts config tree = .ok (sources.map (·.text)) ∧
        edition.stats.notes = countAll sources ∧
        (ReadAs edition.html (numbersShown 1 sources) →
          (CountsNotes edition.html 1 edition.stats.notes ↔
            ∀ source ∈ sources, source.ShowsNotes)) ∧
        ((∀ source ∈ sources, source.IsTidy) → ReadAs edition.html (numbersShown 1 sources)) := by
  constructor
  · intro html result after reconciled bound
    obtain ⟨source, same, counted, -, written⟩ := exists_source reconciled
    refine ⟨source, same, counted, fun read => ?_, fun tidy => source.readAs tidy written⟩
    rw [counted] at bound ⊢
    rw [read.countsNotes_iff]
    exact source.numbersShown_eq_iff counter.next_pos bound
  · intro edition made bound
    obtain ⟨sources, listed, comes⟩ := exists_sources made
    refine ⟨sources, listed, comes.notes, fun read => ?_, comes.readAs⟩
    rw [comes.notes] at bound ⊢
    rw [read.countsNotes_iff]
    exact Footnote.numbersShown_eq_iff Nat.one_pos bound

/-- A book of one chapter and a changelog, each with a note. -/
def notedBook : FileTree := .ofList [] [
  (["text", "a.html"], .file (some "<p id=\"fn7\">a</p>")),
  (["text", "CHANGELOG.html"], .file (some "<p id=\"fn1\">c</p>"))]

def plainConfig : Config := ⟨{}, by decide⟩

def notedChapter : Source where
  text := "<div class=\"chapter\">\n<div class=\"chapter-file\">\n" ++
    "<p id=\"fn7\">a</p>\n</div>\n</div>"
  body := .element (.ofName "body" []) [
    .element (.ofName "div" [("class", "chapter")]) [.text "\n",
      .element (.ofName "div" [("class", "chapter-file")]) [.text "\n",
        .element (.ofName "p" [("id", "fn7")]) [.text "a"], .text "\n"],
      .text "\n"]]
  parsed := by decide +kernel

def notedChangelog : Source where
  text := "<div class=\"chapter changelog\">\n<p id=\"fn1\">c</p>\n</div>"
  body := .element (.ofName "body" []) [
    .element (.ofName "div" [("class", "chapter changelog")]) [.text "\n",
      .element (.ofName "p" [("id", "fn1")]) [.text "c"], .text "\n"]]
  parsed := by decide +kernel

def notedEdition : Edition where
  html := "<div class=\"chapter\">\n<div class=\"chapter-file\">\n" ++
    "<p id=\"fn1\">a</p>\n</div>\n</div>\n\n" ++
    "<div class=\"chapter changelog\">\n<p id=\"fn2\">c</p>\n</div>"
  chapters := [⟨1, "a.html", ["./text/a.html"], 80⟩]
  changelog := some "./text/CHANGELOG.html"
  stats := ⟨1, 1, 2, 0⟩

theorem sortedNames_notedBook :
    Discovery.sortedNames notedBook plainConfig.settings.textPath =
      ["CHANGELOG.html", "a.html"] := by
  have listed : notedBook.list plainConfig.settings.textPath = ["CHANGELOG.html", "a.html"] := by
    decide
  rw [Discovery.sortedNames, listed]
  exact List.mergeSort_of_pairwise (by decide)

theorem chapters_notedBook :
    Discovery.chapters notedBook plainConfig.settings.textPath =
      .ok [⟨"a.html", ["./text/a.html"]⟩] := by
  have directory : notedBook.isDirectory plainConfig.settings.textPath = true := by
    decide
  rw [Discovery.chapters, if_pos directory, sortedNames_notedBook]
  decide

theorem changelog?_notedBook :
    changelog? plainConfig.settings notedBook = some "./text/CHANGELOG.html" := by
  rw [changelog?, Discovery.changelog?, sortedNames_notedBook]
  decide

theorem make_notedBook : (make plainConfig notedBook).2 = .ok notedEdition := by
  rw [make_snd chapters_notedBook]
  unfold assemble
  rw [changelog?_notedBook]
  decide +kernel

theorem texts_notedBook :
    texts plainConfig notedBook = .ok [notedChapter.text, notedChangelog.text] := by
  have rendered : [(⟨"a.html", ["./text/a.html"]⟩ : Chapter)].mapM
      ((pipeline plainConfig.settings notedBook).renderNamed plainConfig.settings.plainSyntax) =
        .ok [notedChapter.text] := by
    decide
  rw [texts_of_rendered chapters_notedBook rendered, changelogTexts, changelog?_notedBook]
  decide

/-- The chapter alone, counted from five, and the book with its changelog have the notes that are
counted. -/
theorem notes_counted_notedBook :
    let counter := Footnote.Counter.start.advance 4
    (∃ result after, Footnote.reconcile notedChapter.text counter = .ok (result, after) ∧
      result.definitions = 1 ∧ CountsNotes result.html 5 1) ∧
    (make plainConfig notedBook).2 = .ok notedEdition ∧ notedEdition.stats.notes = 2 ∧
      CountsNotes notedEdition.html 1 2 := by
  intro counter
  obtain ⟨single, whole⟩ := notes_counted_iff_shown counter plainConfig notedBook
  have chapter : notedChapter.IsTidy := ⟨by decide, by decide +kernel, fun _ => by decide +kernel⟩
  have changelog : notedChangelog.IsTidy :=
    ⟨by decide, by decide +kernel, fun _ => by decide +kernel⟩
  have shown : notedChapter.ShowsNotes := Source.showsNotes_of_unnoted (by decide)
  have logShown : notedChangelog.ShowsNotes := Source.showsNotes_of_unnoted (by decide)
  constructor
  · obtain ⟨result, ran, -, numbered, -⟩ := Footnote.reconcile_eq counter notedChapter.parsed
    have one : (Footnote.notesOf notedChapter.body).length = 1 := by decide +kernel
    rw [one] at ran numbered
    obtain ⟨source, same, -, counts, reads⟩ := single _ _ _ ran (by rw [numbered]; decide)
    obtain rfl := Source.eq_of_text same
    rw [numbered] at counts
    exact ⟨result, _, ran, numbered, (counts (reads (.inr chapter.body))).mpr shown⟩
  · obtain ⟨sources, listed, -, counts, reads⟩ := whole notedEdition make_notedBook (by decide)
    rw [texts_notedBook] at listed
    obtain ⟨first, others, rfl, same, rest⟩ := List.map_eq_cons_iff.mp (Except.ok.inj listed).symm
    obtain ⟨second, none, rfl, sameLog, rest⟩ := List.map_eq_cons_iff.mp rest
    obtain rfl := List.map_eq_nil_iff.mp rest
    obtain rfl := Source.eq_of_text same
    obtain rfl := Source.eq_of_text sameLog
    have tidy : ∀ source ∈ [notedChapter, notedChangelog], source.IsTidy := by
      simp [chapter, changelog]
    refine ⟨make_notedBook, rfl, (counts (reads tidy)).mpr ?_⟩
    simp [shown, logShown]

end Bindery.Book
