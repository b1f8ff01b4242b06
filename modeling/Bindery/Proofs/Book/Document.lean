import Bindery.Proofs.Book.Edition
import Bindery.Proofs.Outcome

/-!
# An edition is a document and its changelog

The text of an edition and its totals are those of its chapters rendered as one
document, whose notes are counted from one. The changelog stands behind the document
and takes the numbers that come next.
-/

set_option autoImplicit false

namespace Bindery.Book

open Files (FileTree)

/-- The edition reports these chapters, in their order and counted from one. -/
structure Edition.Reports (edition : Edition) (pipeline : Pipeline) (plain : Bool)
    (chapters : List Chapter) : Prop where
  length : edition.chapters.length = chapters.length
  report : ∀ position chapter, chapters[position]? = some chapter →
    ∃ html, pipeline.renderChapter plain chapter = .ok html ∧
      edition.chapters[position]? = some
        (ChapterReport.mk (position + 1) chapter.name chapter.files html.utf8ByteSize)
  chapterCount : edition.stats.chapters = chapters.length
  fileCount : edition.stats.files = (chapters.flatMap (·.files)).length

/-- The edition has the text and the totals of the document. -/
structure Edition.Shows (edition : Edition) (document : Footnote.Reconciled) : Prop where
  html : edition.html = document.html
  notes : edition.stats.notes = document.definitions
  danglingLinks : edition.stats.danglingLinks = document.danglingLinks

section

variable {config : Config} {tree : FileTree} {chapters : List Chapter} {rendered : List Rendered}

theorem conclude_chapterWork (job : Job) :
    (job.conclude (chapterWork config tree job)).map (·.html) =
      (pipeline config.settings tree).renderNamed config.settings.plainSyntax job.chapter := by
  rw [chapterWork, Pipeline.renderNamed]
  cases (pipeline config.settings tree).renderChapter config.settings.plainSyntax job.chapter with
  | ok html => rfl
  | error cause => rfl

theorem getElem?_ofChapters (chapters : List Chapter) (position : Nat) :
    (Job.ofChapters chapters)[position]? =
      chapters[position]?.map (Job.mk (position + 1) chapters.length) :=
  List.getElem?_mapIdx

theorem map_chapter_ofChapters (chapters : List Chapter) :
    (Job.ofChapters chapters).map (·.chapter) = chapters := by
  refine List.ext_getElem? fun position => ?_
  rw [List.getElem?_map, getElem?_ofChapters, Option.map_map]
  cases chapters[position]? <;> rfl

/-- The chapters that are rendered job by job are those of the document. -/
theorem map_html_doInOrder (config : Config) (tree : FileTree) (chapters : List Chapter) :
    (doInOrder (chapterWork config tree) (Job.ofChapters chapters)).2.map (List.map (·.html)) =
      chapters.mapM
        ((pipeline config.settings tree).renderNamed config.settings.plainSyntax) := by
  calc
    (doInOrder (chapterWork config tree) (Job.ofChapters chapters)).2.map (List.map (·.html))
      = (Job.ofChapters chapters).mapM fun job =>
          (pipeline config.settings tree).renderNamed config.settings.plainSyntax job.chapter := by
        rw [doInOrder_snd, map_mapM]
        exact congrArg (List.mapM · _) (funext conclude_chapterWork)
    _ = ((Job.ofChapters chapters).map (·.chapter)).mapM
          ((pipeline config.settings tree).renderNamed config.settings.plainSyntax) := by
        rw [List.mapM_map]
        rfl
    _ = _ := by rw [map_chapter_ofChapters]

/-- A job that is done reports its chapter. -/
theorem report_of_conclude {job : Job} {done : Rendered}
    (concluded : job.conclude (chapterWork config tree job) = .ok done) :
    ∃ html, (pipeline config.settings tree).renderChapter config.settings.plainSyntax job.chapter =
        .ok html ∧
      done.report = ⟨job.index, job.chapter.name, job.chapter.files, html.utf8ByteSize⟩ := by
  rw [chapterWork] at concluded
  cases result : (pipeline config.settings tree).renderChapter config.settings.plainSyntax
      job.chapter with
  | error cause =>
      rw [result] at concluded
      cases concluded
  | ok html =>
      rw [result] at concluded
      cases concluded
      exact ⟨html, rfl, rfl⟩

/-- The edition that rendered chapters make with the document of their text. -/
def ofDocument (rendered : List Rendered) (changelog : Option String)
    (document : Footnote.Reconciled) : Edition where
  html := document.html
  chapters := rendered.map (·.report)
  changelog
  stats := {
    chapters := (rendered.map (·.report)).length
    files := ((rendered.map (·.report)).flatMap (·.files)).length
    notes := document.definitions
    danglingLinks := document.danglingLinks }

theorem shows_ofDocument (rendered : List Rendered) (changelog : Option String)
    (document : Footnote.Reconciled) : (ofDocument rendered changelog document).Shows document where
  html := rfl
  notes := rfl
  danglingLinks := rfl

theorem reports_ofDocument (changelog : Option String) (document : Footnote.Reconciled)
    (done : (doInOrder (chapterWork config tree) (Job.ofChapters chapters)).2 = .ok rendered) :
    (ofDocument rendered changelog document).Reports (pipeline config.settings tree)
      config.settings.plainSyntax chapters := by
  rw [doInOrder_snd] at done
  have length : (rendered.map (·.report)).length = chapters.length := by
    rw [List.length_map, length_of_mapM done, length_ofChapters]
  have report : ∀ position chapter, chapters[position]? = some chapter →
      ∃ html, (pipeline config.settings tree).renderChapter config.settings.plainSyntax chapter =
          .ok html ∧
        (rendered.map (·.report))[position]? = some
          (ChapterReport.mk (position + 1) chapter.name chapter.files html.utf8ByteSize) := by
    intro position chapter found
    have job : (Job.ofChapters chapters)[position]? =
        some ⟨position + 1, chapters.length, chapter⟩ := by
      rw [getElem?_ofChapters, found]
      rfl
    obtain ⟨result, concluded, collected⟩ := getElem?_of_mapM done job
    obtain ⟨html, ran, reported⟩ := report_of_conclude concluded
    refine ⟨html, ran, ?_⟩
    rw [List.getElem?_map, collected, Option.map_some, reported]
  have files : (rendered.map (·.report)).map (·.files) = chapters.map (·.files) := by
    refine List.ext_getElem (by simpa using length) fun position _ inside => ?_
    rw [List.length_map] at inside
    obtain ⟨html, -, reported⟩ := report position _ (List.getElem?_eq_getElem inside)
    rw [List.getElem_map, (List.getElem?_eq_some_iff.mp reported).2, List.getElem_map]
  refine ⟨length, report, length, ?_⟩
  rw [List.flatMap_def, ← files, ← List.flatMap_def]
  rfl

/-- An edition is put together from the document of its chapters. -/
theorem make_of_rendered
    (found : Discovery.chapters tree config.settings.textPath = .ok chapters)
    (done : (doInOrder (chapterWork config tree) (Job.ofChapters chapters)).2 = .ok rendered) :
    (make config tree).2 =
      ((pipeline config.settings tree).renderDocument config.settings.plainSyntax chapters
          .start).bind fun numbered =>
        (withChangelog (pipeline config.settings tree) (changelog? config.settings tree)
          numbered).map (ofDocument rendered (changelog? config.settings tree)) := by
  have fragments := map_html_doInOrder config tree chapters
  rw [done] at fragments
  rw [make_snd found, done, Pipeline.renderDocument, ← fragments]
  rfl

/-- A book whose chapters cannot be rendered fails as their document does. -/
theorem make_of_failed {error : BookError}
    (found : Discovery.chapters tree config.settings.textPath = .ok chapters)
    (failed : (doInOrder (chapterWork config tree) (Job.ofChapters chapters)).2 = .error error) :
    (make config tree).2 = .error error ∧
      (pipeline config.settings tree).renderDocument config.settings.plainSyntax chapters .start =
        .error error := by
  have fragments := map_html_doInOrder config tree chapters
  rw [failed] at fragments
  rw [make_snd found, failed, Pipeline.renderDocument, ← fragments]
  exact ⟨rfl, rfl⟩

end

/-- A book is exported as the document of the chapters that are found, with the same error
if there is one, and with its changelog behind it. -/
theorem make_agrees_with_renderDocument (config : Config) (tree : FileTree) :
    let settings := config.settings
    let exported := (make config tree).2
    match Discovery.chapters tree settings.textPath with
    | .error error => exported = .error error
    | .ok chapters =>
        match (pipeline settings tree).renderDocument settings.plainSyntax chapters .start with
        | .error error => exported = .error error
        | .ok (document, counter) =>
            match changelog? settings tree with
            | none => ∃ edition, exported = .ok edition ∧ edition.changelog = none ∧
                edition.Shows document ∧
                edition.Reports (pipeline settings tree) settings.plainSyntax chapters
            | some path =>
                match (pipeline settings tree).renderFile true path with
                | .error cause => exported = .error (.chapter "CHANGELOG" cause)
                | .ok fragment =>
                    match Footnote.reconcile (wrap "chapter changelog" fragment) counter with
                    | .error error => exported = .error error
                    | .ok (log, _) => ∃ edition, exported = .ok edition ∧
                        edition.changelog = some path ∧
                        edition.Shows {
                          html :=
                            if document.html = "" then log.html
                            else document.html ++ "\n\n" ++ log.html
                          definitions := document.definitions + log.definitions
                          danglingLinks := document.danglingLinks + log.danglingLinks } ∧
                        edition.Reports (pipeline settings tree) settings.plainSyntax chapters := by
  dsimp only
  cases found : Discovery.chapters tree config.settings.textPath with
  | error error => exact congrArg Prod.snd (makeWith_of_undiscovered found)
  | ok chapters =>
      dsimp only
      cases done : (doInOrder (chapterWork config tree) (Job.ofChapters chapters)).2 with
      | error error =>
          obtain ⟨failed, document⟩ := make_of_failed found done
          rw [document]
          exact failed
      | ok rendered =>
          have made := make_of_rendered found done
          have reports := fun changelog document =>
            reports_ofDocument changelog document done
          cases numbered : (pipeline config.settings tree).renderDocument
              config.settings.plainSyntax chapters .start with
          | error error =>
              rw [numbered] at made
              exact made
          | ok pair =>
              obtain ⟨document, counter⟩ := pair
              rw [numbered] at made
              cases listed : changelog? config.settings tree with
              | none =>
                  rw [listed] at made
                  exact ⟨_, made, rfl, shows_ofDocument rendered none document,
                    reports none document⟩
              | some path =>
                  rw [listed] at made
                  dsimp only [Except.bind, withChangelog, renderChangelog] at made ⊢
                  cases ran : (pipeline config.settings tree).renderFile true path with
                  | error cause =>
                      rw [ran] at made
                      exact made
                  | ok fragment =>
                      rw [ran] at made
                      dsimp only at made ⊢
                      cases logged : Footnote.reconcile (wrap "chapter changelog" fragment)
                          counter with
                      | error error =>
                          rw [logged] at made
                          exact made
                      | ok pair =>
                          rw [logged] at made
                          exact ⟨_, made, rfl, shows_ofDocument rendered _ (append document pair.1),
                            reports _ _⟩

end Bindery.Book
