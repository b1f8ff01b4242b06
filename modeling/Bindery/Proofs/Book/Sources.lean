import Bindery.Proofs.Book.Document
import Bindery.Proofs.Discovery

/-!
# The files that an edition is made from

Each file of the text directory is rendered once, as a chapter or as the changelog,
unless its name is that of a changelog in other letters, or of one more changelog than
the book has: what is kept out of the chapters is not what is taken for the changelog.
-/

set_option autoImplicit false

namespace Bindery.Book

open Files (FileTree)
open Discovery (IsSource IsFirstChangelog isNamed)

/-- The files that an edition shows, in the order in which it shows them. -/
def Edition.sources (edition : Edition) : List String :=
  edition.chapters.flatMap (·.files) ++ edition.changelog.toList

/-- The files of chapters that have been found, and of the changelog if it is put behind them. -/
def sources (settings : Settings) (tree : FileTree) (chapters : List Chapter) : List String :=
  chapters.flatMap (·.files) ++ (changelog? settings tree).toList

section

variable {config : Config} {tree : FileTree} {chapters : List Chapter} {edition : Edition}

theorem Edition.Reports.map_files {pipeline : Pipeline} {plain : Bool}
    (reports : edition.Reports pipeline plain chapters) :
    edition.chapters.map (·.files) = chapters.map (·.files) := by
  refine List.ext_getElem (by simpa using reports.length) fun position _ inside => ?_
  rw [List.length_map] at inside
  obtain ⟨html, -, reported⟩ := reports.report position _ (List.getElem?_eq_getElem inside)
  rw [List.getElem_map, (List.getElem?_eq_some_iff.mp reported).2, List.getElem_map]

/-- An edition is made from the files that are found. -/
theorem sources_of_make (found : Discovery.chapters tree config.settings.textPath = .ok chapters)
    (made : (make config tree).2 = .ok edition) :
    edition.sources = sources config.settings tree chapters := by
  cases done : (doInOrder (chapterWork config tree) (Job.ofChapters chapters)).2 with
  | error error =>
      rw [(make_of_failed found done).1] at made
      cases made
  | ok rendered =>
      rw [make_of_rendered found done] at made
      obtain ⟨numbered, -, made⟩ := bind_eq_ok made
      obtain ⟨document, -, rfl⟩ := map_eq_ok made
      have files := (reports_ofDocument (changelog? config.settings tree) document done).map_files
      rw [Edition.sources, sources, List.flatMap_def, files, ← List.flatMap_def]
      rfl

end

/-- A file of the text directory that is to be rendered is rendered once exactly if the name of a
changelog, in whatever letters, is that of the first changelog. -/
theorem source_rendered_once_iff {config : Config} {tree : FileTree} {chapters : List Chapter}
    {name : String} (proper : tree.IsNamed) (appended : config.settings.includeChangelog = true)
    (found : Discovery.chapters tree config.settings.textPath = .ok chapters)
    (source : IsSource tree config.settings.textPath name) :
    ((sources config.settings tree chapters).count
        (Files.Path.join config.settings.textPath name) = 1 ↔
      (isNamed ["changelog"] name = true ↔
        IsFirstChangelog tree config.settings.textPath name)) ∧
    ∀ edition, (make config tree).2 = .ok edition →
      edition.sources = sources config.settings tree chapters := by
  refine ⟨?_, fun edition made => sources_of_make found made⟩
  have first : Discovery.changelog? tree config.settings.textPath =
      some (Files.Path.join config.settings.textPath name) ↔
        IsFirstChangelog tree config.settings.textPath name :=
    Discovery.changelog?_eq_some_iff proper (proper.of_mem_list source.listed)
  rw [sources, List.count_append, Discovery.count_files proper found source, changelog?,
    if_pos appended, ← first]
  cases Discovery.changelog? tree config.settings.textPath with
  | none => cases isNamed ["changelog"] name <;> simp
  | some path =>
      by_cases same : path = Files.Path.join config.settings.textPath name
      · cases isNamed ["changelog"] name <;> simp [same]
      · cases isNamed ["changelog"] name <;> simp [same]

/-- A book of one chapter and of a changelog that has this name. -/
def changedBook (name : String) : FileTree := .ofList [] [
  (["text", "a.html"], .file (some "One.")),
  (["text", name], .file (some "Changed."))]

def oneChapter : List Chapter := [⟨"a.html", ["./text/a.html"]⟩]

theorem sortedNames_changedBook :
    Discovery.sortedNames (changedBook "CHANGELOG.html") threeAtOnce.settings.textPath =
      ["CHANGELOG.html", "a.html"] ∧
    Discovery.sortedNames (changedBook "changelog.html") threeAtOnce.settings.textPath =
      ["a.html", "changelog.html"] :=
  ⟨Discovery.sortedNames_eq_of_perm (by decide) (by decide),
    Discovery.sortedNames_eq_of_perm (by decide) (by decide)⟩

theorem chapters_changedBook {name : String} (known : name ∈ ["CHANGELOG.html", "changelog.html"]) :
    Discovery.chapters (changedBook name) threeAtOnce.settings.textPath = .ok oneChapter := by
  have directory : ∀ name ∈ ["CHANGELOG.html", "changelog.html"],
      (changedBook name).isDirectory threeAtOnce.settings.textPath = true := by
    decide
  obtain ⟨capitals, small⟩ := sortedNames_changedBook
  rw [Discovery.chapters, if_pos (directory name known)]
  obtain rfl | rfl : name = "CHANGELOG.html" ∨ name = "changelog.html" := by simpa using known
  · rw [capitals]
    decide
  · rw [small]
    decide

theorem isNamed_changedBook : (changedBook "CHANGELOG.html").IsNamed := by
  have named : ∀ item ∈ (changedBook "CHANGELOG.html").entries, ∀ name ∈ item.1,
      name ≠ "" ∧ '/' ∉ name.toList := by
    decide
  intro item stored name inside
  exact ⟨(named item stored name inside).1, (named item stored name inside).2⟩

/-- The chapter is rendered once, and so is the changelog whose name is in capitals. -/
theorem source_rendered_once_in_capitals :
    let tree := changedBook "CHANGELOG.html"
    let rendered := sources threeAtOnce.settings tree oneChapter
    ∀ name ∈ ["CHANGELOG.html", "a.html"], IsSource tree threeAtOnce.settings.textPath name ∧
      rendered.count (Files.Path.join threeAtOnce.settings.textPath name) = 1 := by
  intro tree rendered name member
  have sorted := sortedNames_changedBook.1
  have source : IsSource tree threeAtOnce.settings.textPath name := by
    refine ⟨?_, ?_, ?_, ?_, ?_⟩
    · rw [← Discovery.mem_sortedNames, sorted]
      exact member
    all_goals
      revert name
      decide
  refine ⟨source, (source_rendered_once_iff isNamed_changedBook rfl
    (chapters_changedBook (by decide)) source).1.mpr ?_⟩
  have first : ["CHANGELOG.html", "a.html"].find?
      (Discovery.isChangelog tree threeAtOnce.settings.textPath) = some "CHANGELOG.html" := by
    decide
  rw [← Discovery.find?_sortedNames_eq_some_iff, sorted, first, Option.some_inj]
  clear source
  revert name
  decide

/-- A changelog whose name is in small letters is no chapter, and it is not found either: the
edition does without it. -/
theorem small_changelog_dropped :
    let tree := changedBook "changelog.html"
    ∃ edition, (make threeAtOnce tree).2 = .ok edition ∧
      IsSource tree threeAtOnce.settings.textPath "changelog.html" ∧
      "./text/changelog.html" ∉ edition.sources := by
  intro tree
  have sorted := sortedNames_changedBook.2
  have listed : "changelog.html" ∈ tree.list threeAtOnce.settings.textPath := by
    rw [← Discovery.mem_sortedNames, sorted]
    decide
  have changelog : changelog? threeAtOnce.settings tree = none := by
    rw [changelog?, Discovery.changelog?, sorted]
    decide
  have made : (make threeAtOnce tree).2.map Edition.sources = .ok ["./text/a.html"] := by
    rw [make_snd (chapters_changedBook (by decide))]
    unfold assemble
    rw [changelog]
    decide
  obtain ⟨edition, done, sources⟩ := map_eq_ok made
  refine ⟨edition, done, ⟨listed, ?_, ?_, ?_, ?_⟩, by rw [sources]; decide⟩
  all_goals decide

end Bindery.Book
