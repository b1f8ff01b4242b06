import Bindery.Proofs.Discovery
import Bindery.Proofs.Text.Mark

/-!
# Reserved names among the chapters

The name of a file is looked at before the file becomes a chapter, up to the end of its
first line. The name of a directory is not looked at.
-/

set_option autoImplicit false

namespace Bindery.Discovery

open Files (FileTree Location Entry)

/-- A name of one of the reserved words, in any letters, with a dot and anything behind it. -/
def HasReservedName (name : String) : Prop :=
  ∃ word rest, name.toList = word ++ '.' :: rest ∧
    String.ofList (word.map Char.toLower) ∈ ["changelog", "toc"]

section

variable {tree : FileTree} {directory name : String} {found : List Chapter}

theorem not_mem_of_reserved_word {word : List Char} (c : Char) (plain : c.toLower = c)
    (reserved : String.ofList (word.map Char.toLower) ∈ ["changelog", "toc"])
    (absent : ∀ known ∈ ["changelog", "toc"], c ∉ known.toList) : c ∉ word := by
  intro member
  apply absent _ reserved
  rw [String.toList_ofList]
  exact List.mem_map.mpr ⟨c, member, plain⟩

/-- The pattern takes a dot for anything on the same line. -/
theorem isReserved_iff : isReserved name = true ↔ HasReservedName name ∧ '\n' ∉ name.toList := by
  unfold isReserved isNamed
  constructor
  · intro reserved
    cases split : Text.splitOnce '.' name.toList with
    | none => simp [split] at reserved
    | some parts =>
        obtain ⟨word, rest⟩ := parts
        obtain ⟨whole, -⟩ := Text.splitOnce_eq_some_iff.mp split
        simp only [split, Bool.and_eq_true, List.contains_iff_mem, Bool.not_eq_true',
          ← Bool.not_eq_true] at reserved
        refine ⟨⟨word, rest, whole, reserved.1⟩, ?_⟩
        have start := not_mem_of_reserved_word '\n' rfl reserved.1 (by decide)
        simp [whole, start, reserved.2]
  · intro reserved
    obtain ⟨⟨word, rest, whole, known⟩, oneLine⟩ := reserved
    have undotted := not_mem_of_reserved_word '.' rfl known (by decide)
    rw [whole, List.mem_append, List.mem_cons, not_or, not_or] at oneLine
    simp only [Text.splitOnce_eq_some_iff.mpr ⟨whole, undotted⟩, Bool.and_eq_true,
      List.contains_iff_mem, Bool.not_eq_true', ← Bool.not_eq_true]
    exact ⟨known, oneLine.2.2⟩

theorem not_isSkipped_of_reserved (reserved : HasReservedName name) : isSkipped name = false := by
  obtain ⟨word, rest, whole, known⟩ := reserved
  have dot := not_mem_of_reserved_word '.' rfl known (by decide)
  have line := not_mem_of_reserved_word '_' rfl known (by decide)
  unfold isSkipped
  rw [whole]
  cases word with
  | nil => simp at known
  | cons first word =>
      rw [List.mem_cons, not_or] at dot line
      split
      · next same => exact absurd (List.cons.inj same).1.symm dot.1
      · next same => exact absurd (List.cons.inj same).1.symm line.1
      · rfl

end

/-- No chapter has a reserved name exactly if no directory with such a name holds anything to
render, and no file with such a name that can be rendered has a line feed in it. -/
theorem chapters_not_reserved_iff {tree : FileTree} {directory : String} {found : List Chapter}
    (done : chapters tree directory = .ok found) :
    (∀ chapter ∈ found, ¬ HasReservedName chapter.name) ↔
      ∀ name ∈ tree.list directory, HasReservedName name →
        (tree.isDirectory (Files.Path.join directory name) = true →
          filesBelow tree (Files.Path.join directory name) = []) ∧
        (tree.isFile (Files.Path.join directory name) = true →
          isRenderable (Files.Path.join directory name) = true → '\n' ∉ name.toList) := by
  constructor
  · intro free name listed reserved
    have nothing : chapterFiles tree directory name = [] := by
      by_contra some
      apply free ⟨name, chapterFiles tree directory name⟩ _ reserved
      exact (mem_chapters_iff done).mpr
        ⟨listed, not_isSkipped_of_reserved reserved, rfl, some⟩
    unfold chapterFiles at nothing
    constructor
    · intro isDirectory
      simpa [isDirectory] using nothing
    · intro file renderable feed
      have other := isFile_and_isDirectory file
      simp [other, file, renderable] at nothing
      exact (isReserved_iff.mp nothing).2 feed
  · intro empty chapter member reserved
    obtain ⟨listed, -, files, some⟩ := (mem_chapters_iff done).mp member
    obtain ⟨below, single⟩ := empty chapter.name listed reserved
    apply some
    rw [files]
    unfold chapterFiles
    dsimp only
    split
    · next isDirectory => exact below isDirectory
    · split
      · next shown =>
          simp only [Bool.and_eq_true, Bool.not_eq_true'] at shown
          have kept := isReserved_iff.mpr ⟨reserved, single shown.1.1 shown.1.2⟩
          rw [shown.2] at kept
          cases kept
      · rfl

/-- A book with one chapter in a directory of this name. -/
def bookInDirectory (name : String) : FileTree := .ofList [] [
  (["text", name, "a.md"], .file (some "One."))]

/-- The directory has a name of its own. -/
theorem chapters_not_reserved_parts :
    ∃ found, chapters (bookInDirectory "parts") "text" = .ok found ∧
      ∀ chapter ∈ found, ¬ HasReservedName chapter.name := by
  have text : (bookInDirectory "parts").isDirectory "text" = true := by decide
  obtain ⟨found, done⟩ := exists_chapters text
  have listed : (bookInDirectory "parts").list "text" = ["parts"] := by decide
  refine ⟨found, done, (chapters_not_reserved_iff done).mpr ?_⟩
  rw [listed]
  intro name member reserved
  cases List.mem_singleton.mp member
  obtain ⟨word, rest, whole, -⟩ := reserved
  have dot : '.' ∈ "parts".toList := by simp [whole]
  exact absurd dot (by decide)

/-- A directory with the name of a changelog is a chapter. -/
theorem changelog_directory_is_chapter :
    ∃ found, chapters (bookInDirectory "CHANGELOG.d") "text" = .ok found ∧
      ∃ chapter ∈ found, HasReservedName chapter.name := by
  have text : (bookInDirectory "CHANGELOG.d").isDirectory "text" = true := by decide
  obtain ⟨found, done⟩ := exists_chapters text
  have path : Files.Path.join "text" "CHANGELOG.d" = "text/CHANGELOG.d" := by decide
  have isDirectory : (bookInDirectory "CHANGELOG.d").isDirectory "text/CHANGELOG.d" = true := by
    decide
  have below : "text/CHANGELOG.d/a.md" ∈
      chapterFiles (bookInDirectory "CHANGELOG.d") "text" "CHANGELOG.d" := by
    simp only [chapterFiles, path, isDirectory, if_true, mem_filesBelow_iff]
    decide
  have reserved : HasReservedName "CHANGELOG.d" :=
    ⟨"CHANGELOG".toList, ['d'], by decide, by decide⟩
  have chapter : Chapter.mk "CHANGELOG.d"
      (chapterFiles (bookInDirectory "CHANGELOG.d") "text" "CHANGELOG.d") ∈ found :=
    (mem_chapters_iff done).mpr ⟨by decide, by decide, rfl, List.ne_nil_of_mem below⟩
  exact ⟨found, done, _, chapter, reserved⟩

end Bindery.Discovery
