import Bindery.Discovery
import Bindery.Proofs.Files.Tree

/-!
# Where a file of the text directory goes

Each file right below the text directory is a chapter of its own, unless its name is
reserved, and no other chapter holds it. One file more is taken for the changelog: the
first whose name begins as that of a changelog does.
-/

set_option autoImplicit false

namespace Bindery.Discovery

open Files (FileTree Location Entry)

/-- The files of the chapter that a name stands for, if it stands for one. -/
def shownFiles (tree : FileTree) (directory name : String) : List String :=
  if isSkipped name then [] else chapterFiles tree directory name

/-- The name of a file right below the directory that is to be rendered: it can be, and is neither
hidden nor a draft nor a table of contents. -/
structure IsSource (tree : FileTree) (directory name : String) : Prop where
  listed : name ∈ tree.list directory
  file : tree.isFile (Files.Path.join directory name) = true
  renderable : isRenderable (Files.Path.join directory name) = true
  shown : isSkipped name = false
  content : isNamed ["toc"] name = false

/-- The first name in the directory that is that of a changelog. -/
structure IsFirstChangelog (tree : FileTree) (directory name : String) : Prop where
  listed : name ∈ tree.list directory
  named : isChangelog tree directory name = true
  first : ∀ other ∈ tree.list directory, isChangelog tree directory other = true → name ≤ other

section

variable {tree : FileTree} {directory name : String}

theorem perm_sortedNames (tree : FileTree) (directory : String) :
    (sortedNames tree directory).Perm (tree.list directory) :=
  List.mergeSort_perm _ _

theorem mem_sortedNames : name ∈ sortedNames tree directory ↔ name ∈ tree.list directory :=
  (perm_sortedNames tree directory).mem_iff

theorem nodup_sortedNames (tree : FileTree) (directory : String) :
    (sortedNames tree directory).Nodup :=
  (perm_sortedNames tree directory).nodup_iff.mpr (tree.nodup_list directory)

theorem pairwise_sortedNames (tree : FileTree) (directory : String) :
    (sortedNames tree directory).Pairwise (· ≤ ·) := by
  have sorted : (sortedNames tree directory).Pairwise fun a b => decide (a ≤ b) = true :=
    List.pairwise_mergeSort
      (fun a b c first second => by
        simpa using String.le_trans (of_decide_eq_true first) (of_decide_eq_true second))
      (fun a b => by simpa using String.le_total a b) _
  exact sorted.imp of_decide_eq_true

theorem sortedNames_eq_of_perm {names : List String} (listed : (tree.list directory).Perm names)
    (sorted : names.Pairwise (· ≤ ·)) : sortedNames tree directory = names :=
  ((perm_sortedNames tree directory).trans listed).eq_of_pairwise
    (fun _ _ _ _ => String.le_antisymm) (pairwise_sortedNames tree directory) sorted

theorem files_chapter? :
    ((chapter? tree directory name).map (·.files)).getD [] = shownFiles tree directory name := by
  unfold chapter? shownFiles
  split
  · rfl
  · split
    · next none => exact none.symm
    · rfl

theorem chapter?_eq_some_iff {chapter : Chapter} :
    chapter? tree directory name = some chapter ↔
      isSkipped name = false ∧ chapter.name = name ∧
        chapter.files = chapterFiles tree directory name ∧ chapter.files ≠ [] := by
  cases chapter with
  | mk own files =>
      unfold chapter?
      cases skipped : isSkipped name with
      | true => simp
      | false =>
          cases shown : chapterFiles tree directory name with
          | nil => simp
          | cons first others =>
              simp only [Bool.false_eq_true, if_false, Option.some.injEq, Chapter.mk.injEq,
                true_and]
              constructor
              · intro same
                exact ⟨same.1.symm, same.2.symm, same.2 ▸ List.cons_ne_nil first others⟩
              · intro same
                exact ⟨same.1.symm, same.2.1.symm⟩

theorem exists_chapters (isDirectory : tree.isDirectory directory = true) :
    ∃ found, chapters tree directory = .ok found :=
  ⟨_, if_pos isDirectory⟩

/-- The chapters are the names that have something to show. -/
theorem mem_chapters_iff {found : List Chapter} {chapter : Chapter}
    (done : chapters tree directory = .ok found) :
    chapter ∈ found ↔ chapter.name ∈ tree.list directory ∧ isSkipped chapter.name = false ∧
      chapter.files = chapterFiles tree directory chapter.name ∧ chapter.files ≠ [] := by
  unfold chapters at done
  split at done
  · cases done
    simp only [List.mem_filterMap, mem_sortedNames, chapter?_eq_some_iff]
    constructor
    · intro member
      obtain ⟨name, listed, shown, rfl, files⟩ := member
      exact ⟨listed, shown, files⟩
    · intro member
      exact ⟨chapter.name, member.1, member.2.1, rfl, member.2.2⟩
  · cases done

theorem mem_filesBelow_iff {path file : String} :
    file ∈ filesBelow tree path ↔
      ∃ item ∈ tree.descendants path, isChapterEntry item = true ∧ isReached path item.1 = true ∧
        pathBelow path item.1 = file := by
  simp only [filesBelow, List.mem_map, List.mem_mergeSort, List.mem_filter, Bool.and_eq_true]
  constructor
  · intro member
    obtain ⟨location, ⟨item, ⟨among, shown, reached⟩, rfl⟩, same⟩ := member
    exact ⟨item, among, shown, reached, same⟩
  · intro member
    obtain ⟨item, among, shown, reached, same⟩ := member
    exact ⟨item.1, ⟨item, ⟨among, shown, reached⟩, rfl⟩, same⟩

/-- The files of the chapters are those of the names in their order. -/
theorem flatMap_files {chapters : List Chapter} (found : Discovery.chapters tree directory =
    .ok chapters) :
    chapters.flatMap (·.files) =
      (sortedNames tree directory).flatMap (shownFiles tree directory) := by
  unfold Discovery.chapters at found
  split at found
  · obtain rfl := Except.ok.inj found
    induction sortedNames tree directory with
    | nil => rfl
    | cons name names ih =>
        rw [List.flatMap_cons, ← ih, ← files_chapter?, List.filterMap_cons]
        cases chapter? tree directory name <;> rfl
  · cases found

/-! ## One path, one entry -/

theorem isFile_and_isDirectory (file : tree.isFile name = true) :
    tree.isDirectory name = false := by
  unfold FileTree.isFile at file
  unfold FileTree.isDirectory
  split at file
  · next content found =>
      rw [found]
      exact decide_eq_false nofun
  · cases file

theorem exists_pathBelow {base : String} {location : Location}
    (ends : Files.Path.EndsInName base) (named : ∀ name ∈ location, Files.Path.IsName name) :
    ∃ rest, pathBelow base location = base ++ rest ∧ (location ≠ [] → '/' ∈ rest.toList) := by
  induction location generalizing base with
  | nil => exact ⟨"", String.append_empty.symm, fun some => absurd rfl some⟩
  | cons name location ih =>
      obtain ⟨own, others⟩ := List.forall_mem_cons.mp named
      have step := ends.join_eq own
      obtain ⟨rest, below, -⟩ := ih (step ▸ own.endsInName (base ++ "/")) others
      refine ⟨"/" ++ name ++ rest, ?_, fun _ => by simp⟩
      rw [pathBelow, List.foldl_cons, ← pathBelow, below, step]
      simp only [String.append_assoc]

/-- The path of a file is not among the files of another name. -/
theorem not_mem_shownFiles (proper : tree.IsNamed) {other : String}
    (named : Files.Path.IsName name) (listed : other ∈ tree.list directory)
    (differs : other ≠ name) :
    Files.Path.join directory name ∉ shownFiles tree directory other := by
  have otherNamed := proper.of_mem_list listed
  unfold shownFiles chapterFiles
  dsimp only
  intro member
  split at member
  · cases member
  · split at member
    · obtain ⟨item, among, -, -, same⟩ := mem_filesBelow_iff.mp member
      obtain ⟨nonempty, -⟩ := FileTree.mem_descendants among
      obtain ⟨lead, joined⟩ := Files.Path.exists_join_eq directory
      rw [joined name named, joined other otherNamed] at same
      obtain ⟨rest, below, slash⟩ := exists_pathBelow (otherNamed.endsInName lead)
        (proper.of_mem_descendants among)
      -- A path below another entry goes on with a slash, and a name has none.
      rw [below, String.append_assoc, String.append_right_inj] at same
      refine named.oneStep ?_
      rw [← same, String.toList_append]
      exact List.mem_append_right _ (slash nonempty)
    · split at member
      · have same := List.mem_singleton.mp member
        exact differs ((Files.Path.join_inj named otherNamed).mp same).symm
      · cases member

theorem count_flatMap_of_nodup {α β : Type} [DecidableEq β] {items : List α} {item : α} {result : β}
    (write : α → List β) (nodup : items.Nodup) (member : item ∈ items)
    (absent : ∀ other ∈ items, other ≠ item → result ∉ write other) :
    (items.flatMap write).count result = (write item).count result := by
  obtain ⟨before, after, rfl⟩ := List.append_of_mem member
  obtain ⟨fresh, -⟩ := List.nodup_middle.mp nodup |> List.nodup_cons.mp
  have none : ∀ part : List α, (∀ other ∈ part, other ∈ before ++ after) →
      (part.flatMap write).count result = 0 := by
    intro part within
    refine List.count_eq_zero.mpr fun inside => ?_
    obtain ⟨other, among, written⟩ := List.mem_flatMap.mp inside
    refine absent other ?_ (fun same => fresh (same ▸ within other among)) written
    rcases List.mem_append.mp (within other among) with first | last
    · exact List.mem_append_left _ first
    · exact List.mem_append_right _ (List.mem_cons_of_mem _ last)
  rw [List.flatMap_append, List.flatMap_cons, List.count_append, List.count_append,
    none before fun _ => List.mem_append_left _, none after fun _ => List.mem_append_right _,
    Nat.zero_add, Nat.add_zero]

theorem isReserved_eq (name : String) :
    isReserved name = (isNamed ["changelog"] name || isNamed ["toc"] name) := by
  unfold isReserved isNamed
  split
  · simp only [List.contains_cons, List.contains_nil, Bool.or_false, Bool.and_or_distrib_right]
  · rfl

/-- A file is in the chapters once, unless its name is that of a changelog. -/
theorem count_files (proper : tree.IsNamed) {chapters : List Chapter}
    (found : Discovery.chapters tree directory = .ok chapters)
    (source : IsSource tree directory name) :
    (chapters.flatMap (·.files)).count (Files.Path.join directory name) =
      if isNamed ["changelog"] name then 0 else 1 := by
  have named := proper.of_mem_list source.listed
  have reserved : isReserved name = isNamed ["changelog"] name := by
    rw [isReserved_eq, source.content, Bool.or_false]
  have own : shownFiles tree directory name =
      if isNamed ["changelog"] name then [] else [Files.Path.join directory name] := by
    unfold shownFiles chapterFiles
    simp only [source.shown, isFile_and_isDirectory source.file, source.file, source.renderable,
      reserved]
    cases isNamed ["changelog"] name <;> rfl
  rw [flatMap_files found, count_flatMap_of_nodup _ (nodup_sortedNames tree directory)
    (mem_sortedNames.mpr source.listed) fun other listed differs =>
      not_mem_shownFiles proper named (mem_sortedNames.mp listed) differs, own]
  cases isNamed ["changelog"] name
  · exact List.count_singleton_self
  · rfl

/-! ## The changelog -/

theorem find?_sortedNames_eq_some_iff :
    (sortedNames tree directory).find? (isChangelog tree directory) = some name ↔
      IsFirstChangelog tree directory name := by
  have sorted := pairwise_sortedNames tree directory
  have first : ∀ {name}, (sortedNames tree directory).find? (isChangelog tree directory) =
      some name → IsFirstChangelog tree directory name := by
    intro name found
    obtain ⟨own, before, after, split, earlier⟩ := List.find?_eq_some_iff_append.mp found
    refine ⟨mem_sortedNames.mp (List.mem_of_find?_eq_some found), own, fun other listed named => ?_⟩
    rw [split] at sorted
    have among := mem_sortedNames.mpr listed
    rw [split, List.mem_append, List.mem_cons] at among
    rcases among with passed | rfl | later
    · have refused := earlier other passed
      rw [named] at refused
      cases refused
    · exact String.le_refl other
    · exact (List.pairwise_cons.mp (List.pairwise_append.mp sorted).2.1).1 other later
  refine ⟨first, fun leading => ?_⟩
  cases found : (sortedNames tree directory).find? (isChangelog tree directory) with
  | none =>
      exact absurd leading.named
        (List.find?_eq_none.mp found name (mem_sortedNames.mpr leading.listed))
  | some other =>
      have least := first found
      rw [String.le_antisymm (least.first name leading.listed leading.named)
        (leading.first other least.listed least.named)]

/-- The changelog is the first file whose name is that of one. -/
theorem changelog?_eq_some_iff (proper : tree.IsNamed) (named : Files.Path.IsName name) :
    changelog? tree directory = some (Files.Path.join directory name) ↔
      IsFirstChangelog tree directory name := by
  rw [changelog?, Option.map_eq_some_iff, ← find?_sortedNames_eq_some_iff]
  constructor
  · rintro ⟨other, found, same⟩
    have listed := (find?_sortedNames_eq_some_iff.mp found).listed
    rw [found, (Files.Path.join_inj (proper.of_mem_list listed) named).mp same]
  · exact fun found => ⟨name, found, rfl⟩

end

end Bindery.Discovery
