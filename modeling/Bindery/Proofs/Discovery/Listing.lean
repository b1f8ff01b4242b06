import Bindery.Proofs.Discovery.Order
import Bindery.Proofs.Discovery.Reserved
import Bindery.Proofs.Files.Entry

/-!
# The list of chapters

In what order the entries of the text directory are listed makes no difference. The
chapters and their files are in the order of bytes, and each file that can be rendered
is in one chapter, the one that its place in the text directory tells.
-/

set_option autoImplicit false

namespace Bindery.Discovery

open Files (FileTree Location Entry)

/-- The names of a path in UTF-8. -/
def components (path : String) : List (List UInt8) := (Files.Path.names path).map Text.bytes

/-- A name with one of the known extensions in any letters, and something before it. -/
def HasKnownExtension (name : String) : Prop :=
  ∃ stem extension, name.toList = stem ++ '.' :: extension ∧ stem ≠ [] ∧ '.' ∉ extension ∧
    String.ofList (extension.map Char.toLower) ∈ extensions

/-- A name that is neither hidden nor that of a draft. -/
def IsShown (name : String) : Prop := name.toList.head? ≠ some '.' ∧ name.toList.head? ≠ some '_'

instance : DecidablePred IsShown := fun _ => instDecidableAnd

/-- A directory whose entries have names that a file system allows, and links nowhere. -/
structure IsTextDirectory (tree : FileTree) (directory : String) (base : Location) : Prop where
  resolved : tree.resolve directory = .ok base
  inside : tree.at? base = some .directory
  rooted : tree.IsRooted
  named : ∀ item ∈ tree.descendants directory, ∀ name ∈ item.1, FileTree.IsFileName name
  plain : ∀ item ∈ tree.descendants directory, ¬ item.2.IsLink

/-- Where a file to be rendered is: below the name of the chapter, if there is anything below it,
and in a directory whose path is short enough to be looked up. -/
structure IsSourceAt (tree : FileTree) (directory : String) (base : Location) (name : String)
    (rest : Location) : Prop where
  file : ∃ content, tree.at? (base ++ name :: rest) = some (.file content)
  known : ∀ last ∈ (name :: rest).getLast?, HasKnownExtension last
  unreserved : rest = [] → ¬ (HasReservedName name ∧ '\n' ∉ name.toList)
  reached : (pathBelow directory (name :: rest.dropLast)).utf8ByteSize < FileTree.maxPathSize

section

variable {tree : FileTree} {directory path name file : String} {base rest : Location}

theorem isSkipped_eq_false_iff : isSkipped name = false ↔ IsShown name := by
  unfold isSkipped IsShown
  split
  · next rest whole => simp [whole]
  · next rest whole => simp [whole]
  · next dot line =>
      refine iff_of_true rfl ⟨fun same => ?_, fun same => ?_⟩
      · obtain ⟨rest, whole⟩ := List.head?_eq_some_iff.mp same
        exact dot rest whole
      · obtain ⟨rest, whole⟩ := List.head?_eq_some_iff.mp same
        exact line rest whole

theorem isRenderable_iff (called : Files.Path.fileName? path = some name.toList) :
    isRenderable path = true ↔ HasKnownExtension name := by
  unfold isRenderable Files.Path.lowerExtension?
  cases found : Files.Path.extension? path with
  | none =>
      refine iff_of_false nofun fun known => ?_
      obtain ⟨stem, extension, whole, nonempty, absent, -⟩ := known
      rw [(Files.Path.extension?_eq_some_iff called).mpr ⟨stem, whole, nonempty, absent⟩] at found
      cases found
  | some extension =>
      obtain ⟨stem, whole, nonempty, absent⟩ := (Files.Path.extension?_eq_some_iff called).mp found
      rw [Option.map_some]
      dsimp only
      rw [List.contains_iff_mem]
      constructor
      · intro known
        exact ⟨stem, extension, whole, nonempty, absent, known⟩
      · intro known
        obtain ⟨front, behind, split, some, once, known⟩ := known
        have again := (Files.Path.extension?_eq_some_iff called).mpr ⟨front, split, some, once⟩
        obtain rfl := Option.some.inj (found.symm.trans again)
        exact known

theorem fileName?_of_isFileName (own : FileTree.IsFileName name) :
    Files.Path.fileName? name = some name.toList := by
  apply Files.Path.fileName?_eq_some _ own.step.notSame own.step.notAbove
  rw [own.named.names_eq own.step.notSame]
  rfl

theorem isRenderable_join (own : FileTree.IsFileName name) (some : directory ≠ "") :
    isRenderable (Files.Path.join directory name) = true ↔ HasKnownExtension name := by
  apply isRenderable_iff
  apply Files.Path.fileName?_eq_some _ own.step.notSame own.step.notAbove
  rw [Files.Path.names_join some own.named own.step.notSame, List.getLast?_concat]

theorem isChapterEntry_iff {entry : Entry} (named : ∀ name ∈ rest, FileTree.IsFileName name)
    (below : rest ≠ []) :
    isChapterEntry (rest, entry) = true ↔
      (∃ content, entry = .file content) ∧ ∀ last ∈ rest.getLast?, HasKnownExtension last := by
  obtain ⟨last, whole⟩ : ∃ last, rest.getLast? = some last :=
    ⟨rest.getLast below, List.getLast?_eq_some_getLast below⟩
  have own := named last (List.mem_of_getLast? whole)
  have known := isRenderable_iff (fileName?_of_isFileName own)
  unfold isChapterEntry
  rw [whole]
  cases entry with
  | file content =>
      dsimp only
      rw [known]
      simp
  | directory => simp
  | link target => simp

theorem utf8ByteSize_le_pathBelow (named : ∀ name ∈ rest, Files.Path.IsName name) :
    path.utf8ByteSize ≤ (pathBelow path rest).utf8ByteSize := by
  induction rest generalizing path with
  | nil => exact Nat.le_refl _
  | cons name rest ih =>
      obtain ⟨own, others⟩ := List.forall_mem_cons.mp named
      obtain ⟨more, joined⟩ := Files.Path.exists_join_append path own
      have first : path.utf8ByteSize ≤ (Files.Path.join path name).utf8ByteSize := by
        rw [joined, String.utf8ByteSize_append]
        exact Nat.le_add_right _ _
      exact first.trans (ih others)

theorem IsTextDirectory.isFileName {entry : Entry} (proper : IsTextDirectory tree directory base)
    (below : rest ≠ []) (there : tree.at? (base ++ rest) = some entry) :
    (∀ name ∈ rest, FileTree.IsFileName name) ∧ ¬ entry.IsLink := by
  have member := (FileTree.mem_descendants_iff proper.resolved).mpr ⟨below, there⟩
  exact ⟨proper.named _ member, proper.plain _ member⟩

theorem IsTextDirectory.isDirectory (proper : IsTextDirectory tree directory base) :
    tree.isDirectory directory = true := by
  unfold FileTree.isDirectory FileTree.lookup?
  rw [proper.resolved]
  exact decide_eq_true proper.inside

/-- A file is a chapter of its own if it can be rendered and its name is not reserved. -/
theorem mem_chapterFiles_of_file {content : Option String}
    (proper : IsTextDirectory tree directory base)
    (there : tree.at? (base ++ [name]) = some (.file content)) :
    file ∈ chapterFiles tree directory name ↔ file = Files.Path.join directory name ∧
      (Files.Path.join directory name).utf8ByteSize < FileTree.maxPathSize ∧
        HasKnownExtension name ∧ ¬ (HasReservedName name ∧ '\n' ∉ name.toList) := by
  obtain ⟨names, plain⟩ := proper.isFileName (List.cons_ne_nil name []) there
  have own := names name List.mem_cons_self
  have looked := FileTree.lookup?_join proper.resolved proper.inside own there plain
  have known := isRenderable_join own (FileTree.ne_empty_of_resolve proper.resolved)
  unfold chapterFiles FileTree.isDirectory FileTree.isFile
  dsimp only
  rw [looked, ← isReserved_iff, ← known]
  by_cases short : (Files.Path.join directory name).utf8ByteSize < FileTree.maxPathSize
  · cases isRenderable (Files.Path.join directory name) <;> cases isReserved name <;> simp [short]
  · simp [short]

/-- A directory is a chapter with the files below it. -/
theorem chapterFiles_of_directory (proper : IsTextDirectory tree directory base)
    (there : tree.at? (base ++ [name]) = some .directory) :
    chapterFiles tree directory name =
      if (Files.Path.join directory name).utf8ByteSize < FileTree.maxPathSize then
        filesBelow tree (Files.Path.join directory name)
      else [] := by
  obtain ⟨names, plain⟩ := proper.isFileName (List.cons_ne_nil name []) there
  have own := names name List.mem_cons_self
  have looked := FileTree.lookup?_join proper.resolved proper.inside own there plain
  unfold chapterFiles FileTree.isDirectory FileTree.isFile
  dsimp only
  rw [looked]
  split
  · rfl
  · rfl

/-- What is below a directory of the text directory. -/
theorem mem_filesBelow_join (proper : IsTextDirectory tree directory base)
    (there : tree.at? (base ++ [name]) = some .directory)
    (resolved : tree.resolve (Files.Path.join directory name) = .ok (base ++ [name])) :
    file ∈ filesBelow tree (Files.Path.join directory name) ↔
      ∃ rest, IsSourceAt tree directory base name rest ∧
        file = pathBelow directory (name :: rest) := by
  rw [mem_filesBelow_iff]
  constructor
  · intro member
    obtain ⟨⟨rest, entry⟩, among, shown, reached, rfl⟩ := member
    obtain ⟨below, found⟩ := (FileTree.mem_descendants_iff resolved).mp among
    rw [List.append_assoc] at found
    obtain ⟨allowed, -⟩ := proper.isFileName (List.cons_ne_nil name rest) found
    have names := fun other inside => allowed other (List.mem_cons_of_mem name inside)
    obtain ⟨⟨content, rfl⟩, known⟩ := (isChapterEntry_iff names below).mp shown
    rw [← List.getLast?_cons_of_ne_nil below] at known
    exact ⟨rest, ⟨⟨content, found⟩, known, fun top => absurd top below,
      of_decide_eq_true reached⟩, rfl⟩
  · intro source
    obtain ⟨rest, source, rfl⟩ := source
    obtain ⟨content, found⟩ := source.file
    have below : rest ≠ [] := by
      rintro rfl
      rw [there] at found
      cases found
    obtain ⟨allowed, -⟩ := proper.isFileName (List.cons_ne_nil name rest) found
    have names := fun other inside => allowed other (List.mem_cons_of_mem name inside)
    have known := source.known
    rw [List.getLast?_cons_of_ne_nil below] at known
    have among := (FileTree.mem_descendants_iff resolved).mpr
      ⟨below, (congrArg tree.at? (List.append_assoc _ _ _)).trans found⟩
    exact ⟨_, among, (isChapterEntry_iff names below).mpr ⟨⟨content, rfl⟩, known⟩,
      decide_eq_true source.reached, rfl⟩

/-- A source below a directory is reached only if the directory is. -/
theorem IsSourceAt.short (source : IsSourceAt tree directory base name rest)
    (proper : IsTextDirectory tree directory base) :
    (Files.Path.join directory name).utf8ByteSize < FileTree.maxPathSize := by
  obtain ⟨content, found⟩ := source.file
  obtain ⟨allowed, -⟩ := proper.isFileName (List.cons_ne_nil name rest) found
  have longer : (Files.Path.join directory name).utf8ByteSize ≤
      (pathBelow (Files.Path.join directory name) rest.dropLast).utf8ByteSize :=
    utf8ByteSize_le_pathBelow fun other inside =>
      (allowed other (List.mem_cons_of_mem name (List.dropLast_subset rest inside))).named
  exact Nat.lt_of_le_of_lt longer source.reached

theorem mem_chapterFiles_of_directory (proper : IsTextDirectory tree directory base)
    (there : tree.at? (base ++ [name]) = some .directory) :
    file ∈ chapterFiles tree directory name ↔
      ∃ rest, IsSourceAt tree directory base name rest ∧
        file = pathBelow directory (name :: rest) := by
  obtain ⟨names, plain⟩ := proper.isFileName (List.cons_ne_nil name []) there
  have own := names name List.mem_cons_self
  rw [chapterFiles_of_directory proper there]
  split
  · next short =>
      apply mem_filesBelow_join proper there
      exact (FileTree.resolve_join_eq_ok_iff proper.resolved proper.inside own there plain).mpr
        ⟨rfl, short⟩
  · next long =>
      refine iff_of_false List.not_mem_nil fun source => ?_
      obtain ⟨rest, source, -⟩ := source
      exact long (source.short proper)

/-- The files of a chapter are those of its name that can be rendered. -/
theorem mem_chapterFiles_iff {entry : Entry} (proper : IsTextDirectory tree directory base)
    (there : tree.at? (base ++ [name]) = some entry) :
    file ∈ chapterFiles tree directory name ↔
      ∃ rest, IsSourceAt tree directory base name rest ∧
        file = pathBelow directory (name :: rest) := by
  cases entry with
  | directory => exact mem_chapterFiles_of_directory proper there
  | link target =>
      exact absurd trivial (proper.isFileName (List.cons_ne_nil name []) there).2
  | file content =>
      rw [mem_chapterFiles_of_file proper there]
      constructor
      · intro member
        obtain ⟨rfl, short, known, unreserved⟩ := member
        refine ⟨[], ⟨⟨content, there⟩, ?_, fun _ => unreserved, short⟩, rfl⟩
        simpa using known
      · intro source
        obtain ⟨rest, source, rfl⟩ := source
        obtain ⟨inside, found⟩ := source.file
        obtain rfl : rest = [] := by
          by_contra below
          have whole : tree.at? (base ++ [name] ++ rest) = some (.file inside) := by
            rwa [List.append_assoc]
          have above := proper.rooted.directory_above below whole
          rw [there] at above
          cases above
        exact ⟨rfl, source.reached, source.known name rfl, source.unreserved rfl⟩

/-! ## The order of the files -/

theorem names_pathBelow (some : path ≠ "") (named : ∀ name ∈ rest, FileTree.IsFileName name) :
    Files.Path.names (pathBelow path rest) = Files.Path.names path ++ rest.map (·.toList) := by
  induction rest generalizing path with
  | nil => exact (List.append_nil _).symm
  | cons name rest ih =>
      obtain ⟨own, others⟩ := List.forall_mem_cons.mp named
      have later := ih (Files.Path.join_ne_empty own.named : Files.Path.join path name ≠ "") others
      rw [pathBelow, List.foldl_cons, ← pathBelow, later,
        Files.Path.names_join some own.named own.step.notSame, List.append_assoc]
      rfl

/-- The files below a directory are in the order of their components. -/
theorem pairwise_filesBelow (some : path ≠ "")
    (named : ∀ item ∈ tree.descendants path, ∀ name ∈ item.1, FileTree.IsFileName name) :
    ((filesBelow tree path).map components).Pairwise (· < ·) := by
  unfold filesBelow
  dsimp only
  generalize kept : ((tree.descendants path).filter fun item =>
    isChapterEntry item && isReached path item.1).map (·.1) = locations
  have proper : ∀ location ∈ locations.mergeSort isUpTo, ∀ name ∈ location,
      FileTree.IsFileName name := by
    intro location member
    rw [List.mem_mergeSort, ← kept] at member
    obtain ⟨item, among, rfl⟩ := List.mem_map.mp member
    exact named item (List.mem_filter.mp among).1
  have apart : (locations.mergeSort isUpTo).Nodup := by
    rw [(List.mergeSort_perm _ _).nodup_iff, ← kept]
    exact (tree.nodup_descendants path).sublist (List.filter_sublist.map _)
  have sorted := (pairwise_mergeSort_isUpTo locations).and apart
  rw [List.map_map, List.pairwise_map]
  refine sorted.imp_of_mem fun {location place} here there ordered => ?_
  have less := bytes_lt_of_isUpTo ordered.1 ordered.2
  rw [Function.comp_apply, Function.comp_apply, components, components,
    names_pathBelow some (proper location here), names_pathBelow some (proper place there),
    List.map_append, List.map_append, List.map_map, List.map_map]
  exact List.append_left_lt less

theorem pairwise_chapterFiles {entry : Entry} (proper : IsTextDirectory tree directory base)
    (there : tree.at? (base ++ [name]) = some entry) :
    ((chapterFiles tree directory name).map components).Pairwise (· < ·) := by
  obtain ⟨names, plain⟩ := proper.isFileName (List.cons_ne_nil name []) there
  have own := names name List.mem_cons_self
  unfold chapterFiles
  dsimp only
  split
  · apply pairwise_filesBelow (Files.Path.join_ne_empty own.named)
    intro item among
    obtain ⟨below, place, resolved, stored⟩ := FileTree.mem_descendants among
    obtain ⟨rfl, -⟩ := (FileTree.resolve_join_eq_ok_iff proper.resolved proper.inside own there
      plain).mp resolved
    rw [List.append_assoc] at stored
    have found := (FileTree.at?_eq_some_iff (by simp)).mpr stored
    have allowed := (proper.isFileName (List.cons_ne_nil name item.1) found).1
    exact fun other inside => allowed other (List.mem_cons_of_mem name inside)
  · split
    · exact List.pairwise_singleton _ _
    · exact List.Pairwise.nil

theorem pathBelow_inj {place : Location} (some : directory ≠ "")
    (named : ∀ name ∈ rest, FileTree.IsFileName name)
    (proper : ∀ name ∈ place, FileTree.IsFileName name)
    (same : pathBelow directory rest = pathBelow directory place) : rest = place := by
  have names := congrArg Files.Path.names same
  rw [names_pathBelow some named, names_pathBelow some proper, List.append_cancel_left_eq] at names
  exact List.map_injective_iff.mpr (fun _ _ => String.toList_injective) names

end

/-- The chapters of a text directory: which there are, what is in them, and in what order. -/
structure ListsChapters (tree : FileTree) (directory : String) (base : Location)
    (found : List Chapter) : Prop where
  names : (found.map fun chapter => chapter.name.toUTF8.data.toList).Pairwise (· < ·)
  nonempty : ∀ chapter ∈ found, chapter.files ≠ []
  shown : ∀ chapter ∈ found, IsShown chapter.name
  files : ∀ chapter ∈ found, (chapter.files.map components).Pairwise (· < ·)
  exact : ∀ chapter ∈ found, ∀ file, file ∈ chapter.files ↔
    ∃ rest, IsSourceAt tree directory base chapter.name rest ∧
      file = pathBelow directory (chapter.name :: rest)
  once : ∀ name rest, IsShown name → IsSourceAt tree directory base name rest →
    ∃! chapter, chapter ∈ found ∧ pathBelow directory (name :: rest) ∈ chapter.files

section

variable {tree : FileTree} {directory : String} {base : Location} {found : List Chapter}

theorem pairwise_names (done : chapters tree directory = .ok found) :
    (found.map fun chapter => chapter.name.toUTF8.data.toList).Pairwise (· < ·) := by
  unfold chapters at done
  split at done
  · obtain rfl := Except.ok.inj done
    have sorted := (pairwise_sortedNames tree directory).and (nodup_sortedNames tree directory)
    rw [List.pairwise_map, List.pairwise_filterMap]
    refine sorted.imp fun {name other} ordered chapter here later there => ?_
    obtain ⟨-, rfl, -⟩ := chapter?_eq_some_iff.mp here
    obtain ⟨-, rfl, -⟩ := chapter?_eq_some_iff.mp there
    rw [← Text.bytes_toList, ← Text.bytes_toList]
    apply Text.bytes_lt_bytes
    rw [← String.lt_iff, ← String.not_le]
    exact fun back => ordered.2 (String.le_antisymm ordered.1 back)
  · cases done

theorem exists_entry (proper : IsTextDirectory tree directory base)
    (done : chapters tree directory = .ok found) {chapter : Chapter} (member : chapter ∈ found) :
    ∃ entry, tree.at? (base ++ [chapter.name]) = some entry :=
  (FileTree.mem_list_iff proper.resolved).mp ((mem_chapters_iff done).mp member).1

theorem mem_files_iff (proper : IsTextDirectory tree directory base)
    (done : chapters tree directory = .ok found) {chapter : Chapter} (member : chapter ∈ found)
    (file : String) :
    file ∈ chapter.files ↔ ∃ rest, IsSourceAt tree directory base chapter.name rest ∧
      file = pathBelow directory (chapter.name :: rest) := by
  obtain ⟨-, -, files, -⟩ := (mem_chapters_iff done).mp member
  obtain ⟨entry, there⟩ := exists_entry proper done member
  rw [files, mem_chapterFiles_iff proper there]

/-- A file of the text directory that does not count as a source is in no chapter. -/
theorem not_mem_files {content : Option String} {name : String}
    (proper : IsTextDirectory tree directory base) (done : chapters tree directory = .ok found)
    (there : tree.at? (base ++ [name]) = some (.file content))
    (ignored : ¬ IsSourceAt tree directory base name []) :
    ∀ chapter ∈ found, Files.Path.join directory name ∉ chapter.files := by
  intro chapter member inside
  obtain ⟨rest, source, same⟩ := (mem_files_iff proper done member _).mp inside
  obtain ⟨content, other⟩ := source.file
  have own := (proper.isFileName (List.cons_ne_nil name []) there).1
  have others := (proper.isFileName (List.cons_ne_nil chapter.name rest) other).1
  obtain ⟨rfl, rfl⟩ := List.cons.inj
    (pathBelow_inj (FileTree.ne_empty_of_resolve proper.resolved) own others same)
  exact ignored source

/-- A file that can be rendered is in the chapter that its place tells and in no other one. -/
theorem existsUnique_chapter (proper : IsTextDirectory tree directory base)
    (done : chapters tree directory = .ok found) {name : String} {rest : Location}
    (shown : IsShown name) (source : IsSourceAt tree directory base name rest) :
    ∃! chapter, chapter ∈ found ∧ pathBelow directory (name :: rest) ∈ chapter.files := by
  obtain ⟨content, there⟩ := source.file
  have allowed := (proper.isFileName (List.cons_ne_nil name rest) there).1
  obtain ⟨entry, top⟩ : ∃ entry, tree.at? (base ++ [name]) = some entry := by
    by_cases single : rest = []
    · exact ⟨_, single ▸ there⟩
    · have whole : tree.at? (base ++ [name] ++ rest) = some (.file content) := by
        rwa [List.append_assoc]
      exact ⟨_, proper.rooted.directory_above single whole⟩
  have inside : pathBelow directory (name :: rest) ∈ chapterFiles tree directory name :=
    (mem_chapterFiles_iff proper top).mpr ⟨rest, source, rfl⟩
  have member : Chapter.mk name (chapterFiles tree directory name) ∈ found :=
    (mem_chapters_iff done).mpr ⟨(FileTree.mem_list_iff proper.resolved).mpr ⟨entry, top⟩,
      isSkipped_eq_false_iff.mpr shown, rfl, List.ne_nil_of_mem inside⟩
  refine ⟨_, ⟨member, inside⟩, fun other among => ?_⟩
  obtain ⟨place, elsewhere, same⟩ := (mem_files_iff proper done among.1 _).mp among.2
  obtain ⟨inner, found⟩ := elsewhere.file
  have named := (proper.isFileName (List.cons_ne_nil other.name place) found).1
  have alike := pathBelow_inj (FileTree.ne_empty_of_resolve proper.resolved) allowed named same
  obtain ⟨-, -, files, -⟩ := (mem_chapters_iff done).mp among.1
  cases other with
  | mk own others =>
      obtain ⟨rfl, -⟩ := List.cons.inj alike
      exact congrArg (Chapter.mk name) files

end

/-- The text directory is listed as its entries are, in whatever order the system tells them. -/
theorem chapters_listed {tree : FileTree} {directory : String} {base : Location}
    (proper : IsTextDirectory tree directory base) :
    ∃ found, chapters tree directory = .ok found ∧
      (∀ other, tree.SameEntries other → chapters other directory = .ok found) ∧
      ListsChapters tree directory base found := by
  obtain ⟨found, done⟩ := exists_chapters proper.isDirectory
  refine ⟨found, done, fun other same => (chapters_eq same directory).trans done, ?_⟩
  constructor
  · exact pairwise_names done
  · exact fun chapter member => ((mem_chapters_iff done).mp member).2.2.2
  · exact fun chapter member =>
      isSkipped_eq_false_iff.mp ((mem_chapters_iff done).mp member).2.1
  · intro chapter member
    obtain ⟨entry, top⟩ := exists_entry proper done member
    rw [((mem_chapters_iff done).mp member).2.2.1]
    exact pairwise_chapterFiles proper top
  · exact fun chapter member file => mem_files_iff proper done member file
  · exact fun name rest shown source => existsUnique_chapter proper done shown source

/-- A book with a chapter in one file and a chapter in a directory. -/
def bookInParts : FileTree := .ofList [] [
  (["text", "b.MD"], .file (some "One.")),
  (["text", "a", "x", "c.html"], .file (some "Two."))]

/-- The book has a text directory. -/
theorem bookInParts_listed :
    IsTextDirectory bookInParts "text" ["text"] ∧
      ∃ found, chapters bookInParts "text" = .ok found ∧
        (∀ other, bookInParts.SameEntries other → chapters other "text" = .ok found) ∧
        ListsChapters bookInParts "text" ["text"] found := by
  have proper : IsTextDirectory bookInParts "text" ["text"] := by
    constructor
    · decide
    · decide
    · exact FileTree.isRooted_of_entries (by decide)
    · decide
    · decide
  exact ⟨proper, chapters_listed proper⟩

/-- A file of the text directory that looks as if it could be rendered and is in no chapter. -/
structure IsLeftOut (tree : FileTree) (directory : String) (base : Location) (name : String) :
    Prop where
  proper : IsTextDirectory tree directory base
  file : ∃ content, tree.at? (base ++ [name]) = some (.file content)
  known : HasKnownExtension name
  shown : IsShown name
  missing : ∃ found, chapters tree directory = .ok found ∧
    ∀ chapter ∈ found, Files.Path.join directory name ∉ chapter.files

theorem isLeftOut {tree : FileTree} {directory name : String} {base : Location}
    (proper : IsTextDirectory tree directory base)
    (file : ∃ content, tree.at? (base ++ [name]) = some (.file content))
    (known : HasKnownExtension name) (shown : IsShown name)
    (ignored : ¬ IsSourceAt tree directory base name []) :
    IsLeftOut tree directory base name := by
  obtain ⟨content, there⟩ := file
  obtain ⟨found, done⟩ := exists_chapters proper.isDirectory
  exact ⟨proper, ⟨content, there⟩, known, shown, found, done,
    not_mem_files proper done there ignored⟩

/-- A book with one file. -/
def bookOfFile (name : String) : FileTree := .ofList [] [(["text", name], .file (some "One."))]

theorem bookOfFile_changelog_proper :
    IsTextDirectory (bookOfFile "CHANGELOG.md") "text" ["text"] := by
  constructor
  · decide
  · decide
  · exact FileTree.isRooted_of_entries (by decide)
  · decide
  · decide

/-- A text directory whose own path is two bytes shorter than a path may be. -/
theorem bookOfFile_far_proper :
    IsTextDirectory (bookOfFile "a.md") (Files.Path.join (FileTree.lingering 2044) "text")
      ["text"] := by
  have near : (bookOfFile "a.md").resolve "text" = .ok ["text"] := by decide
  have top : (bookOfFile "a.md").resolve (FileTree.lingering 2044) = .ok [] :=
    FileTree.resolve_lingering (by decide) (by decide)
  have far : (bookOfFile "a.md").resolve (Files.Path.join (FileTree.lingering 2044) "text") =
      .ok ["text"] := by
    have text : (bookOfFile "a.md").at? ([] ++ ["text"]) = some .directory := by decide
    refine (FileTree.resolve_join_eq_ok_iff top (by decide) (by decide) text id).mpr ⟨rfl, ?_⟩
    rw [(FileTree.lingering_endsInName _).join_eq (by decide), String.utf8ByteSize_append,
      String.utf8ByteSize_append, FileTree.utf8ByteSize_lingering]
    decide
  constructor
  · exact far
  · decide
  · exact FileTree.isRooted_of_entries (by decide)
  · rw [FileTree.descendants_eq far near]
    decide
  · rw [FileTree.descendants_eq far near]
    decide

/-- A changelog is in no chapter, and neither is a file whose path is too long. -/
theorem changelog_and_far_file_left_out :
    IsLeftOut (bookOfFile "CHANGELOG.md") "text" ["text"] "CHANGELOG.md" ∧
      IsLeftOut (bookOfFile "a.md") (Files.Path.join (FileTree.lingering 2044) "text") ["text"]
        "a.md" := by
  constructor
  · apply isLeftOut bookOfFile_changelog_proper ⟨some "One.", by decide⟩
    · exact ⟨"CHANGELOG".toList, "md".toList, by decide, by decide, by decide, by decide⟩
    · decide
    · intro source
      have word : HasReservedName "CHANGELOG.md" :=
        ⟨"CHANGELOG".toList, "md".toList, by decide, by decide⟩
      exact source.unreserved rfl ⟨word, by decide⟩
  · apply isLeftOut bookOfFile_far_proper ⟨some "One.", by decide⟩
    · exact ⟨['a'], "md".toList, by decide, by decide, by decide, by decide⟩
    · decide
    · intro source
      have long := source.reached
      have text : Files.Path.IsName "text" := by decide
      have ends := text.endsInName (FileTree.lingering 2044 ++ "/")
      rw [← (FileTree.lingering_endsInName _).join_eq text] at ends
      rw [List.dropLast_nil, pathBelow, List.foldl_cons, List.foldl_nil,
        ends.join_eq (by decide), (FileTree.lingering_endsInName _).join_eq text] at long
      simp only [String.utf8ByteSize_append, FileTree.utf8ByteSize_lingering] at long
      exact absurd long (by decide)

end Bindery.Discovery
