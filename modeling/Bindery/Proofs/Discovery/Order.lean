import Bindery.Proofs.Discovery
import Bindery.Proofs.Files.Walk
import Bindery.Proofs.Text.ByteOrder

/-!
# The order of chapters

Chapters are in the order of their names and files in that of their locations, so it
makes no difference in what order the system tells the entries of a directory.
-/

set_option autoImplicit false

namespace Bindery.Discovery

open Files (FileTree Location Entry)

section

variable {tree other : FileTree} {directory name : String} {location place last : Location}

theorem isUpTo_total (location place : Location) :
    (isUpTo location place || isUpTo place location) = true := by
  induction location generalizing place with
  | nil => rfl
  | cons name location ih =>
      cases place with
      | nil => rfl
      | cons own place =>
          have later := ih place
          rw [Bool.or_eq_true] at later ⊢
          simp only [isUpTo, Bool.or_eq_true, Bool.and_eq_true, decide_eq_true_iff, beq_iff_eq]
          by_cases less : name < own
          · exact .inl (.inl less)
          by_cases more : own < name
          · exact .inr (.inl more)
          obtain rfl : name = own :=
            String.le_antisymm (String.not_lt.mp more) (String.not_lt.mp less)
          exact later.imp (fun first => .inr ⟨rfl, first⟩) fun second => .inr ⟨rfl, second⟩

theorem isUpTo_trans (first : isUpTo location place = true) (second : isUpTo place last = true) :
    isUpTo location last = true := by
  induction location generalizing place last with
  | nil => rfl
  | cons name location ih =>
      cases place with
      | nil => cases first
      | cons own place =>
          cases last with
          | nil => cases second
          | cons other last =>
              simp only [isUpTo, Bool.or_eq_true, Bool.and_eq_true, decide_eq_true_iff,
                beq_iff_eq] at first second ⊢
              rcases first with less | ⟨rfl, first⟩
              · left
                rcases second with more | ⟨rfl, -⟩
                · exact String.lt_trans less more
                · exact less
              · rcases second with more | ⟨rfl, second⟩
                · exact .inl more
                · exact .inr ⟨rfl, ih first second⟩

/-- Of two locations the one that is up to the other one comes first byte by byte. -/
theorem bytes_lt_of_isUpTo (first : isUpTo location place = true) (differs : location ≠ place) :
    (location.map fun name => Text.bytes name.toList) <
      place.map fun name => Text.bytes name.toList := by
  induction location generalizing place with
  | nil =>
      cases place with
      | nil => exact absurd rfl differs
      | cons own place => exact List.nil_lt_cons _ _
  | cons name location ih =>
      cases place with
      | nil => cases first
      | cons own place =>
          simp only [isUpTo, Bool.or_eq_true, Bool.and_eq_true, decide_eq_true_iff,
            beq_iff_eq] at first
          rw [List.map_cons, List.map_cons, List.cons_lt_cons_iff]
          rcases first with less | ⟨rfl, first⟩
          · exact .inl (Text.bytes_lt_bytes (String.lt_iff.mp less))
          · refine .inr ⟨rfl, ih first fun same => differs (same ▸ rfl)⟩

theorem isUpTo_antisymm (first : isUpTo location place = true)
    (second : isUpTo place location = true) : location = place := by
  induction location generalizing place with
  | nil =>
      cases place with
      | nil => rfl
      | cons own place => cases second
  | cons name location ih =>
      cases place with
      | nil => cases first
      | cons own place =>
          simp only [isUpTo, Bool.or_eq_true, Bool.and_eq_true, decide_eq_true_iff,
            beq_iff_eq] at first second
          rcases first with less | ⟨rfl, first⟩
          · rcases second with more | ⟨rfl, -⟩
            · exact absurd more (String.lt_asymm less)
            · exact absurd less (String.lt_irrefl own)
          · rcases second with more | ⟨-, second⟩
            · exact absurd more (String.lt_irrefl name)
            · rw [ih first second]

theorem pairwise_mergeSort_isUpTo (locations : List Location) :
    (locations.mergeSort isUpTo).Pairwise fun location place => isUpTo location place = true := by
  apply List.pairwise_mergeSort
  · exact fun _ _ _ => isUpTo_trans
  · exact isUpTo_total

theorem mergeSort_isUpTo_eq {locations places : List Location} (same : locations.Perm places) :
    locations.mergeSort isUpTo = places.mergeSort isUpTo :=
  ((List.mergeSort_perm _ _).trans (same.trans (List.mergeSort_perm _ _).symm)).eq_of_pairwise
    (fun _ _ _ _ => isUpTo_antisymm) (pairwise_mergeSort_isUpTo _) (pairwise_mergeSort_isUpTo _)

/-! ## The order in which entries are listed -/

theorem filesBelow_eq (same : tree.SameEntries other) (path : String) :
    filesBelow other path = filesBelow tree path := by
  unfold filesBelow
  dsimp only
  rw [mergeSort_isUpTo_eq (((same.descendants_perm path).filter _).map _)]

theorem chapter?_eq (same : tree.SameEntries other) (directory name : String) :
    chapter? other directory name = chapter? tree directory name := by
  unfold chapter? chapterFiles FileTree.isDirectory FileTree.isFile
  simp only [same.lookup?_eq, filesBelow_eq same]

/-- The chapters do not depend on the order in which entries are listed. -/
theorem chapters_eq (same : tree.SameEntries other) (directory : String) :
    chapters other directory = chapters tree directory := by
  have names : sortedNames other directory = sortedNames tree directory :=
    sortedNames_eq_of_perm ((same.list_perm directory).trans (perm_sortedNames tree directory).symm)
      (pairwise_sortedNames tree directory)
  unfold chapters FileTree.isDirectory
  rw [same.lookup?_eq, names, funext (chapter?_eq same directory)]

end

end Bindery.Discovery
