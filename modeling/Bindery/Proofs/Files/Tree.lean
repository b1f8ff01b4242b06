import Bindery.Files.Write
import Bindery.Proofs.Files.Path
import Mathlib.Data.List.Nodup

/-!
# What a tree holds

A location has one entry at most, so a directory has each of its names once. An entry
that is put or taken away leaves the others as they are.
-/

set_option autoImplicit false

namespace Bindery.Files.FileTree

/-- Entries have names as a file system has them. -/
def IsNamed (tree : FileTree) : Prop :=
  ∀ item ∈ tree.entries, ∀ name ∈ item.1, Path.IsName name

section

variable {tree : FileTree} {path name : String} {location directory rest : Location}

theorem below?_eq_some_iff :
    below? directory location = some rest ↔ location = directory ++ rest ∧ rest ≠ [] := by
  induction directory generalizing location with
  | nil =>
      cases location with
      | nil => simp [below?]
      | cons name location =>
          have below : below? [] (name :: location) = some (name :: location) := rfl
          rw [below, Option.some_inj, List.nil_append]
          exact ⟨fun same => ⟨same, same ▸ List.cons_ne_nil name location⟩, fun same => same.1⟩
  | cons name directory ih =>
      cases location with
      | nil => simp [below?]
      | cons other location =>
          rw [below?, List.cons_append, List.cons_eq_cons]
          split
          · next same => rw [ih, and_iff_right same.symm]
          · next differs => exact iff_of_false nofun fun same => differs same.1.1.symm

theorem mem_descendants {item : Location × Entry} (member : item ∈ tree.descendants path) :
    item.1 ≠ [] ∧ ∃ directory, tree.resolve path = .ok directory ∧
      (directory ++ item.1, item.2) ∈ tree.entries := by
  unfold descendants at member
  split at member
  · next directory resolved =>
      obtain ⟨⟨location, entry⟩, stored, found⟩ := List.mem_filterMap.mp member
      obtain ⟨rest, below, rfl⟩ := Option.map_eq_some_iff.mp found
      obtain ⟨rfl, nonempty⟩ := below?_eq_some_iff.mp below
      exact ⟨nonempty, directory, resolved, stored⟩
  · cases member

theorem mem_list (member : name ∈ tree.list path) :
    ∃ directory entry, tree.resolve path = .ok directory ∧
      (directory ++ [name], entry) ∈ tree.entries := by
  obtain ⟨⟨location, entry⟩, among, named⟩ := List.mem_filterMap.mp member
  obtain ⟨-, directory, resolved, stored⟩ := mem_descendants among
  dsimp only at named stored
  split at named
  · cases named
    exact ⟨directory, entry, resolved, stored⟩
  · cases named

theorem IsNamed.of_mem_list (named : tree.IsNamed) (member : name ∈ tree.list path) :
    Path.IsName name := by
  obtain ⟨directory, entry, -, stored⟩ := mem_list member
  exact named _ stored name (by simp)

theorem IsNamed.of_mem_descendants {item : Location × Entry} (named : tree.IsNamed)
    (member : item ∈ tree.descendants path) : ∀ name ∈ item.1, Path.IsName name := by
  obtain ⟨-, directory, -, stored⟩ := mem_descendants member
  exact fun name inside => named _ stored name (List.mem_append_right directory inside)

theorem nodup_descendants (tree : FileTree) (path : String) :
    ((tree.descendants path).map (·.1)).Nodup := by
  unfold descendants
  split
  · next directory resolved =>
      have locations : (tree.entries.filterMap fun item =>
          (below? directory item.1).map fun rest => (rest, item.2)).map (·.1) =
            (tree.entries.map (·.1)).filterMap (below? directory) := by
        rw [List.map_filterMap, List.filterMap_map]
        congr 1
        funext item
        simp [Option.map_map, Function.comp_def]
      rw [locations]
      refine List.Nodup.filterMap (fun first second rest here there => ?_) tree.distinct
      rw [(below?_eq_some_iff.mp here).1, (below?_eq_some_iff.mp there).1]
  · exact List.nodup_nil

/-- No name is listed twice. -/
theorem nodup_list (tree : FileTree) (path : String) : (tree.list path).Nodup := by
  have apart : (tree.descendants path).Pairwise fun first second => first.1 ≠ second.1 :=
    List.pairwise_map.mp (nodup_descendants tree path)
  unfold list
  refine apart.filterMap _ fun first second differs name here other there same => ?_
  subst same
  split at here
  · next own =>
      split at there
      · next alike =>
          cases here
          cases there
          exact differs (own.trans alike.symm)
      · cases there
  · cases here

theorem at?_put (entry : Entry) (below : location ≠ []) :
    (tree.put location entry).at? location = some entry := by
  simp [at?, put, below]

theorem at?_put_of_ne {other : Location} (entry : Entry) (differs : other ≠ location) :
    (tree.put location entry).at? other = tree.at? other := by
  have found : (tree.entries.filter fun item => item.1 ≠ location).find?
      (fun item => item.1 = other) = tree.entries.find? fun item => item.1 = other := by
    rw [List.find?_filter]
    congr 1
    funext item
    by_cases same : item.1 = other
    · simp [same, differs]
    · simp [same]
  simp only [at?, put, List.find?_cons, decide_eq_false differs.symm, found]

theorem ne_nil_of_missing (missing : tree.at? location = none) : location ≠ [] := by
  rintro rfl
  cases missing

theorem not_mem_of_missing (missing : tree.at? location = none) :
    ∀ item ∈ tree.entries, item.1 ≠ location := by
  rw [at?, if_neg (ne_nil_of_missing missing), Option.map_eq_none_iff,
    List.find?_eq_none] at missing
  exact fun item member same => missing item member (decide_eq_true same)

theorem eq_of_entries {other : FileTree} (here : tree.here = other.here)
    (entries : tree.entries = other.entries) : tree = other := by
  cases tree
  cases other
  cases here
  cases entries
  rfl

/-- A new entry that is taken away again leaves nothing behind. -/
theorem remove_put (entry : Entry) (missing : tree.at? location = none) :
    (tree.put location entry).remove location = tree := by
  have others : tree.entries.filter (fun item => item.1 ≠ location) = tree.entries :=
    List.filter_eq_self.mpr fun item member =>
      decide_eq_true (not_mem_of_missing missing item member)
  refine eq_of_entries rfl ?_
  rw [remove, put]
  dsimp only
  rw [List.filter_cons_of_neg (by simp), others, others]

theorem put_put (first second : Entry) :
    (tree.put location first).put location second = tree.put location second := by
  refine eq_of_entries rfl ?_
  change (location, second) :: ((location, first) :: tree.entries.filter _).filter _ = _
  rw [List.filter_cons_of_neg (by simp), List.filter_filter]
  simp [put]

/-- Whatever is there has a directory above it. -/
def IsRooted (tree : FileTree) : Prop :=
  ∀ location name entry, tree.at? (location ++ [name]) = some entry →
    tree.at? location = some .directory

theorem IsRooted.missing_below (rooted : tree.IsRooted) (missing : tree.at? location = none)
    (rest : Location) : tree.at? (location ++ rest) = none := by
  induction rest generalizing location with
  | nil => rwa [List.append_nil]
  | cons name rest ih =>
      rw [List.append_cons]
      refine ih (Option.eq_none_iff_forall_ne_some.mpr fun entry found => ?_)
      rw [rooted location name entry found] at missing
      cases missing

theorem IsRooted.put {above : Location} (rooted : tree.IsRooted)
    (directory : tree.at? above = some .directory)
    (other : tree.at? (above ++ [name]) ≠ some .directory) (entry : Entry) :
    (tree.put (above ++ [name]) entry).IsRooted := by
  intro location last found there
  by_cases same : location ++ [last] = above ++ [name]
  · obtain ⟨rfl, -⟩ := List.append_inj' same rfl
    rw [at?_put_of_ne entry (by simp), directory]
  · rw [at?_put_of_ne entry same] at there
    have inside := rooted location last found there
    rw [at?_put_of_ne entry fun here => other (by rw [← here, inside]), inside]

end

end Bindery.Files.FileTree
