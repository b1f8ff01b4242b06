import Bindery.Proofs.Files.Walk

/-!
# Entries by their paths

An entry of a directory is found by the path of the directory and its name, as long as
the path is not too long to be looked up.
-/

set_option autoImplicit false

namespace Bindery.Files.FileTree

instance (name : String) : Decidable (IsStep name) :=
  decidable_of_iff (name ≠ "." ∧ name ≠ ".." ∧ ¬ maxNameSize < name.utf8ByteSize)
    ⟨fun step => ⟨step.1, step.2.1, step.2.2⟩, fun step => ⟨step.notSame, step.notAbove, step.fits⟩⟩

/-- A name that a file system allows. -/
structure IsFileName (name : String) : Prop where
  named : Path.IsName name
  step : IsStep name
  noNul : '\x00' ∉ name.toList

instance (name : String) : Decidable (IsFileName name) :=
  decidable_of_iff (Path.IsName name ∧ IsStep name ∧ '\x00' ∉ name.toList)
    ⟨fun own => ⟨own.1, own.2.1, own.2.2⟩, fun own => ⟨own.named, own.step, own.noNul⟩⟩

section

variable {tree : FileTree} {links : Nat} {path name directory : String}
  {location found above : Location} {pieces : List String} {entry : Entry}

/-- A dot at the end of a walk leads nowhere else. -/
theorem Leads.before_dot (leads : Leads tree links location (pieces ++ ["."]) found) :
    Leads tree links location pieces found := by
  generalize whole : pieces ++ ["."] = all at leads
  induction leads generalizing pieces with
  | arrived => exact absurd whole (by simp)
  | @stays links location rest found inside later ih =>
      cases pieces with
      | nil =>
          obtain rfl : rest = [] := by simpa using whole.symm
          exact later
      | cons piece pieces =>
          obtain ⟨rfl, behind⟩ := List.cons.inj whole
          exact .stays inside (ih behind)
  | rises inside _ ih =>
      cases pieces with
      | nil => exact absurd whole (by simp)
      | cons piece pieces =>
          obtain ⟨rfl, behind⟩ := List.cons.inj whole
          exact .rises inside (ih behind)
  | enters inside step there plain _ ih =>
      cases pieces with
      | nil => exact absurd (List.cons.inj whole).1.symm step.notSame
      | cons piece pieces =>
          obtain ⟨rfl, behind⟩ := List.cons.inj whole
          exact .enters inside step there plain (ih behind)
  | follows inside step there _ ih =>
      cases pieces with
      | nil => exact absurd (List.cons.inj whole).1.symm step.notSame
      | cons piece pieces =>
          obtain ⟨rfl, behind⟩ := List.cons.inj whole
          apply Leads.follows inside step there
          apply ih
          rw [List.append_assoc]
          exact congrArg _ behind

theorem leads_of_resolve (resolved : tree.resolve path = .ok found) :
    Leads tree maxLinks (start path tree.here) (Path.pieces path) found := by
  have leads := leads_of_walk (resolve_eq_ok_iff.mp resolved).2
  unfold Path.steps at leads
  split at leads
  · exact leads.before_dot
  · exact leads

theorem checkPath_eq_ok_iff :
    checkPath path = .ok () ↔
      '\x00' ∉ path.toList ∧ path ≠ "" ∧ path.utf8ByteSize < maxPathSize := by
  unfold checkPath
  split
  · next nul => simpa using fun absent => absurd (List.contains_iff_mem.mp nul) absent
  · next nul =>
      have absent : '\x00' ∉ path.toList := fun member => nul (List.contains_iff_mem.mpr member)
      split
      · next empty => simp [empty]
      · next some =>
          split
          · next long => simp [some, absent, Nat.not_lt.mpr long]
          · next short => simp [some, absent, Nat.lt_of_not_le short]

theorem ne_empty_of_resolve (resolved : tree.resolve path = .ok found) : path ≠ "" :=
  (checkPath_eq_ok_iff.mp (resolve_eq_ok_iff.mp resolved).1).2.1

/-- An entry of a directory is found by its path exactly if the path is short enough. -/
theorem resolve_join_eq_ok_iff (resolved : tree.resolve directory = .ok above)
    (inside : tree.at? above = some .directory) (own : IsFileName name)
    (there : tree.at? (above ++ [name]) = some entry) (plain : ¬ entry.IsLink) :
    tree.resolve (Path.join directory name) = .ok found ↔
      found = above ++ [name] ∧ (Path.join directory name).utf8ByteSize < maxPathSize := by
  obtain ⟨noNul, some, -⟩ := checkPath_eq_ok_iff.mp (resolve_eq_ok_iff.mp resolved).1
  have leads := (leads_of_resolve resolved).into inside own.step there plain
  have walked : tree.walkFrom (Path.join directory name)
      (Path.steps (Path.join directory name)) = .ok (above ++ [name]) := by
    rw [walkFrom, start, Path.isAbsolute_join some own.named, Path.steps_join some own.named]
    exact walk_of_leads leads
  have plainPath : '\x00' ∉ (Path.join directory name).toList := by
    intro member
    rcases Path.mem_join member with inside | slash | inside
    · exact noNul inside
    · cases slash
    · exact own.noNul inside
  rw [resolve_eq_ok_iff, checkPath_eq_ok_iff, walked]
  constructor
  · intro found
    exact ⟨(Except.ok.inj found.2).symm, found.1.2.2⟩
  · intro found
    obtain ⟨rfl, short⟩ := found
    exact ⟨⟨plainPath, Path.join_ne_empty own.named, short⟩, rfl⟩

/-- What stands in a directory is what a lookup of its path tells. -/
theorem lookup?_join (resolved : tree.resolve directory = .ok above)
    (inside : tree.at? above = some .directory) (own : IsFileName name)
    (there : tree.at? (above ++ [name]) = some entry) (plain : ¬ entry.IsLink) :
    tree.lookup? (Path.join directory name) =
      if (Path.join directory name).utf8ByteSize < maxPathSize then some entry else none := by
  have leads : ∀ found, tree.resolve (Path.join directory name) = .ok found ↔ _ :=
    fun _ => resolve_join_eq_ok_iff resolved inside own there plain
  unfold lookup?
  split
  · next short =>
      rw [(leads _).mpr ⟨rfl, short⟩]
      exact there
  · next long =>
      cases done : tree.resolve (Path.join directory name) with
      | ok found => exact absurd ((leads found).mp done).2 long
      | error error => rfl

/-- A path that stays where it is, step after step. -/
def lingering : Nat → String
  | 0 => "."
  | count + 1 => Path.join (lingering count) "."

theorem lingering_ne_empty (count : Nat) : lingering count ≠ "" := by
  cases count with
  | zero => decide
  | succ count => exact Path.join_ne_empty (by decide)

theorem lingering_endsInName (count : Nat) : Path.EndsInName (lingering count) := by
  cases count with
  | zero => exact ⟨'.', by decide, by decide⟩
  | succ count =>
      obtain ⟨lead, joined⟩ := Path.exists_join_eq (lingering count)
      have dot : Path.IsName "." := by decide
      rw [lingering, joined _ dot]
      exact dot.endsInName lead

theorem lingering_succ (count : Nat) : lingering (count + 1) = lingering count ++ "/" ++ "." :=
  (lingering_endsInName count).join_eq (by decide)

theorem utf8ByteSize_lingering (count : Nat) :
    (lingering count).utf8ByteSize = 2 * count + 1 := by
  induction count with
  | zero => decide
  | succ count ih =>
      have slash : "/".utf8ByteSize = 1 := by decide
      have dot : ".".utf8ByteSize = 1 := by decide
      rw [lingering_succ, String.utf8ByteSize_append, String.utf8ByteSize_append, ih, slash, dot]
      omega

theorem steps_lingering (count : Nat) :
    Path.steps (lingering count) = List.replicate (count + 1) "." := by
  have pieces : ∀ count, Path.pieces (lingering count) = List.replicate (count + 1) "." := by
    intro count
    induction count with
    | zero => decide
    | succ count ih =>
        rw [lingering, Path.pieces_join (lingering_ne_empty count) (by decide), ih,
          ← List.replicate_succ']
  cases count with
  | zero => decide
  | succ count =>
      rw [lingering, Path.steps_join (lingering_ne_empty count) (by decide), pieces,
        ← List.replicate_succ']

theorem mem_lingering {count : Nat} {c : Char} (member : c ∈ (lingering count).toList) :
    c = '.' ∨ c = '/' := by
  induction count with
  | zero => exact .inl (List.mem_singleton.mp member)
  | succ count ih =>
      rcases Path.mem_join member with inside | slash | dot
      · exact ih inside
      · exact .inr slash
      · exact .inl (List.mem_singleton.mp dot)

/-- A path that stays where it is leads there. -/
theorem resolve_lingering {count : Nat} (inside : tree.at? tree.here = some .directory)
    (short : 2 * count + 1 < maxPathSize) : tree.resolve (lingering count) = .ok tree.here := by
  have stays : ∀ count, Leads tree maxLinks tree.here (List.replicate count ".") tree.here := by
    intro count
    induction count with
    | zero => exact .arrived
    | succ count ih => exact .stays inside ih
  have relative : Path.isAbsolute (lingering count) = false := by
    induction count with
    | zero => decide
    | succ count ih =>
        rw [lingering, Path.isAbsolute_join (lingering_ne_empty count) (by decide)]
        exact ih (by omega)
  rw [resolve_eq_ok_iff, checkPath_eq_ok_iff, walkFrom, start, relative, steps_lingering,
    utf8ByteSize_lingering]
  refine ⟨⟨fun nul => ?_, lingering_ne_empty count, short⟩, walk_of_leads (stays _)⟩
  rcases mem_lingering nul with dot | slash
  · exact absurd dot (by decide)
  · exact absurd slash (by decide)

/-- A tree is rooted if each of its entries has a directory above it. -/
theorem isRooted_of_entries
    (above : ∀ item ∈ tree.entries, tree.at? item.1.dropLast = some .directory) :
    tree.IsRooted := by
  intro location name entry there
  have stored := (at?_eq_some_iff (by simp)).mp there
  have inside := above _ stored
  rwa [List.dropLast_concat] at inside

theorem IsRooted.directory_above {rest : Location} (rooted : tree.IsRooted) (below : rest ≠ [])
    (there : tree.at? (location ++ rest) = some entry) : tree.at? location = some .directory := by
  induction rest using List.reverseRecOn generalizing entry with
  | nil => exact absurd rfl below
  | append_singleton front last ih =>
      rw [← List.append_assoc] at there
      have inside := rooted _ last entry there
      by_cases top : front = []
      · rwa [top, List.append_nil] at inside
      · exact ih top inside

end

end Bindery.Files.FileTree
