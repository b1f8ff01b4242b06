import Bindery.Proofs.Files.Walk
import Mathlib.Data.List.Perm.Subperm

/-!
# What writing a file does

Directories are made on the way that a path takes, and nothing else is. The temporary
file is new, so it can be taken away, and what it leaves is the tree before it was made.
It takes the place that the path means, or there is no trace of it.
-/

set_option autoImplicit false

namespace Bindery.Files.FileTree

/-- One tree has become another one, in which there are more directories. The pieces of
a path lead to them. -/
structure GainsDirectories (path : String) (pieces : List String) (tree made : FileTree) :
    Prop where
  keeps : tree.Keeps made
  gained : ∀ location entry, made.at? location = some entry → tree.at? location = none →
    entry = .directory ∧ ∃ front, front <+: pieces ∧ made.walkFrom path front = .ok location
  rooted : tree.IsRooted → made.IsRooted

/-- A path means a name in a directory, where a file can be put. -/
structure Places (tree : FileTree) (path : String) (above : Location) (name : String) :
    Prop where
  noNul : hasNul (Path.pieces path) = false
  checked : checkPath path = .ok ()
  walked : tree.walkFrom path (Path.pieces path).dropLast = .ok above
  directory : tree.at? above = some .directory
  last : (Path.pieces path).getLast? = some name
  step : IsStep name
  noSlash : Path.endsInSlash path = false
  free : tree.at? (above ++ [name]) ≠ some .directory

section

variable {system : System} {tree made withFile : FileTree} {path contents name : String}
  {pieces reversed : List String} {above place temporary : Location}

theorem splitTarget_eq_ok {last : Option String}
    (found : tree.splitTarget path pieces = .ok (above, last)) :
    tree.walkFrom path pieces.dropLast = .ok above ∧ tree.at? above = some .directory ∧
      pieces.getLast? = last := by
  obtain ⟨place, walked, done⟩ := bind_eq_ok found
  split at done
  · next directory =>
      cases done
      exact ⟨walked, directory, rfl⟩
  · cases done

/-- A directory is made where nothing stood, below another one. -/
theorem makeDirectory_eq_ok (done : tree.makeDirectory system path pieces = .ok made) :
    ∃ above name, tree.walkFrom path pieces.dropLast = .ok above ∧
      tree.at? above = some .directory ∧ pieces.getLast? = some name ∧ IsStep name ∧
      tree.at? (above ++ [name]) = none ∧ made = tree.put (above ++ [name]) .directory := by
  obtain ⟨⟨above, last⟩, found, done⟩ := bind_eq_ok done
  obtain ⟨walked, directory, last⟩ := splitTarget_eq_ok found
  split at done
  · cases done
  next same =>
  cases same
  next name =>
  split at done
  · cases done
  next other =>
  rw [not_or] at other
  split at done
  · cases done
  next fits =>
  split at done
  · cases done
  next missing =>
  split at done
  · cases done
  cases done
  exact ⟨above, name, walked, directory, last, ⟨other.1, other.2, fits⟩, by simpa using missing,
    rfl⟩

theorem GainsDirectories.refl (path : String) (pieces : List String) (tree : FileTree) :
    GainsDirectories path pieces tree tree where
  keeps := .refl tree
  gained _ _ there missing := by
    rw [there] at missing
    cases missing
  rooted := id

theorem GainsDirectories.trans {last : FileTree} (first : GainsDirectories path pieces tree made)
    (second : GainsDirectories path pieces made last) : GainsDirectories path pieces tree last where
  keeps := first.keeps.trans second.keeps
  gained location entry there missing := by
    cases before : made.at? location with
    | none => exact second.gained location entry there before
    | some earlier =>
        obtain ⟨rfl, front, inside, walked⟩ := first.gained location earlier before missing
        rw [second.keeps.entries location _ before] at there
        exact ⟨(Option.some.inj there).symm, front, inside, second.keeps.walk walked⟩
  rooted := second.rooted ∘ first.rooted

theorem GainsDirectories.longer {more : List String}
    (gains : GainsDirectories path pieces tree made) (inside : pieces <+: more) :
    GainsDirectories path more tree made :=
  { gains with
    gained := fun location entry there missing =>
      have ⟨directory, front, before, walked⟩ := gains.gained location entry there missing
      ⟨directory, front, before.trans inside, walked⟩ }

theorem keeps_put (entry : Entry) (missing : tree.at? place = none) :
    tree.Keeps (tree.put place entry) where
  here := rfl
  entries location found there := by
    rwa [at?_put_of_ne]
    rintro rfl
    rw [missing] at there
    cases there

/-- The path leads to the directory that is made for it. -/
theorem walk_of_makeDirectory (done : tree.makeDirectory system path pieces = .ok made) :
    ∃ above name, tree.at? above = some .directory ∧ tree.at? (above ++ [name]) = none ∧
      made = tree.put (above ++ [name]) .directory ∧
      made.walkFrom path pieces = .ok (above ++ [name]) := by
  obtain ⟨above, name, walked, directory, last, step, missing, rfl⟩ := makeDirectory_eq_ok done
  refine ⟨above, name, directory, missing, rfl, ?_⟩
  have keeps := keeps_put .directory missing
  have stands : (tree.put (above ++ [name]) .directory).at? (above ++ [name]) = some .directory :=
    at?_put _ (ne_nil_of_missing missing)
  rw [← List.dropLast_append_getLast? name last]
  exact walk_of_leads
    ((leads_of_walk (keeps.walk walked)).into (keeps.entries above _ directory) step stands id)

theorem gains_makeDirectory (done : tree.makeDirectory system path pieces = .ok made) :
    GainsDirectories path pieces tree made := by
  obtain ⟨above, name, directory, missing, rfl, walked⟩ := walk_of_makeDirectory done
  refine ⟨keeps_put .directory missing, fun location entry there before => ?_, fun rooted =>
    rooted.put directory (by rw [missing]; nofun) _⟩
  have same : location = above ++ [name] := by
    by_contra differs
    rw [at?_put_of_ne _ differs, before] at there
    cases there
  rw [same, at?_put _ (ne_nil_of_missing missing)] at there
  exact ⟨(Option.some.inj there).symm, pieces, List.prefix_rfl, same ▸ walked⟩

theorem unlessDirectory_fst (error : FileError) :
    (tree.unlessDirectory path pieces error).1 = tree := by
  unfold unlessDirectory
  split <;> rfl

/-- Whether or not all directories can be made, those that are made are on the way. -/
theorem gains_makeDirectories (tree : FileTree) (system : System) (path : String)
    (reversed : List String) :
    GainsDirectories path reversed.reverse tree
      (tree.makeDirectories system path reversed).1 := by
  induction reversed generalizing tree with
  | nil => exact .refl path [] tree
  | cons name above ih =>
      have shorter : above.reverse <+: (name :: above).reverse := by simp
      rw [makeDirectories, ← List.reverse_cons]
      split
      · next made done => exact gains_makeDirectory done
      · have first := (ih tree).longer shorter
        split
        · next half same =>
            rw [same] at first
            split
            · next made done => exact first.trans (gains_makeDirectory done)
            · rwa [unlessDirectory_fst]
        · exact first
      · rw [unlessDirectory_fst]
        exact .refl path _ tree

/-- The temporary file is a new one. -/
theorem makeTemporary_eq_ok (done : tree.makeTemporary system path = .ok (temporary, withFile)) :
    tree.at? temporary = none ∧ withFile = tree.put temporary (.file (some "")) := by
  obtain ⟨above, -, done⟩ := bind_eq_ok done
  split at done
  · cases done
  split at done
  · cases done
  dsimp only at done
  split at done
  · cases done
  next place found =>
  cases done
  exact ⟨by simpa using List.find?_some found, rfl⟩

theorem placeFor_eq_ok_iff :
    tree.placeFor path = .ok place ↔
      ∃ above name, tree.Places path above name ∧ place = above ++ [name] := by
  unfold placeFor
  constructor
  · intro done
    split at done
    · cases done
    next noNul =>
    obtain ⟨⟨⟩, checked, done⟩ := bind_eq_ok done
    obtain ⟨⟨above, last⟩, found, done⟩ := bind_eq_ok done
    obtain ⟨walked, directory, last⟩ := splitTarget_eq_ok found
    dsimp only at done
    split at done
    · cases done
    next name =>
    split at done
    · cases done
    next other =>
    rw [not_or] at other
    split at done
    · cases done
    next fits =>
    split at done
    · cases done
    next noSlash =>
    split at done
    · cases done
    next free =>
    cases done
    exact ⟨above, name, ⟨by simpa using noNul, checked, walked, directory, last,
      ⟨other.1, other.2, fits⟩, by simpa using noSlash, free⟩, rfl⟩
  · rintro ⟨above, name, means, rfl⟩
    have found : tree.splitTarget path (Path.pieces path) = .ok (above, some name) := by
      rw [splitTarget, means.walked, ← means.last]
      exact if_pos means.directory
    rw [if_neg (by simp [means.noNul]), means.checked]
    dsimp only [bind, Except.bind]
    rw [found]
    dsimp only
    rw [if_neg (not_or.mpr ⟨means.step.notSame, means.step.notAbove⟩), if_neg means.step.fits,
      if_neg (by simp [means.noSlash]), if_neg means.free]

/-- A new file beside it does not change where a path means a file to be put. -/
theorem Places.of_put {content : Option String}
    (means : (tree.put temporary (.file content)).Places path above name)
    (missing : tree.at? temporary = none) : tree.Places path above name := by
  have new : (tree.put temporary (.file content)).at? temporary = some (.file content) :=
    at?_put _ (ne_nil_of_missing missing)
  have elsewhere : above ≠ temporary := by
    rintro rfl
    have directory := means.directory
    rw [new] at directory
    cases directory
  refine { means with walked := ?_, directory := ?_, free := ?_ }
  · refine walk_of_leads ((leads_of_walk means.walked).kept fun place entry there ends => ?_)
    by_cases same : place = temporary
    · rw [same, new] at there
      exact absurd ((ends content (Option.some.inj there).symm).trans same) elsewhere
    · rwa [at?_put_of_ne _ same] at there
  · rw [← means.directory, at?_put_of_ne _ elsewhere]
  · by_cases same : above ++ [name] = temporary
    · rw [same, missing]
      nofun
    · rw [← at?_put_of_ne (.file content) same]
      exact means.free

theorem rename_eq_ok {content : Option String} {written : FileTree}
    (missing : tree.at? temporary = none)
    (done : (tree.put temporary (.file content)).rename system temporary path = .ok written) :
    ∃ above name, tree.Places path above name ∧
      written = tree.put (above ++ [name]) (.file content) := by
  obtain ⟨place, means, done⟩ := bind_eq_ok done
  obtain ⟨above, name, places, rfl⟩ := placeFor_eq_ok_iff.mp means
  refine ⟨above, name, places.of_put missing, ?_⟩
  rw [at?_put _ (ne_nil_of_missing missing), remove_put _ missing] at done
  split at done
  · cases done
  · next none => cases none
  · next entry _ same =>
      cases same
      exact (Except.ok.inj done).symm

/-- There is a new file with the whole content, or all is as it was without the temporary
file. -/
theorem cases_writeThrough (system : System) (path contents : String)
    (missing : tree.at? temporary = none) :
    (∃ error, (tree.put temporary (.file (some ""))).writeThrough system temporary path contents =
        (tree, .error error)) ∨
      ∃ above name, tree.Places path above name ∧
        (tree.put temporary (.file (some ""))).writeThrough system temporary path contents =
          (tree.put (above ++ [name]) (.file (some contents)), .ok ()) := by
  unfold writeThrough fill
  cases system.stopsWriting with
  | some stop =>
      dsimp only [Except.bind]
      rw [put_put, remove_put _ missing]
      exact .inl ⟨_, rfl⟩
  | none =>
      dsimp only [Except.bind]
      rw [put_put]
      cases renamed : (tree.put temporary (.file (some contents))).rename system temporary path with
      | error error =>
          rw [remove_put _ missing]
          exact .inl ⟨error, rfl⟩
      | ok written =>
          obtain ⟨above, name, places, rfl⟩ := rename_eq_ok missing renamed
          exact .inr ⟨above, name, places, rfl⟩

/-- Directories are made, and then a file is put where the path means it, or nothing else
is done. -/
theorem cases_writeOn (tree : FileTree) (system : System) (path contents : String) :
    ∃ made, GainsDirectories path (directoryAbove path).reverse tree made ∧
      ((∃ error, tree.writeOn system path contents = (made, .error error)) ∨
        ∃ above name,
          tree.makeDirectories system path (directoryAbove path) = (made, .ok ()) ∧
          made.Places path above name ∧
          tree.writeOn system path contents =
            (made.put (above ++ [name]) (.file (some contents)), .ok ())) := by
  rw [writeOn]
  split
  · exact ⟨tree, .refl path _ tree, .inl ⟨_, rfl⟩⟩
  have gains := gains_makeDirectories tree system path (directoryAbove path)
  split
  · next made error same =>
      rw [same] at gains
      exact ⟨made, gains, .inl ⟨error, rfl⟩⟩
  · next made same =>
      rw [same] at gains
      refine ⟨made, gains, ?_⟩
      split
      · next error _ => exact .inl ⟨error, rfl⟩
      · next temporary withFile done =>
          obtain ⟨missing, rfl⟩ := makeTemporary_eq_ok done
          obtain ⟨error, failed⟩ | ⟨above, name, means, written⟩ :=
            cases_writeThrough system path contents missing
          · exact .inl ⟨error, failed⟩
          · exact .inr ⟨above, name, same, means, written⟩

/-- A file takes the way to its directory away only if it takes the place of a link. -/
theorem Places.walk_put {entry : Entry} (means : tree.Places path above name)
    (plain : ∀ target, tree.at? (above ++ [name]) ≠ some (.link target)) :
    (tree.put (above ++ [name]) entry).walkFrom path (Path.pieces path).dropLast = .ok above := by
  refine walk_of_leads ((leads_of_walk means.walked).kept fun place found there ends => ?_)
  by_cases same : place = above ++ [name]
  · subst same
    cases found with
    | file content => exact absurd (ends content rfl) (by simp)
    | directory => exact absurd there means.free
    | link target => exact absurd there (plain target)
  · rw [at?_put_of_ne _ same, there]

/-- A file that is put where a path means it is read there, if the path still leads to its
directory. -/
theorem Places.readRaw_put (means : tree.Places path above name)
    (walked : (tree.put (above ++ [name]) (.file (some contents))).walkFrom path
      (Path.pieces path).dropLast = .ok above) :
    (tree.put (above ++ [name]) (.file (some contents))).readRaw path = .ok contents := by
  have new : (tree.put (above ++ [name]) (.file (some contents))).at? (above ++ [name]) =
      some (.file (some contents)) := at?_put _ (by simp)
  refine readRaw_eq_ok_iff.mpr ⟨above ++ [name], resolve_eq_ok_iff.mpr ⟨means.checked, ?_⟩, new⟩
  rw [Path.steps, means.noSlash, if_neg Bool.false_ne_true,
    ← List.dropLast_append_getLast? name means.last]
  refine walk_of_leads ((leads_of_walk walked).into ?_ means.step new id)
  rw [at?_put_of_ne _ (by simp), means.directory]

/-- Nothing new stands below a new directory but directories. -/
theorem GainsDirectories.empty (gains : GainsDirectories path pieces tree made)
    (rooted : tree.IsRooted) (missing : tree.at? place = none) {rest : Location} {entry : Entry}
    (there : made.at? (place ++ rest) = some entry) : entry = .directory :=
  (gains.gained _ entry there (rooted.missing_below missing rest)).1

/-! ### When a file is written -/

theorem leadsToDirectory_iff :
    tree.leadsToDirectory path pieces = true ↔
      ∃ location, tree.walkFrom path pieces = .ok location ∧
        tree.at? location = some .directory := by
  rw [leadsToDirectory, decide_eq_true_iff]
  cases tree.walkFrom path pieces with
  | error error => exact ⟨nofun, fun ⟨_, found, _⟩ => nomatch found⟩
  | ok location => exact ⟨fun there => ⟨location, rfl, there⟩, fun ⟨_, same, there⟩ => by
      cases same
      exact there⟩

theorem leadsToDirectory_of_makeDirectory
    (done : tree.makeDirectory system path pieces = .ok made) :
    made.leadsToDirectory path pieces = true := by
  obtain ⟨above, name, -, missing, rfl, walked⟩ := walk_of_makeDirectory done
  exact leadsToDirectory_iff.mpr ⟨_, walked, at?_put _ (ne_nil_of_missing missing)⟩

theorem leadsToDirectory_of_unlessDirectory {error : FileError}
    (done : tree.unlessDirectory path pieces error = (made, .ok ())) :
    made.leadsToDirectory path pieces = true := by
  unfold unlessDirectory at done
  split at done
  · next there =>
      cases done
      exact there
  · cases done

/-- When directories have been made, the path leads to the last of them. -/
theorem leadsToDirectory_of_makeDirectories
    (start : made.leadsToDirectory path [] = true)
    (done : tree.makeDirectories system path reversed = (made, .ok ())) :
    made.leadsToDirectory path reversed.reverse = true := by
  cases reversed with
  | nil =>
      cases done
      exact start
  | cons name above =>
      rw [makeDirectories, ← List.reverse_cons] at done
      split at done
      · next made' once =>
          cases done
          exact leadsToDirectory_of_makeDirectory once
      · split at done
        · split at done
          · next made' again =>
              cases done
              exact leadsToDirectory_of_makeDirectory again
          · exact leadsToDirectory_of_unlessDirectory done
        · next failed =>
            exact absurd done (failed made)
      · exact leadsToDirectory_of_unlessDirectory done

theorem Places.start (means : tree.Places path above name) :
    tree.leadsToDirectory path [] = true := by
  refine leadsToDirectory_iff.mpr ⟨_, walk_of_leads .arrived, ?_⟩
  by_contra other
  obtain rfl := (leads_of_walk means.walked).eq_of_not_directory other
  exact other means.directory

/-- One of as many names as there are entries and one more is free. -/
theorem exists_free (tree : FileTree) (above : Location) :
    ∃ number < tree.entries.length + 1,
      tree.at? (above ++ [System.calm.temporaryName number]) = none := by
  by_contra taken
  push Not at taken
  let places := (List.range (tree.entries.length + 1)).map fun number =>
    above ++ [System.calm.temporaryName number]
  have distinct : places.Nodup := by
    refine List.Nodup.map (fun first second same => ?_) List.nodup_range
    have names := List.append_cancel_left same
    rw [List.cons_eq_cons, and_iff_left rfl] at names
    have digits := congrArg String.toList (String.append_right_inj _ |>.mp names)
    rw [Nat.toString_eq_repr, Nat.toString_eq_repr, Nat.toList_repr, Nat.toList_repr] at digits
    rw [← Nat.ofDigitChars_ten_toDigits (n := first), digits, Nat.ofDigitChars_ten_toDigits]
  have inside : places ⊆ tree.entries.map (·.1) := by
    intro place member
    obtain ⟨number, small, rfl⟩ := List.mem_map.mp member
    by_contra outside
    refine taken number (List.mem_range.mp small) ?_
    rw [at?, if_neg (by simp), Option.map_eq_none_iff, List.find?_eq_none]
    exact fun item stored same => outside (List.mem_map.mpr ⟨item, stored, of_decide_eq_true same⟩)
  have fits := (List.subperm_of_subset distinct inside).length_le
  simp only [places, List.length_map, List.length_range] at fits
  omega

theorem exists_makeTemporary
    (there : tree.leadsToDirectory path (directoryAbove path).reverse = true) :
    ∃ temporary withFile, tree.makeTemporary .calm path = .ok (temporary, withFile) := by
  obtain ⟨above, walked, directory⟩ := leadsToDirectory_iff.mp there
  obtain ⟨number, small, free⟩ := exists_free tree above
  rw [makeTemporary, walked]
  dsimp only [bind, Except.bind, System.calm]
  rw [if_neg (not_not.mpr directory)]
  split
  · next none =>
      rw [List.find?_eq_none] at none
      exact absurd (by rw [Option.isNone_iff_eq_none]; exact free)
        (none _ (List.mem_map.mpr ⟨number, List.mem_range.mpr small, rfl⟩))
  · exact ⟨_, _, rfl⟩

/-- A path means the same place for a file when there is a new file beside it. -/
theorem Places.beside {content : Option String} (means : tree.Places path above name)
    (missing : tree.at? temporary = none) :
    (tree.put temporary (.file content)).Places path above name := by
  have keeps := keeps_put (.file content) missing
  refine { means with
    walked := keeps.walk means.walked
    directory := keeps.entries above _ means.directory
    free := fun there => ?_ }
  by_cases same : above ++ [name] = temporary
  · rw [same, at?_put _ (ne_nil_of_missing missing)] at there
    cases there
  · rw [at?_put_of_ne _ same] at there
    exact means.free there

theorem rename_beside {content : Option String} (means : tree.Places path above name)
    (missing : tree.at? temporary = none) :
    (tree.put temporary (.file content)).rename .calm temporary path =
      .ok (tree.put (above ++ [name]) (.file content)) := by
  rw [rename, placeFor_eq_ok_iff.mpr ⟨above, name, means.beside missing, rfl⟩]
  dsimp only [bind, Except.bind, System.calm]
  rw [at?_put _ (ne_nil_of_missing missing), remove_put _ missing]

theorem writeThrough_calm (contents : String) (means : tree.Places path above name)
    (missing : tree.at? temporary = none) :
    (tree.put temporary (.file (some ""))).writeThrough .calm temporary path contents =
      (tree.put (above ++ [name]) (.file (some contents)), .ok ()) := by
  have filled (withFile : FileTree) : withFile.fill .calm temporary contents =
      (withFile.put temporary (.file (some contents)), .ok ()) := rfl
  unfold writeThrough
  rw [filled]
  dsimp only [Except.bind]
  rw [put_put, rename_beside means missing]

theorem hasNul_directoryAbove (noNul : hasNul (Path.pieces path) = false) :
    hasNul (directoryAbove path) = false := by
  rw [hasNul, List.any_eq_false] at noNul ⊢
  refine fun piece member => noNul piece ?_
  exact (List.mem_filter.mp (List.mem_reverse.mp (List.mem_of_mem_drop member))).1

/-- A system that refuses nothing writes a file exactly if the directories above it can be
made and the path then means a place for a file. -/
theorem writeOn_calm_eq_ok_iff (contents : String) :
    (tree.writeOn .calm path contents).2 = .ok () ↔
      ∃ made above name, tree.makeDirectories .calm path (directoryAbove path) = (made, .ok ()) ∧
        made.Places path above name := by
  constructor
  · intro done
    obtain ⟨made, -, ⟨error, failed⟩ | ⟨above, name, directories, means, -⟩⟩ :=
      cases_writeOn tree .calm path contents
    · rw [failed] at done
      cases done
    · exact ⟨made, above, name, directories, means⟩
  · rintro ⟨made, above, name, directories, means⟩
    obtain ⟨temporary, withFile, beside⟩ := exists_makeTemporary
      (leadsToDirectory_of_makeDirectories means.start directories)
    obtain ⟨missing, rfl⟩ := makeTemporary_eq_ok beside
    rw [writeOn, if_neg (by simp [hasNul_directoryAbove means.noNul]), directories]
    dsimp only
    rw [beside]
    dsimp only
    rw [writeThrough_calm contents means missing]

end

end Bindery.Files.FileTree
