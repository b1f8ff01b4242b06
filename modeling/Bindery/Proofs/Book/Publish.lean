import Bindery.Book.Edition
import Bindery.Proofs.Files.Write

/-!
# What writing leaves

However a call that writes a file ends, every file has either the content that it had or,
where the path means it, the whole new content. The temporary file is gone, and all else
that is new are directories on the way of the path. So an edition that cannot be made or
written leaves the one that was written before it.
-/

set_option autoImplicit false

namespace Bindery.Book

open Files (Entry FileTree Location System)
open Files.FileTree (GainsDirectories Places directoryAbove)

/-- What a call that is to write a file does to a tree: where it puts the file, what becomes
of the tree, and what it returns. -/
inductive Writes (path contents : String) (tree : FileTree) :
    Option Location → FileTree → Except BookError Unit → Prop where
  /-- The directories that have been made stay, and they are empty. -/
  | failed {after cause} :
      GainsDirectories path (directoryAbove path).reverse tree after →
      (tree.IsRooted → ∀ location rest entry, tree.at? location = none →
        after.at? (location ++ rest) = some entry → entry = .directory) →
      Writes path contents tree none after (.error (.unwritable path cause))
  /-- The path leads to the file if it still leads to its directory. This can only fail when
  the file has taken the place of a link. -/
  | written {made above name after} :
      GainsDirectories path (directoryAbove path).reverse tree made →
      made.Places path above name →
      after.at? (above ++ [name]) = some (.file (some contents)) →
      (∀ other, other ≠ above ++ [name] → after.at? other = made.at? other) →
      (after.walkFrom path (Files.Path.pieces path).dropLast = .ok above →
        after.readRaw path = .ok contents) →
      ((∀ target, made.at? (above ++ [name]) ≠ some (.link target)) →
        after.walkFrom path (Files.Path.pieces path).dropLast = .ok above) →
      Writes path contents tree (some (above ++ [name])) after (.ok ())

/-- A call that is to write a file, and what the system decides during it. -/
structure WriteCall where
  system : System
  path : String
  contents : String

def WriteCall.run (call : WriteCall) (tree : FileTree) : FileTree × Except BookError Unit :=
  writeOn call.system tree call.path call.contents

/-- A tree after calls one after the other. -/
def runAll (tree : FileTree) : List WriteCall → FileTree
  | [] => tree
  | call :: calls => runAll (call.run tree).1 calls

/-- What each of some calls does, and where it puts its file. -/
inductive WritesAll : FileTree → List WriteCall → List (Option Location) → Prop where
  | done {tree} : WritesAll tree [] []
  | next {tree place places} {call : WriteCall} {calls} :
      Writes call.path call.contents tree place (call.run tree).1 (call.run tree).2 →
      WritesAll (call.run tree).1 calls places →
      WritesAll tree (call :: calls) (place :: places)

/-- The content that the last of some calls has put at a location. -/
def lastWritten (location : Location) : List (Option Location) → List WriteCall → Option String
  | place :: places, call :: calls =>
      (lastWritten location places calls).or
        (if place = some location then some call.contents else none)
  | _, _ => none

/-- What may stand at a location: what was written last, or what stood there before. Where
nothing stood a directory may stand. -/
def Left (before : Option Entry) : (written : Option String) → (after : Option Entry) → Prop
  | some contents, after => after = some (.file (some contents))
  | none, after => after = before ∨ before = none ∧ after = some .directory

section

variable {tree after : FileTree} {place : Option Location} {path contents : String}
  {result : Except BookError Unit}

theorem exists_writes (call : WriteCall) (tree : FileTree) :
    ∃ place, Writes call.path call.contents tree place (call.run tree).1 (call.run tree).2 := by
  obtain ⟨made, gains, ⟨cause, failed⟩ | ⟨above, name, -, means, done⟩⟩ :=
    FileTree.cases_writeOn tree call.system call.path call.contents
  · rw [WriteCall.run, writeOn, failed]
    exact ⟨none, .failed gains fun rooted location rest entry missing there =>
      gains.empty rooted missing there⟩
  · rw [WriteCall.run, writeOn, done]
    exact ⟨some (above ++ [name]), .written gains means (FileTree.at?_put _ (by simp))
      (fun other differs => FileTree.at?_put_of_ne _ differs) means.readRaw_put means.walk_put⟩

theorem rooted_run (call : WriteCall) (rooted : tree.IsRooted) : (call.run tree).1.IsRooted := by
  obtain ⟨made, gains, ⟨cause, failed⟩ | ⟨above, name, -, means, done⟩⟩ :=
    FileTree.cases_writeOn tree call.system call.path call.contents
  · rw [WriteCall.run, writeOn, failed]
    exact gains.rooted rooted
  · rw [WriteCall.run, writeOn, done]
    exact (gains.rooted rooted).put means.directory means.free _

theorem rooted_runAll (calls : List WriteCall) (rooted : tree.IsRooted) :
    (runAll tree calls).IsRooted := by
  induction calls generalizing tree with
  | nil => exact rooted
  | cons call calls ih => exact ih (rooted_run call rooted)

theorem exists_writesAll (tree : FileTree) (calls : List WriteCall) :
    ∃ places, WritesAll tree calls places := by
  induction calls generalizing tree with
  | nil => exact ⟨[], .done⟩
  | cons call calls ih =>
      obtain ⟨place, first⟩ := exists_writes call tree
      obtain ⟨places, others⟩ := ih (call.run tree).1
      exact ⟨place :: places, .next first others⟩

theorem GainsDirectories.left {pieces : List String}
    (gains : GainsDirectories path pieces tree after) (location : Location) :
    Left (tree.at? location) none (after.at? location) := by
  cases before : tree.at? location with
  | some entry => exact .inl (gains.keeps.entries location entry before)
  | none =>
      cases there : after.at? location with
      | none => exact .inl rfl
      | some entry => exact .inr ⟨rfl, (gains.gained location entry there before).1 ▸ rfl⟩

/-- A call changes at most what stands where it puts its file. -/
theorem Writes.left (writes : Writes path contents tree place after result)
    (location : Location) :
    Left (tree.at? location) (if place = some location then some contents else none)
      (after.at? location) := by
  cases writes with
  | failed gains _ => exact GainsDirectories.left gains location
  | @written made above name _ gains means stands others _ _ =>
      by_cases same : above ++ [name] = location
      · subst same
        rw [if_pos rfl]
        exact stands
      · rw [if_neg fun equal => same (Option.some.inj equal), others location fun equal =>
          same equal.symm]
        exact GainsDirectories.left gains location

theorem Left.trans {before between after : Option Entry} {first second : Option String}
    (earlier : Left before first between) (later : Left between second after) :
    Left before (second.or first) after := by
  cases second with
  | some contents => exact later
  | none =>
      rw [Option.none_or]
      obtain rfl | ⟨rfl, rfl⟩ := later
      · exact earlier
      · cases first with
        | some contents => cases earlier
        | none =>
            obtain same | ⟨-, made⟩ := earlier
            · exact .inr ⟨same.symm, rfl⟩
            · cases made

/-- After any calls there is at each location what the last of them has put there. -/
theorem WritesAll.left {calls : List WriteCall} {places : List (Option Location)}
    (writes : WritesAll tree calls places) (location : Location) :
    Left (tree.at? location) (lastWritten location places calls)
      ((runAll tree calls).at? location) := by
  induction writes with
  | done => exact .inl rfl
  | next first _ ih => exact (first.left location).trans ih

theorem gains_publishOn {system : System} {edition : Except BookError Edition} {error : BookError}
    (failed : publishOn system tree path edition = (after, .error error)) :
    GainsDirectories path (directoryAbove path).reverse tree after := by
  unfold publishOn at failed
  split at failed
  · cases failed
    exact .refl path _ tree
  · next made =>
      obtain ⟨_, gains, ⟨cause, stopped⟩ | ⟨above, name, -, -, done⟩⟩ :=
        FileTree.cases_writeOn tree system path made.html
      · rw [writeOn, stopped] at failed
        cases failed
        exact gains
      · rw [writeOn, done] at failed
        cases failed

theorem write_eq_ok_iff :
    (write tree path contents).2 = .ok () ↔
      ∃ made above name,
        tree.makeDirectories .calm path (directoryAbove path) = (made, .ok ()) ∧
        made.Places path above name := by
  refine Iff.trans ?_ (FileTree.writeOn_calm_eq_ok_iff contents)
  rw [write, writeOn]
  split
  · next same => exact iff_of_true rfl (by rw [same])
  · next same => exact iff_of_false nofun (by rw [same]; nofun)

/-- Of calls that write files, each writes the whole of its file or leaves all files as they
are. In the end there is at each location what was put there last, what stood there before,
or a directory where nothing stood. Nothing is refused without a reason. An edition that
fails leaves every file readable as it was. -/
theorem files_written_whole (tree : FileTree) (calls : List WriteCall) :
    (∃ places, WritesAll tree calls places ∧
      ∀ location, Left (tree.at? location) (lastWritten location places calls)
        ((runAll tree calls).at? location)) ∧
    (tree.IsRooted → (runAll tree calls).IsRooted) ∧
    (∀ path contents, (write (runAll tree calls) path contents).2 = .ok () ↔
      ∃ made above name,
        (runAll tree calls).makeDirectories .calm path (directoryAbove path) = (made, .ok ()) ∧
        made.Places path above name) ∧
    ∀ system config path after error,
      publishOn system (runAll tree calls) path (make config (runAll tree calls)).2 =
          (after, .error error) →
        GainsDirectories path (directoryAbove path).reverse (runAll tree calls) after ∧
        ∀ other text, (runAll tree calls).readRaw other = .ok text →
          after.readRaw other = .ok text := by
  refine ⟨?_, rooted_runAll calls, fun path contents => write_eq_ok_iff, ?_⟩
  · obtain ⟨places, writes⟩ := exists_writesAll tree calls
    exact ⟨places, writes, writes.left⟩
  · intro system config path after error failed
    have gains := gains_publishOn failed
    exact ⟨gains, fun other text read => gains.keeps.readRaw read⟩

/-- A file that is written twice has the content of the second time, and it is alone. -/
example :
    let once := (write (FileTree.ofList [] []) "out/book.html" "first").1
    let twice := (write once "out/book.html" "second").1
    twice.entries = [(["out", "book.html"], .file (some "second")), (["out"], .directory)] := by
  decide

end

end Bindery.Book
