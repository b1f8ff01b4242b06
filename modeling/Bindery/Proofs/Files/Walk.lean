import Bindery.Proofs.Files.Tree
import Bindery.Proofs.Outcome

/-!
# Where paths lead

A walk is a chain of steps, each of which finds a directory to step from. It looks at
nothing but the directories and links on its way and at what stands at its end, so it
leads to the same place in every tree that has these. In what order the entries are
listed says nothing: what is below a directory is the same but for the order.
-/

set_option autoImplicit false

namespace Bindery.Files

/-- Whether an entry makes a walk go on elsewhere. -/
def Entry.IsLink : Entry → Prop
  | .link _ => True
  | _ => False

instance : DecidablePred Entry.IsLink
  | .link _ => isTrue trivial
  | .file _ => isFalse id
  | .directory => isFalse id

namespace FileTree

/-- A name that takes a walk one step down. -/
structure IsStep (name : String) : Prop where
  notSame : name ≠ "."
  notAbove : name ≠ ".."
  fits : ¬ maxNameSize < name.utf8ByteSize

/-- The walk from a location along some pieces that ends at another location, with the
number of links it may follow. -/
inductive Leads (tree : FileTree) : Nat → Location → List String → Location → Prop where
  | arrived {links location} : Leads tree links location [] location
  | stays {links location rest found} :
      tree.at? location = some .directory → Leads tree links location rest found →
      Leads tree links location ("." :: rest) found
  | rises {links location rest found} :
      tree.at? location = some .directory → Leads tree links location.dropLast rest found →
      Leads tree links location (".." :: rest) found
  | enters {links location name entry rest found} :
      tree.at? location = some .directory → IsStep name →
      tree.at? (location ++ [name]) = some entry → ¬ entry.IsLink →
      Leads tree links (location ++ [name]) rest found →
      Leads tree links location (name :: rest) found
  | follows {links location name target rest found} :
      tree.at? location = some .directory → IsStep name →
      tree.at? (location ++ [name]) = some (.link target) →
      Leads tree links (start target location) (Path.steps target ++ rest) found →
      Leads tree (links + 1) location (name :: rest) found

section

variable {tree other : FileTree} {links : Nat} {location found above : Location}
  {pieces : List String} {name : String} {entry : Entry}

/-- Every walk is one along the pieces, up to the first link. -/
theorem exists_jump (tree : FileTree) (links : Nat) :
    ∃ jump, tree.walk links = tree.walkWith jump ∧
      ∀ location target rest found, jump location target rest = .ok found ↔
        ∃ fewer, links = fewer + 1 ∧
          tree.walk fewer (start target location) (Path.steps target ++ rest) = .ok found := by
  cases links with
  | zero => exact ⟨_, rfl, fun _ _ _ _ => ⟨nofun, fun ⟨_, more, _⟩ => nomatch more⟩⟩
  | succ links =>
      refine ⟨_, rfl, fun _ _ _ _ => ⟨fun done => ⟨links, rfl, done⟩, ?_⟩⟩
      rintro ⟨fewer, same, done⟩
      cases same
      exact done

/-- The ways in which a walk takes its next step. -/
theorem cases_walkWith {jump : Location → String → List String → Except FileError Location}
    {rest : List String} (done : tree.walkWith jump location (name :: rest) = .ok found) :
    tree.at? location = some .directory ∧
      (name = "." ∧ tree.walkWith jump location rest = .ok found ∨
        name = ".." ∧ tree.walkWith jump location.dropLast rest = .ok found ∨
        IsStep name ∧
          ((∃ target, tree.at? (location ++ [name]) = some (.link target) ∧
              jump location target rest = .ok found) ∨
            ∃ entry, tree.at? (location ++ [name]) = some entry ∧ ¬ entry.IsLink ∧
              tree.walkWith jump (location ++ [name]) rest = .ok found)) := by
  rw [walkWith] at done
  split at done
  · cases done
  next directory =>
  refine ⟨not_not.mp directory, ?_⟩
  split at done
  · next same => exact .inl ⟨same, done⟩
  next notSame =>
  split at done
  · next above => exact .inr (.inl ⟨above, done⟩)
  next notAbove =>
  split at done
  · cases done
  next fits =>
  refine .inr (.inr ⟨⟨notSame, notAbove, fits⟩, ?_⟩)
  split at done
  · cases done
  · next target there => exact .inl ⟨target, there, done⟩
  · next entry plain there =>
      refine .inr ⟨entry, there, ?_, done⟩
      cases entry with
      | link target => exact absurd rfl (plain target)
      | file content => exact id
      | directory => exact id

theorem leads_of_walk (done : tree.walk links location pieces = .ok found) :
    Leads tree links location pieces found := by
  induction links using Nat.strongRecOn generalizing location pieces with
  | ind links ih =>
      obtain ⟨jump, same, jumps⟩ := exists_jump tree links
      rw [same] at done
      induction pieces generalizing location with
      | nil =>
          cases done
          exact .arrived
      | cons name rest later =>
          obtain ⟨directory, ⟨rfl, onward⟩ | ⟨rfl, onward⟩ | ⟨step, ⟨target, there, onward⟩ |
            ⟨entry, there, plain, onward⟩⟩⟩ := cases_walkWith done
          · exact .stays directory (later onward)
          · exact .rises directory (later onward)
          · obtain ⟨fewer, rfl, onward⟩ := (jumps ..).mp onward
            exact .follows directory step there (ih fewer fewer.lt_succ_self onward)
          · exact .enters directory step there plain (later onward)

theorem walk_of_leads (leads : Leads tree links location pieces found) :
    tree.walk links location pieces = .ok found := by
  induction leads with
  | @arrived links location =>
      obtain ⟨jump, same, -⟩ := exists_jump tree links
      rw [same]
      rfl
  | @stays links location rest found directory _ ih =>
      obtain ⟨jump, same, -⟩ := exists_jump tree links
      rw [same] at ih ⊢
      rw [walkWith, if_neg (not_not.mpr directory), if_pos rfl, ih]
  | @rises links location rest found directory _ ih =>
      obtain ⟨jump, same, -⟩ := exists_jump tree links
      rw [same] at ih ⊢
      rw [walkWith, if_neg (not_not.mpr directory), if_neg (by decide), if_pos rfl, ih]
  | @enters links location name entry rest found directory step there plain _ ih =>
      obtain ⟨jump, same, -⟩ := exists_jump tree links
      rw [same] at ih ⊢
      rw [walkWith, if_neg (not_not.mpr directory), if_neg step.notSame, if_neg step.notAbove,
        if_neg step.fits, there]
      cases entry with
      | link target => exact absurd trivial plain
      | file content => exact ih
      | directory => exact ih
  | @follows links location name target rest found directory step there _ ih =>
      obtain ⟨jump, same, jumps⟩ := exists_jump tree (links + 1)
      rw [same, walkWith, if_neg (not_not.mpr directory), if_neg step.notSame,
        if_neg step.notAbove, if_neg step.fits, there]
      exact (jumps ..).mpr ⟨links, rfl, ih⟩

/-- A walk goes on from directories only. -/
theorem Leads.eq_of_not_directory (leads : Leads tree links location pieces found)
    (other : tree.at? location ≠ some .directory) : found = location := by
  cases leads with
  | arrived => rfl
  | stays directory | rises directory | enters directory | follows directory =>
      exact absurd directory other

/-- A walk leads to the same place where all directories and links are kept, and the file
that it ends at if there is one. -/
theorem Leads.kept (leads : Leads tree links location pieces found)
    (kept : ∀ place entry, tree.at? place = some entry →
      (∀ content, entry = .file content → found = place) → other.at? place = some entry) :
    Leads other links location pieces found := by
  induction leads with
  | arrived => exact .arrived
  | stays directory _ ih => exact .stays (kept _ _ directory nofun) (ih kept)
  | rises directory _ ih => exact .rises (kept _ _ directory nofun) (ih kept)
  | enters directory step there plain later ih =>
      refine .enters (kept _ _ directory nofun) step (kept _ _ there ?_) plain (ih kept)
      rintro content rfl
      exact later.eq_of_not_directory (by rw [there]; nofun)
  | follows directory step there _ ih =>
      exact .follows (kept _ _ directory nofun) step (kept _ _ there nofun) (ih kept)

/-- A walk that ends in a directory goes on to what stands there. -/
theorem Leads.into (leads : Leads tree links location pieces above)
    (directory : tree.at? above = some .directory) (step : IsStep name)
    (there : tree.at? (above ++ [name]) = some entry) (plain : ¬ entry.IsLink) :
    Leads tree links location (pieces ++ [name]) (above ++ [name]) := by
  induction leads with
  | arrived => exact .enters directory step there plain .arrived
  | stays inside _ ih => exact .stays inside (ih directory there)
  | rises inside _ ih => exact .rises inside (ih directory there)
  | enters inside stepped found others _ ih =>
      exact .enters inside stepped found others (ih directory there)
  | follows inside stepped found _ ih =>
      refine .follows inside stepped found ?_
      have onward := ih directory there
      rwa [List.append_assoc] at onward

/-- Everything that one tree has is in another one, where it was. -/
structure Keeps (tree other : FileTree) : Prop where
  here : other.here = tree.here
  entries : ∀ location entry, tree.at? location = some entry → other.at? location = some entry

theorem Keeps.refl (tree : FileTree) : tree.Keeps tree := ⟨rfl, fun _ _ there => there⟩

theorem Keeps.trans {last : FileTree} (first : tree.Keeps other) (second : other.Keeps last) :
    tree.Keeps last :=
  ⟨second.here.trans first.here, fun location entry there =>
    second.entries location entry (first.entries location entry there)⟩

theorem Keeps.walk {path : String} (keeps : tree.Keeps other)
    (done : tree.walkFrom path pieces = .ok found) : other.walkFrom path pieces = .ok found := by
  rw [walkFrom] at done
  rw [walkFrom, keeps.here]
  exact walk_of_leads ((leads_of_walk done).kept fun place entry there _ =>
    keeps.entries place entry there)

theorem resolve_eq_ok_iff {path : String} :
    tree.resolve path = .ok found ↔
      checkPath path = .ok () ∧ tree.walkFrom path (Path.steps path) = .ok found := by
  constructor
  · intro done
    obtain ⟨⟨⟩, checked, walked⟩ := bind_eq_ok done
    exact ⟨checked, walked⟩
  · rintro ⟨checked, walked⟩
    rw [resolve, checked]
    exact walked

theorem readRaw_eq_ok_iff {path text : String} :
    tree.readRaw path = .ok text ↔
      ∃ location, tree.resolve path = .ok location ∧
        tree.at? location = some (.file (some text)) := by
  constructor
  · intro done
    obtain ⟨location, resolved, read⟩ := bind_eq_ok done
    refine ⟨location, resolved, ?_⟩
    split at read
    · next content there => rw [there, Except.ok.inj read]
    all_goals cases read
  · rintro ⟨location, resolved, there⟩
    rw [readRaw, resolved]
    dsimp only [bind, Except.bind]
    rw [there]

/-- What could be read can be read where everything is kept. -/
theorem Keeps.readRaw {path text : String} (keeps : tree.Keeps other)
    (read : tree.readRaw path = .ok text) : other.readRaw path = .ok text := by
  obtain ⟨location, resolved, there⟩ := readRaw_eq_ok_iff.mp read
  obtain ⟨checked, walked⟩ := resolve_eq_ok_iff.mp resolved
  exact readRaw_eq_ok_iff.mpr ⟨location, resolve_eq_ok_iff.mpr ⟨checked, keeps.walk walked⟩,
    keeps.entries location _ there⟩

end

/-! ## Trees with the same entries -/

/-- The trees have the same entries, in whatever order. -/
structure SameEntries (tree other : FileTree) : Prop where
  here : other.here = tree.here
  entries : tree.entries.Perm other.entries

section

variable {tree other : FileTree} {path : String} {location found directory : Location} {entry : Entry}

/-- What stands at a location below the top is the one entry with this location. -/
theorem at?_eq_some_iff (below : location ≠ []) :
    tree.at? location = some entry ↔ (location, entry) ∈ tree.entries := by
  rw [at?, if_neg below, Option.map_eq_some_iff]
  constructor
  · intro found
    obtain ⟨item, first, rfl⟩ := found
    have place : item.1 = location := by simpa using List.find?_some first
    rw [← place]
    exact List.mem_of_find?_eq_some first
  · intro member
    have there : (tree.entries.find? fun item => item.1 = location).isSome = true :=
      List.find?_isSome.mpr ⟨_, member, decide_eq_true rfl⟩
    obtain ⟨item, first⟩ := Option.isSome_iff_exists.mp there
    have place : item.1 = location := by simpa using List.find?_some first
    have listed := List.mem_of_find?_eq_some first
    have same := List.inj_on_of_nodup_map tree.distinct listed member place
    exact ⟨item, first, congrArg Prod.snd same⟩

theorem descendants_eq {other : String} (resolved : tree.resolve path = .ok directory)
    (again : tree.resolve other = .ok directory) :
    tree.descendants path = tree.descendants other := by
  unfold descendants
  rw [resolved, again]

theorem mem_descendants_iff {rest : Location} (resolved : tree.resolve path = .ok directory) :
    (rest, entry) ∈ tree.descendants path ↔
      rest ≠ [] ∧ tree.at? (directory ++ rest) = some entry := by
  unfold descendants
  rw [resolved]
  dsimp only
  rw [List.mem_filterMap]
  constructor
  · intro member
    obtain ⟨item, stored, seen⟩ := member
    obtain ⟨location, below, same⟩ := Option.map_eq_some_iff.mp seen
    obtain ⟨rfl, rfl⟩ := Prod.mk.inj same
    obtain ⟨whole, nonempty⟩ := below?_eq_some_iff.mp below
    refine ⟨nonempty, (at?_eq_some_iff (by simp [nonempty])).mpr ?_⟩
    rwa [← whole]
  · intro there
    have stored := (at?_eq_some_iff (by simp [there.1])).mp there.2
    refine ⟨_, stored, Option.map_eq_some_iff.mpr ⟨rest, ?_, rfl⟩⟩
    exact below?_eq_some_iff.mpr ⟨rfl, there.1⟩

theorem mem_list_iff {name : String} (resolved : tree.resolve path = .ok directory) :
    name ∈ tree.list path ↔ ∃ entry, tree.at? (directory ++ [name]) = some entry := by
  unfold list
  rw [List.mem_filterMap]
  constructor
  · intro member
    obtain ⟨⟨rest, entry⟩, among, named⟩ := member
    dsimp only at named
    split at named
    · cases named
      exact ⟨entry, ((mem_descendants_iff resolved).mp among).2⟩
    · cases named
  · intro there
    obtain ⟨entry, there⟩ := there
    exact ⟨([name], entry), (mem_descendants_iff resolved).mpr ⟨List.cons_ne_nil _ _, there⟩, rfl⟩

theorem SameEntries.symm (same : tree.SameEntries other) : other.SameEntries tree :=
  ⟨same.here.symm, same.entries.symm⟩

theorem SameEntries.at?_eq (same : tree.SameEntries other) (location : Location) :
    other.at? location = tree.at? location := by
  by_cases top : location = []
  · rw [at?, at?, if_pos top, if_pos top]
  · apply Option.ext
    intro entry
    rw [at?_eq_some_iff top, at?_eq_some_iff top, same.entries.mem_iff]

theorem SameEntries.keeps (same : tree.SameEntries other) : tree.Keeps other :=
  ⟨same.here, fun location _ there => (same.at?_eq location).trans there⟩

theorem Keeps.resolve (keeps : tree.Keeps other) (done : tree.resolve path = .ok found) :
    other.resolve path = .ok found := by
  obtain ⟨checked, walked⟩ := resolve_eq_ok_iff.mp done
  exact resolve_eq_ok_iff.mpr ⟨checked, keeps.walk walked⟩

theorem SameEntries.resolve_iff (same : tree.SameEntries other) :
    other.resolve path = .ok found ↔ tree.resolve path = .ok found :=
  ⟨same.symm.keeps.resolve, same.keeps.resolve⟩

theorem SameEntries.lookup?_eq (same : tree.SameEntries other) (path : String) :
    other.lookup? path = tree.lookup? path := by
  have leads : (other.resolve path).toOption = (tree.resolve path).toOption := by
    cases done : tree.resolve path with
    | ok found => rw [same.resolve_iff.mpr done]
    | error error =>
        cases others : other.resolve path with
        | ok found =>
            rw [same.resolve_iff.mp others] at done
            cases done
        | error error => rfl
  unfold lookup?
  rw [leads]
  exact congrArg _ (funext same.at?_eq)

theorem SameEntries.descendants_perm (same : tree.SameEntries other) (path : String) :
    (other.descendants path).Perm (tree.descendants path) := by
  unfold descendants
  cases done : tree.resolve path with
  | ok directory =>
      rw [same.resolve_iff.mpr done]
      exact same.symm.entries.filterMap _
  | error error =>
      cases others : other.resolve path with
      | ok directory =>
          rw [same.resolve_iff.mp others] at done
          cases done
      | error error => exact .refl _

theorem SameEntries.list_perm (same : tree.SameEntries other) (path : String) :
    (other.list path).Perm (tree.list path) :=
  (same.descendants_perm path).filterMap _

end

end FileTree

end Bindery.Files
