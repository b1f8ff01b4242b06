import Bindery.Files.Path
import Bindery.Proofs.Text.Mark
import Mathlib.Data.List.Basic
import Mathlib.Data.List.TakeWhile

/-!
# Paths below a directory

The path of an entry begins with that of its directory, and what follows tells which
entry it is: no other entry of the directory and none below another one has this path.
-/

set_option autoImplicit false

namespace Bindery.Files.Path

/-- A name that an entry of a directory may have. -/
structure IsName (name : String) : Prop where
  nonempty : name ≠ ""
  oneStep : '/' ∉ name.toList

instance (name : String) : Decidable (IsName name) :=
  decidable_of_iff (name ≠ "" ∧ '/' ∉ name.toList)
    ⟨fun named => ⟨named.1, named.2⟩, fun named => ⟨named.nonempty, named.oneStep⟩⟩

section

variable {directory base name : String}

theorem IsName.isAbsolute_eq (named : IsName name) : isAbsolute name = false := by
  rw [isAbsolute, beq_eq_false_iff_ne]
  exact fun slash => named.oneStep (List.mem_of_mem_head? slash)

theorem exists_join_eq (directory : String) :
    ∃ lead, ∀ name, IsName name → join directory name = lead ++ name := by
  cases last : directory.toList.getLast? with
  | none => exact ⟨"", fun name named => by rw [join, named.isAbsolute_eq, last]; simp⟩
  | some c =>
      by_cases slash : c = '/'
      · refine ⟨directory, fun name named => ?_⟩
        rw [join, named.isAbsolute_eq, last, slash]
        rfl
      · refine ⟨directory ++ "/", fun name named => ?_⟩
        rw [join, named.isAbsolute_eq, if_neg Bool.false_ne_true, last]
        split
        · next same => cases same
        · next same => exact absurd (Option.some.inj same) slash
        · rfl

/-- Two entries of a directory have different paths. -/
theorem join_inj {other : String} (named : IsName name) (otherNamed : IsName other) :
    join directory name = join directory other ↔ name = other := by
  obtain ⟨lead, joined⟩ := exists_join_eq directory
  rw [joined name named, joined other otherNamed]
  exact ⟨fun same => String.append_right_inj lead |>.mp same, fun same => by rw [same]⟩

/-- A path that ends with a name, so that a slash has to follow before the next one. -/
def EndsInName (path : String) : Prop := ∃ c, path.toList.getLast? = some c ∧ c ≠ '/'

theorem IsName.endsInName (named : IsName name) (lead : String) : EndsInName (lead ++ name) := by
  have some : name.toList ≠ [] := by simpa using named.nonempty
  refine ⟨name.toList.getLast some, ?_, fun slash => named.oneStep ?_⟩
  · rw [String.toList_append, List.getLast?_append_of_ne_nil _ some,
      List.getLast?_eq_some_getLast some]
  · rw [← slash]
    exact List.getLast_mem some

theorem EndsInName.join_eq (ends : EndsInName base) (named : IsName name) :
    join base name = base ++ "/" ++ name := by
  obtain ⟨c, last, other⟩ := ends
  rw [join, named.isAbsolute_eq, last, if_neg Bool.false_ne_true]
  split
  · next same => cases same
  · next same => exact absurd (Option.some.inj same) other
  · rfl

/-! ## The parts of a path -/

/-- The parts of a path between its slashes. -/
def parts (path : String) : List (List Char) := Text.splitWhere (· == '/') path.toList

theorem parts_append_slash (before after : String) :
    parts (before ++ "/" ++ after) = parts before ++ parts after := by
  have chars : (before ++ "/" ++ after).toList = before.toList ++ '/' :: after.toList := by
    simp [String.toList_append]
  rw [parts, chars]
  exact Text.splitWhere_append_cons rfl

theorem IsName.parts_eq (named : IsName name) : parts name = [name.toList] := by
  apply Text.splitWhere_eq_singleton
  intro c member
  rw [beq_eq_false_iff_ne]
  rintro rfl
  exact named.oneStep member

/-- The parts of the path of an entry are those of its directory and the name. -/
theorem exists_parts_join (some : directory ≠ "") (named : IsName name) :
    ∃ front, front ≠ [] ∧ (parts directory = front ∨ parts directory = front ++ [[]]) ∧
      parts (join directory name) = front ++ [name.toList] := by
  by_cases ends : EndsInName directory
  · refine ⟨parts directory, Text.splitWhere_ne_nil _, .inl rfl, ?_⟩
    rw [ends.join_eq named, parts_append_slash, named.parts_eq]
  · have nonempty : directory.toList ≠ [] := by simpa using some
    have slash : directory.toList.getLast nonempty = '/' := by
      by_contra other
      exact ends ⟨_, List.getLast?_eq_some_getLast nonempty, other⟩
    have whole : directory = String.ofList directory.toList.dropLast ++ "/" := by
      apply String.toList_injective
      rw [String.toList_append, String.toList_ofList]
      conv => lhs; rw [← List.dropLast_append_getLast nonempty, slash]
      rfl
    have joined : join directory name = directory ++ name := by
      rw [join, named.isAbsolute_eq, List.getLast?_eq_some_getLast nonempty, slash]
      rfl
    refine ⟨parts (String.ofList directory.toList.dropLast), Text.splitWhere_ne_nil _, .inr ?_, ?_⟩
    · have empty : parts "" = [[]] := rfl
      conv => lhs; rw [whole]
      rw [← String.append_empty (s := String.ofList directory.toList.dropLast ++ "/"),
        parts_append_slash, empty]
    · rw [joined]
      conv => lhs; rw [whole]
      rw [parts_append_slash, named.parts_eq]

theorem pieces_join (some : directory ≠ "") (named : IsName name) :
    pieces (join directory name) = pieces directory ++ [name] := by
  obtain ⟨front, -, own, joined⟩ := exists_parts_join some named
  have nonempty : name.toList ≠ [] := by simpa using named.nonempty
  unfold parts at own joined
  unfold pieces
  rw [joined]
  rcases own with own | own
  · rw [own]
    simp [nonempty]
  · rw [own]
    simp [nonempty]

/-- The names among some parts. -/
theorem names_eq (path : String) :
    names path = (if (parts path).head? = some ['.'] then [['.']] else []) ++
      (parts path).filter fun piece => piece != [] && piece != ['.'] := by
  unfold names parts
  dsimp only
  split <;> rfl

theorem names_join (some : directory ≠ "") (named : IsName name) (other : name ≠ ".") :
    names (join directory name) = names directory ++ [name.toList] := by
  obtain ⟨front, nonempty, own, joined⟩ := exists_parts_join some named
  have visible : name.toList ≠ [] := by simpa using named.nonempty
  have moves : name.toList ≠ ['.'] := fun same => other (String.toList_injective same)
  have kept : [name.toList].filter (fun piece => piece != [] && piece != ['.']) =
      [name.toList] := by
    simp [visible, moves]
  have trailing : [[]].filter (fun piece : List Char => piece != [] && piece != ['.']) = [] := rfl
  rw [names_eq, names_eq, joined, List.filter_append, kept, List.head?_append_of_ne_nil _ nonempty]
  rcases own with own | own
  · rw [own, List.append_assoc]
  · rw [own, List.filter_append, trailing, List.append_nil, List.append_assoc,
      List.head?_append_of_ne_nil _ nonempty]

theorem getLast?_join (named : IsName name) :
    (join directory name).toList.getLast? = name.toList.getLast? := by
  obtain ⟨lead, joined⟩ := exists_join_eq directory
  have some : name.toList ≠ [] := by simpa using named.nonempty
  rw [joined name named, String.toList_append, List.getLast?_append_of_ne_nil _ some]

theorem endsInSlash_join (named : IsName name) : endsInSlash (join directory name) = false := by
  rw [endsInSlash, getLast?_join named, beq_eq_false_iff_ne]
  exact fun last => named.oneStep (List.mem_of_getLast? last)

/-- The path of an entry asks for one step more than that of its directory. -/
theorem steps_join (some : directory ≠ "") (named : IsName name) :
    steps (join directory name) = pieces directory ++ [name] := by
  rw [steps, endsInSlash_join named, if_neg Bool.false_ne_true, pieces_join some named]

theorem join_ne_empty (named : IsName name) : join directory name ≠ "" := by
  intro empty
  have visible : name.toList ≠ [] := by simpa using named.nonempty
  have last : (join directory name).toList.getLast? = name.toList.getLast? := getLast?_join named
  rw [empty] at last
  exact visible (List.getLast?_eq_none_iff.mp last.symm)

/-- The path of an entry goes on where that of its directory ends. -/
theorem exists_join_append (directory : String) (named : IsName name) :
    ∃ rest, join directory name = directory ++ rest := by
  unfold join
  rw [named.isAbsolute_eq, if_neg Bool.false_ne_true]
  split
  · next last =>
      have empty : directory = "" := by simpa using List.getLast?_eq_none_iff.mp last
      exact ⟨name, by rw [empty, String.empty_append]⟩
  · exact ⟨name, rfl⟩
  · exact ⟨"/" ++ name, String.append_assoc⟩

theorem isAbsolute_join (some : directory ≠ "") (named : IsName name) :
    isAbsolute (join directory name) = isAbsolute directory := by
  have nonempty : directory.toList ≠ [] := by simpa using some
  obtain ⟨c, front, whole⟩ := List.exists_cons_of_ne_nil nonempty
  obtain ⟨rest, joined⟩ := exists_join_append directory named
  rw [isAbsolute, isAbsolute, joined, String.toList_append, whole]
  rfl

theorem mem_join {c : Char} (member : c ∈ (join directory name).toList) :
    c ∈ directory.toList ∨ c = '/' ∨ c ∈ name.toList := by
  have slash : "/".toList = ['/'] := rfl
  unfold join at member
  split at member
  · exact .inr (.inr member)
  · split at member
    · exact .inr (.inr member)
    · rw [String.toList_append, List.mem_append] at member
      exact member.imp_right .inr
    · rw [String.toList_append, String.toList_append, List.mem_append, List.mem_append, slash,
        List.mem_singleton, or_assoc] at member
      exact member

/-! ## The name of a file -/

theorem IsName.names_eq (named : IsName name) (other : name ≠ ".") : names name = [name.toList] := by
  have visible : name.toList ≠ [] := by simpa using named.nonempty
  have moves : name.toList ≠ ['.'] := fun same => other (String.toList_injective same)
  rw [Path.names_eq, named.parts_eq]
  simp [visible, moves]

theorem fileName?_eq_some {path : String} (last : (names path).getLast? = some name.toList)
    (notSame : name ≠ ".") (notAbove : name ≠ "..") : fileName? path = some name.toList := by
  have dot : name.toList ≠ ['.'] := fun same => notSame (String.toList_injective same)
  have dots : name.toList ≠ ['.', '.'] := fun same => notAbove (String.toList_injective same)
  unfold fileName?
  rw [last]
  split
  · next same => exact absurd (Option.some.inj same) dot
  · next same => exact absurd (Option.some.inj same) dots
  · rfl

theorem splitLast_append {separator : Char} {before after : List Char}
    (absent : separator ∉ after) :
    splitLast separator (before ++ separator :: after) = some (before, after) := by
  have others : ∀ c ∈ after.reverse, (c != separator) = true := by
    intro c member
    rw [bne_iff_ne]
    rintro rfl
    exact absent (List.mem_reverse.mp member)
  have tail : (before ++ separator :: after).reverse.takeWhile (· != separator) =
      after.reverse := by
    rw [List.reverse_append, List.reverse_cons, List.append_assoc,
      List.takeWhile_append_of_pos others, List.singleton_append,
      List.takeWhile_cons_of_neg (by simp), List.append_nil]
  have shorter : after.reverse.length ≠ (before ++ separator :: after).length := by
    rw [List.length_reverse, List.length_append, List.length_cons]
    omega
  have front : (before ++ separator :: after).length - after.reverse.length - 1 = before.length := by
    rw [List.length_reverse, List.length_append, List.length_cons]
    omega
  unfold splitLast
  dsimp only
  rw [tail, if_neg shorter, front, List.take_left, List.reverse_reverse]

theorem splitLast_eq_none {separator : Char} {text : List Char} (absent : separator ∉ text) :
    splitLast separator text = none := by
  have all : text.reverse.takeWhile (· != separator) = text.reverse := by
    rw [List.takeWhile_eq_self_iff]
    intro c member
    rw [bne_iff_ne]
    rintro rfl
    exact absent (List.mem_reverse.mp member)
  unfold splitLast
  dsimp only
  rw [all, if_pos List.length_reverse]

theorem splitLast_eq_some_iff {separator : Char} {text before after : List Char} :
    splitLast separator text = some (before, after) ↔
      text = before ++ separator :: after ∧ separator ∉ after := by
  constructor
  · intro found
    by_cases member : separator ∈ text
    · obtain ⟨back, front, whole, absent⟩ := List.eq_append_cons_of_mem (List.mem_reverse.mpr member)
      have turned : text = front.reverse ++ separator :: back.reverse := by
        rw [← List.reverse_reverse text, whole, List.reverse_append, List.reverse_cons,
          List.append_assoc, List.singleton_append]
      have once : separator ∉ back.reverse := fun inside => absent (List.mem_reverse.mp inside)
      rw [turned, splitLast_append once] at found
      obtain ⟨rfl, rfl⟩ := Prod.mk.inj (Option.some.inj found)
      exact ⟨turned, once⟩
    · rw [splitLast_eq_none member] at found
      cases found
  · intro split
    obtain ⟨rfl, absent⟩ := split
    exact splitLast_append absent

/-- The extension is what stands behind the last dot of the name, with something before it. -/
theorem extension?_eq_some_iff {path : String} {extension : List Char}
    (called : fileName? path = some name.toList) :
    extension? path = some extension ↔ ∃ stem, name.toList = stem ++ '.' :: extension ∧
      stem ≠ [] ∧ '.' ∉ extension := by
  unfold extension?
  rw [called, Option.bind_some]
  constructor
  · intro found
    split at found
    · cases found
    · next stem behind other split =>
        obtain rfl := Option.some.inj found
        obtain ⟨whole, absent⟩ := splitLast_eq_some_iff.mp split
        exact ⟨stem, whole, fun empty => other empty, absent⟩
    · cases found
  · intro found
    obtain ⟨stem, whole, nonempty, absent⟩ := found
    obtain ⟨c, stem, rfl⟩ := List.exists_cons_of_ne_nil nonempty
    rw [splitLast_eq_some_iff.mpr ⟨whole, absent⟩]

end

end Bindery.Files.Path
