import Bindery.Proofs.Snippet.Block
import Bindery.Proofs.Textile.OwnLine

/-!
# The lines of blocks

Every line that is not blank stands in one block, in the order of the text. A stand-in alone on its
line makes a block, and the lines between such lines and blank ones make one block each.
-/

set_option autoImplicit false

namespace Bindery.Textile

/-- A line and its position in a text. -/
abbrev NumberedLine := List Char × Nat

def numberedLines (text : List Char) : List NumberedLine := (Text.lines text).zipIdx

/-- A line as a block has it: a stand-in alone on its line is trimmed. -/
def shownLine (line : List Char) : List Char :=
  match lineKind line with
  | .passed => Text.trim line
  | _ => line

/-- The block that some lines make. -/
def blockOf (group : List NumberedLine) : List Char :=
  Text.join ['\n'] (group.map fun line => shownLine line.1)

/-- How lines fall into groups. A run of ordinary lines is a group of its own and goes on as long
as it can. -/
inductive Grouped : List NumberedLine → List (List NumberedLine) → Prop where
  | nil : Grouped [] []
  | blank {line rest groups} :
      lineKind line.1 = .blank → Grouped rest groups → Grouped (line :: rest) groups
  | passed {line rest groups} :
      lineKind line.1 = .passed → Grouped rest groups → Grouped (line :: rest) ([line] :: groups)
  | run {run rest groups} :
      run ≠ [] → (∀ line ∈ run, lineKind line.1 = .ordinary) →
      (∀ line ∈ rest.head?, lineKind line.1 ≠ .ordinary) → Grouped rest groups →
      Grouped (run ++ rest) (run :: groups)

/-- All lines between two lines are ordinary. -/
def OrdinaryBetween (lines : List NumberedLine) (upper lower : NumberedLine) : Prop :=
  ∀ line ∈ lines, upper.2 < line.2 → line.2 < lower.2 → lineKind line.1 = .ordinary

/-- The lines of which each block of a text is made. Each line that is not blank stands in one
group, and stand-ins stand alone. Two ordinary lines stand in one group exactly if all lines between
them are ordinary. -/
structure Grouping (text : List Char) (groups : List (List NumberedLine)) : Prop where
  flatten : groups.flatten = (numberedLines text).filter fun line => !Text.allBlank line.1
  alone : ∀ line ∈ numberedLines text, lineKind line.1 = .passed → [line] ∈ groups
  together : ∀ upper ∈ numberedLines text, ∀ lower ∈ numberedLines text,
    lineKind upper.1 = .ordinary → lineKind lower.1 = .ordinary → upper.2 < lower.2 →
    ((∃ group ∈ groups, upper ∈ group ∧ lower ∈ group) ↔
      OrdinaryBetween (numberedLines text) upper lower)

section

variable {line : List Char} {lines : List NumberedLine} {groups : List (List NumberedLine)}

theorem lineKind_eq_blank_iff : lineKind line = .blank ↔ Text.allBlank line = true :=
  ⟨fun kind => List.all_eq_true.mpr (allBlank_of_lineKind kind), lineKind_eq_blank⟩

theorem Grouped.flatten (grouped : Grouped lines groups) :
    groups.flatten = lines.filter fun line => !Text.allBlank line.1 := by
  induction grouped with
  | nil => rfl
  | blank kind _ ih =>
      rw [List.filter_cons_of_neg (by simp [lineKind_eq_blank_iff.mp kind]), ih]
  | @passed line _ _ kind _ ih =>
      have visible : ¬ Text.allBlank line.1 = true := by
        rw [← lineKind_eq_blank_iff, kind]
        exact LineKind.noConfusion
      rw [List.filter_cons_of_pos (by simpa using visible), List.flatten_cons, ih]
      rfl
  | @run run _ _ _ ordinary _ _ ih =>
      have visible : ∀ line ∈ run, (!Text.allBlank line.1) = true := by
        intro line member
        rw [Bool.not_eq_true', ← Bool.not_eq_true, ← lineKind_eq_blank_iff, ordinary line member]
        exact LineKind.noConfusion
      rw [List.filter_append, List.filter_eq_self.mpr visible, List.flatten_cons, ih]

theorem Grouped.ne_nil (grouped : Grouped lines groups) : ∀ group ∈ groups, group ≠ [] := by
  induction grouped with
  | nil => nofun
  | blank _ _ ih => exact ih
  | passed _ _ ih => exact List.forall_mem_cons.mpr ⟨List.cons_ne_nil _ _, ih⟩
  | run some _ _ _ ih => exact List.forall_mem_cons.mpr ⟨some, ih⟩

theorem Grouped.mem_lines (grouped : Grouped lines groups) {group : List NumberedLine}
    (among : group ∈ groups) {line : NumberedLine} (member : line ∈ group) :
    line ∈ lines ∧ Text.allBlank line.1 = false := by
  have listed : line ∈ groups.flatten := List.mem_flatten.mpr ⟨group, among, member⟩
  rw [grouped.flatten, List.mem_filter, Bool.not_eq_true'] at listed
  exact listed

theorem Grouped.alone (grouped : Grouped lines groups) {line : NumberedLine}
    (among : line ∈ lines) (kind : lineKind line.1 = .passed) : [line] ∈ groups := by
  induction grouped with
  | nil => cases among
  | @blank other _ _ blank _ ih =>
      rcases List.mem_cons.mp among with rfl | among
      · rw [kind] at blank
        cases blank
      · exact ih among
  | passed _ _ ih =>
      rcases List.mem_cons.mp among with rfl | among
      · exact List.mem_cons_self
      · exact List.mem_cons_of_mem _ (ih among)
  | run _ ordinary _ _ ih =>
      rcases List.mem_append.mp among with among | among
      · rw [ordinary line among] at kind
        cases kind
      · exact List.mem_cons_of_mem _ (ih among)

end

/-! ## Lines of one group -/

/-- The lines stand in the order of their positions. -/
def Ascending (lines : List NumberedLine) : Prop :=
  lines.Pairwise fun upper lower => upper.2 < lower.2

section

variable {first rest lines : List NumberedLine} {groups : List (List NumberedLine)}
  {upper lower : NumberedLine}

/-- What stands above both lines does not stand between them. -/
theorem ordinaryBetween_append (ascending : Ascending (first ++ rest)) (among : upper ∈ rest) :
    OrdinaryBetween (first ++ rest) upper lower ↔ OrdinaryBetween rest upper lower := by
  have above := (List.pairwise_append.mp ascending).2.2
  constructor
  · exact fun ordinary line member => ordinary line (List.mem_append_right first member)
  · intro ordinary line member below
    rcases List.mem_append.mp member with member | member
    · exact absurd below (Nat.lt_asymm (above line member upper among))
    · exact ordinary line member below

theorem ordinaryBetween_cons {line : NumberedLine} (ascending : Ascending (line :: rest))
    (among : upper ∈ rest) :
    OrdinaryBetween (line :: rest) upper lower ↔ OrdinaryBetween rest upper lower := by
  rw [← List.singleton_append] at ascending ⊢
  exact ordinaryBetween_append ascending among

/-- A line above all lines of some groups is in none of them. -/
theorem Grouped.not_mem_of_above (grouped : Grouped rest groups)
    (ascending : Ascending (first ++ rest)) (among : upper ∈ first) :
    ∀ group ∈ groups, upper ∉ group := by
  intro group listed member
  have above := (List.pairwise_append.mp ascending).2.2
  exact Nat.lt_irrefl _ (above upper among upper (grouped.mem_lines listed member).1)

/-- Behind a run the first line that is not ordinary parts the run from all lines further down. -/
theorem not_ordinaryBetween_of_run (ascending : Ascending (first ++ rest))
    (ends : ∀ line ∈ rest.head?, lineKind line.1 ≠ .ordinary) (upperAmong : upper ∈ first)
    (lowerAmong : lower ∈ rest) (kind : lineKind lower.1 = .ordinary) :
    ¬ OrdinaryBetween (first ++ rest) upper lower := by
  obtain ⟨-, behind, above⟩ := List.pairwise_append.mp ascending
  cases rest with
  | nil => cases lowerAmong
  | cons stop rest =>
      have other := ends stop rfl
      rcases List.mem_cons.mp lowerAmong with rfl | later
      · exact absurd kind other
      · intro ordinary
        exact other (ordinary stop (List.mem_append_right first List.mem_cons_self)
          (above upper upperAmong stop List.mem_cons_self)
          ((List.pairwise_cons.mp behind).1 lower later))

theorem mem_of_mem_cons_of_ordinary {line other : NumberedLine} (member : other ∈ line :: rest)
    (ordinary : lineKind other.1 = .ordinary) (kind : lineKind line.1 ≠ .ordinary) :
    other ∈ rest := by
  rcases List.mem_cons.mp member with rfl | member
  · exact absurd ordinary kind
  · exact member

/-- Two ordinary lines are in one group exactly if all lines between them are ordinary. -/
theorem Grouped.together (grouped : Grouped lines groups) (ascending : Ascending lines)
    (upperAmong : upper ∈ lines) (lowerAmong : lower ∈ lines)
    (upperKind : lineKind upper.1 = .ordinary) (lowerKind : lineKind lower.1 = .ordinary)
    (before : upper.2 < lower.2) :
    (∃ group ∈ groups, upper ∈ group ∧ lower ∈ group) ↔ OrdinaryBetween lines upper lower := by
  induction grouped with
  | nil => cases upperAmong
  | @blank line rest groups kind _ ih =>
      have skipped : lineKind line.1 ≠ .ordinary := by rw [kind]; exact LineKind.noConfusion
      have upperBehind := mem_of_mem_cons_of_ordinary upperAmong upperKind skipped
      have later := ih (List.pairwise_cons.mp ascending).2 upperBehind
        (mem_of_mem_cons_of_ordinary lowerAmong lowerKind skipped)
      exact later.trans (ordinaryBetween_cons ascending upperBehind).symm
  | @passed line rest groups kind _ ih =>
      have skipped : lineKind line.1 ≠ .ordinary := by rw [kind]; exact LineKind.noConfusion
      have upperBehind := mem_of_mem_cons_of_ordinary upperAmong upperKind skipped
      have elsewhere : upper ∉ [line] := by
        rw [List.mem_singleton]
        rintro rfl
        exact skipped upperKind
      have later := ih (List.pairwise_cons.mp ascending).2 upperBehind
        (mem_of_mem_cons_of_ordinary lowerAmong lowerKind skipped)
      rw [List.exists_mem_cons_iff, or_iff_right fun both => elsewhere both.1]
      exact later.trans (ordinaryBetween_cons ascending upperBehind).symm
  | @run run rest groups some ordinary ends grouped ih =>
      obtain ⟨-, below, above⟩ := List.pairwise_append.mp ascending
      rw [List.exists_mem_cons_iff]
      rcases List.mem_append.mp upperAmong with upperHere | upperBehind
      · have elsewhere := grouped.not_mem_of_above ascending upperHere
        rcases List.mem_append.mp lowerAmong with lowerHere | lowerBehind
        · refine iff_of_true (.inl ⟨upperHere, lowerHere⟩) ?_
          intro line member _ upwards
          rcases List.mem_append.mp member with here | further
          · exact ordinary line here
          · exact absurd upwards (Nat.lt_asymm (above lower lowerHere line further))
        · refine iff_of_false ?_
            (not_ordinaryBetween_of_run ascending ends upperHere lowerBehind lowerKind)
          rintro (⟨-, here⟩ | ⟨group, listed, member, -⟩)
          · exact Nat.lt_irrefl _ (above lower here lower lowerBehind)
          · exact elsewhere group listed member
      · have notHere : upper ∉ run := fun here =>
          Nat.lt_irrefl _ (above upper here upper upperBehind)
        have lowerBehind : lower ∈ rest := by
          rcases List.mem_append.mp lowerAmong with here | member
          · exact absurd before (Nat.lt_asymm (above lower here upper upperBehind))
          · exact member
        rw [or_iff_right fun both => notHere both.1, ordinaryBetween_append ascending upperBehind]
        exact ih below upperBehind lowerBehind

end

/-! ## The blocks of a text -/

theorem groupLines_run {run : List (List Char)} (current rest : List (List Char))
    (ordinary : ∀ line ∈ run, lineKind line = .ordinary) :
    groupLines current (run ++ rest) = groupLines (run.reverse ++ current) rest := by
  induction run generalizing current with
  | nil => rfl
  | cons line run ih =>
      obtain ⟨first, others⟩ := List.forall_mem_cons.mp ordinary
      rw [List.cons_append, groupLines, first]
      dsimp only
      rw [ih (line :: current) others, List.reverse_cons, List.append_assoc, List.singleton_append]

/-- What is open is closed where the next line is not ordinary. -/
theorem groupLines_of_ends {rest : List (List Char)} (current : List (List Char))
    (ends : ∀ line ∈ rest.head?, lineKind line ≠ .ordinary) :
    groupLines current rest = closeBlock current ++ groupLines [] rest := by
  cases rest with
  | nil => simp [groupLines, closeBlock]
  | cons line rest =>
      cases kind : lineKind line with
      | ordinary => exact absurd kind (ends line rfl)
      | blank => simp [groupLines, kind, closeBlock]
      | passed => simp [groupLines, kind, closeBlock]

theorem shownLine_of_ne_passed {line : List Char} (kind : lineKind line ≠ .passed) :
    shownLine line = line := by
  unfold shownLine
  split
  · next passed => exact absurd passed kind
  · rfl

theorem shownLine_of_passed {line : List Char} (kind : lineKind line = .passed) :
    shownLine line = Text.trim line := by
  rw [shownLine, kind]

theorem blockOf_of_ordinary {run : List NumberedLine}
    (ordinary : ∀ line ∈ run, lineKind line.1 = .ordinary) :
    blockOf run = Text.join ['\n'] (run.map (·.1)) := by
  refine congrArg _ (List.map_congr_left fun line member => shownLine_of_ne_passed ?_)
  rw [ordinary line member]
  exact LineKind.noConfusion

/-- A run of ordinary lines with another line behind it, or nothing, makes a block. -/
theorem groupLines_run_ends {run rest : List NumberedLine} (some : run ≠ [])
    (ordinary : ∀ line ∈ run, lineKind line.1 = .ordinary)
    (ends : ∀ line ∈ rest.head?, lineKind line.1 ≠ .ordinary) :
    groupLines [] ((run ++ rest).map (·.1)) =
      blockOf run :: groupLines [] (rest.map (·.1)) := by
  have kinds : ∀ line ∈ run.map (·.1), lineKind line = .ordinary :=
    List.forall_mem_map.mpr ordinary
  have stop : ∀ line ∈ (rest.map (·.1)).head?, lineKind line ≠ .ordinary := by
    cases rest with
    | nil => nofun
    | cons line rest => exact fun _ head => Option.some.inj head ▸ ends line rfl
  have opened : (run.map (·.1)).reverse ≠ [] := by simpa using some
  rw [List.map_append, groupLines_run [] _ kinds, List.append_nil, groupLines_of_ends _ stop,
    closeBlock, if_neg (by simpa using opened), List.reverse_reverse, blockOf_of_ordinary ordinary]
  rfl

/-- An ordinary line begins a run that goes on as long as it can. -/
theorem exists_run {line : NumberedLine} (rest : List NumberedLine)
    (kind : lineKind line.1 = .ordinary) :
    ∃ run further, line :: rest = run ++ further ∧ run ≠ [] ∧
      (∀ other ∈ run, lineKind other.1 = .ordinary) ∧
      (∀ other ∈ further.head?, lineKind other.1 ≠ .ordinary) ∧
      further.length ≤ rest.length := by
  let inRun := fun other : NumberedLine => decide (lineKind other.1 = .ordinary)
  refine ⟨line :: rest.takeWhile inRun, rest.dropWhile inRun, ?_, List.cons_ne_nil _ _, ?_, ?_,
    List.length_dropWhile_le _ _⟩
  · rw [List.cons_append, List.takeWhile_append_dropWhile]
  · refine List.forall_mem_cons.mpr ⟨kind, fun other member => ?_⟩
    exact of_decide_eq_true (List.mem_takeWhile_imp (p := inRun) member)
  · intro other head
    have stops := List.head?_dropWhile_not inRun rest
    rw [Option.mem_def.mp head] at stops
    exact of_decide_eq_false stops

/-- Each block is made of a group. A step takes a line that is not ordinary or a whole run. -/
theorem exists_grouped (lines : List NumberedLine) :
    ∃ groups, Grouped lines groups ∧
      groupLines [] (lines.map (·.1)) = groups.map blockOf := by
  match lines with
  | [] => exact ⟨[], .nil, rfl⟩
  | line :: rest =>
      cases kind : lineKind line.1 with
      | blank =>
          obtain ⟨groups, grouped, made⟩ := exists_grouped rest
          refine ⟨groups, .blank kind grouped, ?_⟩
          rw [List.map_cons, groupLines, kind]
          exact made
      | passed =>
          obtain ⟨groups, grouped, made⟩ := exists_grouped rest
          refine ⟨[line] :: groups, .passed kind grouped, ?_⟩
          have alone : blockOf [line] = Text.trim line.1 := by
            rw [blockOf, List.map_singleton, shownLine_of_passed kind, Text.join,
              List.intercalate_singleton]
          rw [List.map_cons, groupLines, kind, List.map_cons, alone, ← made]
          rfl
      | ordinary =>
          obtain ⟨run, further, whole, some, ordinary, ends, shorter⟩ := exists_run rest kind
          obtain ⟨groups, grouped, made⟩ := exists_grouped further
          rw [whole]
          refine ⟨run :: groups, .run some ordinary ends grouped, ?_⟩
          rw [groupLines_run_ends some ordinary ends, made, List.map_cons]
termination_by lines.length
decreasing_by
  · exact Nat.lt_succ_self _
  · exact Nat.lt_succ_self _
  · exact Nat.lt_succ_of_le shorter

theorem ascending_numberedLines (text : List Char) : Ascending (numberedLines text) := by
  have ascending : ((numberedLines text).map (·.2)).Pairwise (· < ·) := by
    rw [numberedLines, List.zipIdx_map_snd]
    exact List.pairwise_lt_range'
  exact List.pairwise_map.mp ascending

theorem lineFeed_not_mem_shownLine {text : List Char} {line : NumberedLine}
    (member : line ∈ numberedLines text) : '\n' ∉ shownLine line.1 := by
  have plain := Text.lineFeed_not_mem_of_mem_lines (List.fst_mem_of_mem_zipIdx member)
  unfold shownLine
  split
  · obtain ⟨front, back, whole, -⟩ := Text.exists_trim line.1
    rw [whole] at plain
    exact fun among => plain (List.mem_append_left _ (List.mem_append_right _ among))
  · exact plain

theorem allBlank_shownLine (line : List Char) :
    Text.allBlank (shownLine line) = Text.allBlank line := by
  unfold shownLine
  split
  · obtain ⟨front, back, whole, before, behind⟩ := Text.exists_trim line
    conv_rhs => rw [whole]
    simp only [Text.allBlank, List.all_append, List.all_eq_true.mpr before,
      List.all_eq_true.mpr behind, Bool.true_and, Bool.and_true]
  · rfl

section

variable {text : List Char} {groups : List (List NumberedLine)}

/-- The lines of a block are those of its group, whichever they are. -/
theorem Grouped.linesOf_blockOf (grouped : Grouped (numberedLines text) groups)
    {group : List NumberedLine} (among : group ∈ groups) :
    Snippet.linesOf (blockOf group) = group.map fun line => shownLine line.1 := by
  refine Snippet.linesOf_join (by simpa using grouped.ne_nil group among) ?_
  refine List.forall_mem_map.mpr fun line member => ?_
  exact lineFeed_not_mem_shownLine (grouped.mem_lines among member).1

theorem exists_groups (text : List Char) :
    ∃ groups, Grouped (numberedLines text) groups ∧
      (blocks text).map Snippet.linesOf =
        groups.map fun group => group.map fun line => shownLine line.1 := by
  obtain ⟨groups, grouped, made⟩ := exists_grouped (numberedLines text)
  refine ⟨groups, grouped, ?_⟩
  rw [numberedLines, List.zipIdx_map_fst, ← blocks] at made
  rw [made, List.map_map]
  exact List.map_congr_left fun group among => grouped.linesOf_blockOf among

theorem Grouped.grouping (grouped : Grouped (numberedLines text) groups) :
    Grouping text groups :=
  ⟨grouped.flatten, fun _ => grouped.alone, fun _ upperAmong _ lowerAmong =>
    grouped.together (ascending_numberedLines text) upperAmong lowerAmong⟩

theorem flatMap_linesOf_blocks (text : List Char) :
    (blocks text).flatMap Snippet.linesOf =
      ((Text.lines text).filter fun line => !Text.allBlank line).map shownLine := by
  obtain ⟨groups, grouped, lists⟩ := exists_groups text
  have source : (numberedLines text).map (·.1) = Text.lines text := List.zipIdx_map_fst 0 _
  calc
    (blocks text).flatMap Snippet.linesOf
      = (groups.map fun group => group.map fun line => shownLine line.1).flatten := by
        rw [List.flatMap_def, lists]
    _ = ((numberedLines text).filter fun line => !Text.allBlank line.1).map
          fun line => shownLine line.1 := by
        rw [← List.map_flatten, grouped.flatten]
    _ = ((Text.lines text).filter fun line => !Text.allBlank line).map shownLine := by
        rw [← source, List.filter_map, List.map_map]
        rfl

theorem visible_of_mem_linesOf {block line : List Char} (among : block ∈ blocks text)
    (member : line ∈ Snippet.linesOf block) : Text.allBlank line = false := by
  have listed : line ∈ (blocks text).flatMap Snippet.linesOf :=
    List.mem_flatMap.mpr ⟨block, among, member⟩
  rw [flatMap_linesOf_blocks] at listed
  obtain ⟨own, kept, rfl⟩ := List.mem_map.mp listed
  rw [allBlank_shownLine]
  simpa using (List.mem_filter.mp kept).2

end

/-- The blocks of a text are its lines that are not blank, read in their order. A block has none
that is blank, a stand-in alone on its line is a block, and ordinary lines are in one block exactly
if there are none but ordinary ones between them. -/
theorem blocks_by_line (text : List Char) :
    (blocks text).flatMap Snippet.linesOf =
        ((Text.lines text).filter fun line => !Text.allBlank line).map shownLine ∧
      (∀ block ∈ blocks text,
        block ≠ [] ∧ ∀ line ∈ Snippet.linesOf block, Text.allBlank line = false) ∧
      ∃ groups, Grouping text groups ∧
        (blocks text).map Snippet.linesOf =
          groups.map fun group => group.map fun line => shownLine line.1 := by
  obtain ⟨groups, grouped, lists⟩ := exists_groups text
  refine ⟨flatMap_linesOf_blocks text, fun block among => ⟨?_, fun line => ?_⟩, groups,
    grouped.grouping, lists⟩
  · rintro rfl
    cases visible_of_mem_linesOf among List.mem_cons_self
  · exact visible_of_mem_linesOf among

end Bindery.Textile
