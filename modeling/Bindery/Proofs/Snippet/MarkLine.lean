import Bindery.Proofs.Snippet.Block
import Bindery.Proofs.Text.Trim
import Bindery.Snippet.Engine

/-!
# Code without marks

The lines with a mark are removed by one pattern for the whole text. A mark is read within
a line, so the pattern takes each such line with its line feed and nothing else: what is
left are the other lines, but for the line feeds at the end.
-/

set_option autoImplicit false

namespace Bindery.Snippet

/-- The line has the mark in it, in any case. -/
def Carries (mark line : List Char) : Prop := mark.map Text.foldChar <:+: line.map Text.foldChar

/-- The line has a mark in it that begins a block or ends one, whatever its name. -/
def IsMarkLine (line : List Char) : Prop := Carries beginMark line ∨ Carries endMark line

instance : DecidablePred IsMarkLine := fun line =>
  inferInstanceAs (Decidable (beginMark.map Text.foldChar <:+: line.map Text.foldChar ∨
    endMark.map Text.foldChar <:+: line.map Text.foldChar))

/-- The lines without a mark. -/
def unmarked (lines : List (List Char)) : List (List Char) :=
  lines.filter fun line => ¬ IsMarkLine line

section

variable {mark line tail rest : List Char} {before : Option Char} {found : List Char}
  {lines : List (List Char)}

theorem mem_unmarked_iff : line ∈ unmarked lines ↔ line ∈ lines ∧ ¬ IsMarkLine line := by
  rw [unmarked, List.mem_filter, decide_eq_true_eq]

/-! ## Marks in a line -/

theorem carries_iff : Carries mark line ↔ ∃ front sign back,
    line = front ++ (sign ++ back) ∧ Text.SameInAnyCase sign mark := by
  constructor
  · rintro ⟨front, back, whole⟩
    rw [List.append_assoc, eq_comm] at whole
    obtain ⟨front, others, rfl, -, rest⟩ := List.map_eq_append_iff.mp whole
    obtain ⟨sign, back, rfl, same, -⟩ := List.map_eq_append_iff.mp rest
    exact ⟨front, sign, back, rfl, same⟩
  · rintro ⟨front, sign, back, rfl, same⟩
    refine ⟨front.map Text.foldChar, back.map Text.foldChar, ?_⟩
    rw [List.map_append, List.map_append, same, List.append_assoc]

theorem IsMarkLine.of_within {inside : List Char} (marked : IsMarkLine inside)
    (within : inside <:+: line) : IsMarkLine line :=
  marked.imp (·.trans (within.map _)) (·.trans (within.map _))

theorem map_foldChar_join (lines : List (List Char)) :
    (Text.join ['\n'] lines).map Text.foldChar =
      Text.join ['\n'] (lines.map (List.map Text.foldChar)) := by
  induction lines with
  | nil => rfl
  | cons line lines ih =>
      cases lines with
      | nil =>
          rw [List.map_singleton, Text.join, Text.join, List.intercalate_singleton,
            List.intercalate_singleton]
      | cons next lines =>
          have feed : Text.foldChar '\n' = '\n' := (Text.foldChar_eq_iff (by decide)).mpr rfl
          rw [List.map_cons] at ih
          rw [join_cons_cons, List.map_append, List.map_cons, feed, ih, List.map_cons, List.map_cons,
            join_cons_cons]

theorem carries_join_iff (oneLine : OneLine mark) (some : mark ≠ []) (lines : List (List Char)) :
    Carries mark (Text.join ['\n'] lines) ↔ ∃ line ∈ lines, Carries mark line := by
  have some' : mark.map Text.foldChar ≠ [] := fun none => some (List.map_eq_nil_iff.mp none)
  rw [Carries, map_foldChar_join, Text.infix_join_iff oneLine some']
  simp only [List.mem_map, exists_exists_and_eq_and, Carries]

/-- A text has a mark exactly if one of its lines does. -/
theorem isMarkLine_join_iff (lines : List (List Char)) :
    IsMarkLine (Text.join ['\n'] lines) ↔ ∃ line ∈ lines, IsMarkLine line := by
  rw [IsMarkLine, carries_join_iff oneLine_beginMark (by decide),
    carries_join_iff oneLine_endMark (by decide), ← exists_or]
  simp only [← and_or_left, IsMarkLine]

/-! ## The pattern of a line with a mark -/

/-- The rest of a line is taken as a whole, and its line feed if it has one. -/
theorem restOfAnyLine_eq (plain : '\n' ∉ line) (ended : EndsLine tail) (before : Option Char) :
    restOfAnyLine (fun _ behind => some behind) before (line ++ tail) = some tail.tail := by
  refine Text.manyOf_all (fun c member => ?_) (fun c head => ?_) ?_
  · exact bne_iff_ne.mpr fun same => plain (same ▸ member)
  · rw [ended c head]
    rfl
  · cases tail with
    | nil => rfl
    | cons c tail =>
        obtain rfl := ended c rfl
        rfl

theorem inAnyCase_restOfAnyLine_eq_some (oneLine : OneLine mark) (plain : '\n' ∉ line)
    (ended : EndsLine tail)
    (read : Text.inAnyCase mark (restOfAnyLine fun _ behind => some behind) before (line ++ tail) =
      some found) : Carries mark line ∧ found = tail.tail := by
  obtain ⟨sign, behind, split, same, read⟩ := Text.exists_of_inAnyCase read
  have plain' : '\n' ∉ sign := not_mem_of_sameInAnyCase same oneLine
  obtain ⟨back, rfl⟩ := prefix_of_endsLine ended plain' (split ▸ List.prefix_append sign behind)
  rw [List.append_assoc, List.append_cancel_left_eq] at split
  subst split
  rw [restOfAnyLine_eq (fun member => plain (List.mem_append_right _ member)) ended] at read
  exact ⟨carries_iff.mpr ⟨[], sign, back, rfl, same⟩, (Option.some.inj read).symm⟩

theorem isSome_inAnyCase_restOfAnyLine {sign : List Char} (same : Text.SameInAnyCase sign mark)
    (plain : '\n' ∉ line) (ended : EndsLine tail) (before : Option Char) :
    (Text.inAnyCase mark (restOfAnyLine fun _ behind => some behind) before
      (sign ++ (line ++ tail))).isSome = true := by
  rw [Text.inAnyCase_append same, restOfAnyLine_eq plain ended]
  rfl

/-- The pattern fits only a line with a mark, and takes it with its line feed. -/
theorem markLinePattern_eq_some (plain : '\n' ∉ line) (ended : EndsLine tail)
    (read : markLinePattern before (line ++ tail) = some found) :
    IsMarkLine line ∧ found = tail.tail := by
  rw [markLinePattern] at read
  dsimp only [Text.lineStart] at read
  rw [Option.ite_none_right_eq_some] at read
  obtain ⟨front, here, split, within, read⟩ := Text.exists_of_manyOf read.2
  have front' : '\n' ∉ front := fun member => absurd (within _ member) (by decide)
  obtain ⟨inside, rfl⟩ := prefix_of_endsLine ended front' (split ▸ List.prefix_append front here)
  rw [List.append_assoc, List.append_cancel_left_eq] at split
  subst split
  have plain' : '\n' ∉ inside := fun member => plain (List.mem_append_right _ member)
  have marked : IsMarkLine inside ∧ found = tail.tail := by
    rcases Text.either_eq_some read with read | read
    · obtain ⟨carries, same⟩ :=
        inAnyCase_restOfAnyLine_eq_some oneLine_beginMark plain' ended read
      exact ⟨.inl carries, same⟩
    · obtain ⟨carries, same⟩ :=
        inAnyCase_restOfAnyLine_eq_some oneLine_endMark plain' ended read
      exact ⟨.inr carries, same⟩
  exact ⟨marked.1.of_within List.infix_append_right, marked.2⟩

/-- At the beginning of a line with a mark the pattern fits. -/
theorem markLinePattern_of_isMarkLine (plain : '\n' ∉ line) (ended : EndsLine tail)
    (marked : IsMarkLine line) (starts : before.all (· == '\n') = true) :
    markLinePattern before (line ++ tail) = some tail.tail := by
  obtain ⟨front, sign, back, rfl, same⟩ : ∃ front sign back, line = front ++ (sign ++ back) ∧
      (Text.SameInAnyCase sign beginMark ∨ Text.SameInAnyCase sign endMark) := by
    rcases marked with marked | marked
    · obtain ⟨front, sign, back, whole, same⟩ := carries_iff.mp marked
      exact ⟨front, sign, back, whole, .inl same⟩
    · obtain ⟨front, sign, back, whole, same⟩ := carries_iff.mp marked
      exact ⟨front, sign, back, whole, .inr same⟩
  have back' : '\n' ∉ back := fun member => plain (by simp [member])
  have fits : (markLinePattern before ((front ++ (sign ++ back)) ++ tail)).isSome = true := by
    rw [markLinePattern]
    dsimp only [Text.lineStart]
    rw [if_pos starts, List.append_assoc, List.append_assoc]
    refine Text.isSome_manyOf (fun c member => ?_) (Text.isSome_either_iff.mpr ?_)
    · refine bne_iff_ne.mpr ?_
      rintro rfl
      exact plain (List.mem_append_left _ member)
    · exact same.imp (isSome_inAnyCase_restOfAnyLine · back' ended _)
        (isSome_inAnyCase_restOfAnyLine · back' ended _)
  obtain ⟨found, read⟩ := Option.isSome_iff_exists.mp fits
  rw [read, (markLinePattern_eq_some plain ended read).2]

/-- No part of a line without a mark is taken. -/
theorem markLinePattern_eq_none (plain : '\n' ∉ line) (kept : ¬ IsMarkLine line)
    (ended : EndsLine tail) {here : List Char} (within : here <:+ line) (before : Option Char) :
    markLinePattern before (here ++ tail) = none := by
  rw [Option.eq_none_iff_forall_ne_some]
  intro found read
  have plain' : '\n' ∉ here := fun member => plain (within.subset member)
  exact kept ((markLinePattern_eq_some plain' ended read).1.of_within within.isInfix)

/-! ## Removal line by line -/

theorem removeAfter_kept_line (plain : '\n' ∉ line) (kept : ¬ IsMarkLine line) :
    Text.removeAfter markLinePattern 0 before (line ++ '\n' :: rest) =
      line ++ '\n' :: Text.removeAfter markLinePattern 0 (some '\n') rest := by
  have whole : ∀ rest, line ++ '\n' :: rest = (line ++ ['\n']) ++ rest := by simp
  rw [whole, Text.removeAfter_append, whole]
  · simp [Text.lastOf]
  · intro here suffix some before
    obtain ⟨inside, rfl, within⟩ := (List.suffix_concat_iff.mp suffix).resolve_left some
    rw [List.append_assoc]
    exact markLinePattern_eq_none plain kept (by simp [EndsLine]) within before

theorem removeAfter_kept_last (plain : '\n' ∉ line) (kept : ¬ IsMarkLine line) :
    Text.removeAfter markLinePattern 0 before line = line := by
  have ended : EndsLine [] := nofun
  have whole : Text.removeAfter markLinePattern 0 before (line ++ []) =
      line ++ Text.removeAfter markLinePattern 0 (Text.lastOf before line) [] :=
    Text.removeAfter_append
      (fun here suffix _ => markLinePattern_eq_none plain kept ended suffix) before
  simpa [Text.removeAfter] using whole

theorem removeAfter_marked_line (plain : '\n' ∉ line) (marked : IsMarkLine line)
    (starts : before.all (· == '\n') = true) :
    Text.removeAfter markLinePattern 0 before (line ++ '\n' :: rest) =
      Text.removeAfter markLinePattern 0 (some '\n') rest := by
  have ended : EndsLine ('\n' :: rest) := by simp [EndsLine]
  have fits := markLinePattern_of_isMarkLine plain ended marked starts
  have whole : line ++ '\n' :: rest = (line ++ ['\n']) ++ rest := by simp
  rw [whole] at fits ⊢
  rw [Text.removeAfter_taken (by simp) fits]
  simp [Text.lastOf]

theorem removeAfter_marked_last (plain : '\n' ∉ line) (marked : IsMarkLine line)
    (starts : before.all (· == '\n') = true) :
    Text.removeAfter markLinePattern 0 before line = [] := by
  cases line with
  | nil => rfl
  | cons c line =>
      have ended : EndsLine [] := nofun
      have fits := markLinePattern_of_isMarkLine plain ended marked starts
      have taken := Text.removeAfter_taken (List.cons_ne_nil c line) fits
      rw [List.append_nil] at taken
      rw [taken]
      rfl

/-- What is left are the lines without a mark. The line feed behind the last one of them stays if
lines with a mark follow it. -/
theorem exists_removeAfter_markLinePattern (plain : ∀ line ∈ lines, '\n' ∉ line)
    (starts : before.all (· == '\n') = true) : ∃ feeds : List Char,
      Text.removeAfter markLinePattern 0 before (Text.join ['\n'] lines) =
        Text.join ['\n'] (unmarked lines) ++ feeds ∧
      (∀ c ∈ feeds, c = '\n') ∧ (unmarked lines = [] → feeds = []) := by
  induction lines generalizing before with
  | nil => exact ⟨[], rfl, List.forall_mem_nil _, fun _ => rfl⟩
  | cons line lines ih =>
      obtain ⟨here, others⟩ := List.forall_mem_cons.mp plain
      cases lines with
      | nil =>
          have last : Text.removeAfter markLinePattern 0 before line =
              Text.join ['\n'] (unmarked [line]) := by
            by_cases marked : IsMarkLine line
            · rw [removeAfter_marked_last here marked starts]
              simp [unmarked, marked, Text.join]
            · rw [removeAfter_kept_last here marked]
              simp [unmarked, marked, Text.join]
          rw [Text.join, List.intercalate_singleton, last]
          exact ⟨[], (List.append_nil _).symm, List.forall_mem_nil _, fun _ => rfl⟩
      | cons next lines =>
          have begins : (some '\n').all (· == '\n') = true := rfl
          obtain ⟨feeds, left, all, none⟩ := ih others begins
          rw [join_cons_cons]
          by_cases marked : IsMarkLine line
          · have same : unmarked (line :: next :: lines) = unmarked (next :: lines) :=
              List.filter_cons_of_neg (by simpa using marked)
            rw [removeAfter_marked_line here marked starts, same]
            exact ⟨feeds, left, all, none⟩
          · have more : unmarked (line :: next :: lines) = line :: unmarked (next :: lines) :=
              List.filter_cons_of_pos (by simpa using marked)
            rw [removeAfter_kept_line here marked, left, more]
            cases kept : unmarked (next :: lines) with
            | nil =>
                rw [none kept]
                exact ⟨['\n'], by simp [Text.join], by simp, by simp⟩
            | cons first kept =>
                exact ⟨feeds, by simp [join_cons_cons], all, by simp⟩

theorem trimLineFeeds_dropMarkLines (code : List Char) : trimLineFeeds (dropMarkLines code) =
    trimLineFeeds (Text.join ['\n'] (unmarked (linesOf code))) := by
  have begins : (none : Option Char).all (· == '\n') = true := rfl
  obtain ⟨feeds, left, all, -⟩ := exists_removeAfter_markLinePattern
    (fun _ among => not_mem_of_mem_linesOf among) begins
  rw [join_linesOf code] at left
  rw [dropMarkLines, Text.removeAll, left, trimLineFeeds,
    Text.dropEndWhile_append fun c member => beq_iff_eq.mpr (all c member), trimLineFeeds]

/-! ## The code of a file -/

variable {engine : Engine} {directive : Directive} {file content selected : List Char}

theorem Engine.resolve_of_select (named : directive.file = some file)
    (read : engine.readCode file = .ok content) (selects : directive.select content = .ok selected)
    (body : List Char) : engine.resolve directive body =
      .ok (trimLineFeeds (Text.join ['\n'] (unmarked (linesOf selected)))) := by
  rw [← trimLineFeeds_dropMarkLines, resolve]
  simp only [named, read, selects, bind, Except.bind]
  rfl

/-- The code of a file is what is selected from it, without the lines that have a mark. The other
lines stay as they are and in their order, but for the line feeds at the end. So no line of the code
has a mark. -/
theorem Engine.resolve_unmarked (named : directive.file = some file)
    (read : engine.readCode file = .ok content) (selects : directive.select content = .ok selected)
    (body : List Char) : ∃ code feeds, engine.resolve directive body = .ok code ∧
      Text.join ['\n'] (unmarked (linesOf selected)) = code ++ feeds ∧ (∀ c ∈ feeds, c = '\n') ∧
      code.getLast? ≠ some '\n' ∧ ∀ line ∈ linesOf code, ¬ IsMarkLine line := by
  obtain ⟨feeds, whole, all⟩ :=
    Text.exists_dropEndWhile (· == '\n') (Text.join ['\n'] (unmarked (linesOf selected)))
  refine ⟨_, feeds, resolve_of_select named read selects body, whole.symm, ?_, ?_, ?_⟩
  · exact fun c member => beq_iff_eq.mp (all c member)
  · intro last
    exact absurd (Text.getLast?_dropEndWhile _ last) (by decide)
  · intro line among marked
    have inCode := (isMarkLine_join_iff _).mpr ⟨line, among, marked⟩
    rw [join_linesOf] at inCode
    have inText := inCode.of_within (Text.dropEndWhile_isPrefix _ _).isInfix
    obtain ⟨other, among', marked'⟩ := (isMarkLine_join_iff _).mp inText
    exact (mem_unmarked_iff.mp among').2 marked'

end

/-- A file with a block within another one and no line feed at the end. -/
def nestedSource : String := "@begin:a\nx\n  @BEGIN:b\n  y\n  @End:b\n\n@end:a"

/-- An engine that reads this file whatever its name is. -/
def nestedEngine : Engine := ⟨"code", fun _ => .ok nestedSource, plainHighlighter⟩

theorem Engine.resolve_unmarked_nested : ∃ code feeds,
    nestedEngine.resolve (Directive.parse "c a.c:2,7".toList) [] = .ok code ∧
      Text.join ['\n'] (unmarked (linesOf "x\n  @BEGIN:b\n  y\n  @End:b\n\n@end:a".toList)) =
        code ++ feeds ∧
      (∀ c ∈ feeds, c = '\n') ∧ code.getLast? ≠ some '\n' ∧
      ∀ line ∈ linesOf code, ¬ IsMarkLine line := by
  have named : (Directive.parse "c a.c:2,7".toList).file = some "a.c".toList := by
    decide +kernel
  have read : nestedEngine.readCode "a.c".toList = .ok nestedSource.toList := rfl
  have selects : (Directive.parse "c a.c:2,7".toList).select nestedSource.toList =
      .ok "x\n  @BEGIN:b\n  y\n  @End:b\n\n@end:a".toList := by
    decide +kernel
  exact resolve_unmarked named read selects []

/-- Neither the lines with a mark nor the line feeds at the end are left. -/
example : nestedEngine.resolve (Directive.parse "c a.c".toList) [] = .ok "x\n  y".toList := by
  decide +kernel

end Bindery.Snippet
