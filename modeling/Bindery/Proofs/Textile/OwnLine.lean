import Bindery.Proofs.Textile.Carried
import Bindery.Proofs.Textile.Segment

/-!
# A span on lines of its own

A stand-in with only blanks around it on its line is a block of its own. It ends
the block before it, and the block behind it begins anew.
-/

set_option autoImplicit false

namespace Bindery.Textile

/-- Blanks within a line. -/
def LineBlanks (text : List Char) : Prop := ∀ c ∈ text, c ≠ '\n' ∧ Text.isBlank c = true

/-- Only blanks stand behind the last line feed. -/
def OpensLine (text : List Char) : Prop :=
  ∃ above blanks, text = above ++ blanks ∧ (above = [] ∨ ['\n'] <:+ above) ∧ LineBlanks blanks

/-- Only blanks stand before the first line feed. -/
def ClosesLine (text : List Char) : Prop :=
  ∃ blanks below, text = blanks ++ below ∧ (below = [] ∨ ['\n'] <+: below) ∧ LineBlanks blanks

section

variable {text blanks line above below : List Char}

theorem LineBlanks.not_mem (inLine : LineBlanks blanks) : '\n' ∉ blanks :=
  fun member => (inLine _ member).1 rfl

theorem LineBlanks.allBlank (inLine : LineBlanks blanks) : Text.allBlank blanks = true :=
  List.all_eq_true.mpr fun c member => (inLine c member).2

theorem LineBlanks.foreign (inLine : LineBlanks blanks) : Foreign blanks := by
  have tags : (spanOpening ++ spanClosing).all (fun c => !Text.isBlank c) = true := by decide
  intro c member
  have other : c ∉ spanOpening ++ spanClosing := by
    intro tag
    have visible := List.all_eq_true.mp tags c tag
    rw [(inLine c member).2] at visible
    cases visible
  rwa [List.mem_append, not_or] at other

/-! ## Lines -/

theorem lines_append_of_ended (ended : above = [] ∨ ['\n'] <:+ above) (rest : List Char) :
    Text.lines (above ++ rest) = Text.lines above ++ Text.lines rest := by
  obtain rfl | ⟨front, rfl⟩ := ended
  · rfl
  · rw [List.append_assoc]
    exact Text.lines_append_lineFeed front rest

theorem trim_eq_of_shown {shown : List Char} (same : line = shown ∨ line = shown ++ ['\r']) :
    Text.trim shown = Text.trim line := by
  rcases same with rfl | rfl
  · rfl
  · exact (Text.trim_append_blanks (by decide) shown).symm

/-! ## Blocks -/

variable {index : Nat}

theorem isStandIn_standIn (index : Nat) : isStandIn (standIn index) = true := by
  have read := standInDigits?_standIn index []
  rw [List.append_nil] at read
  rw [isStandIn, read]
  dsimp only
  rw [standIn, List.cons_append, List.length_cons, List.length_append, List.length_singleton]
  exact decide_eq_true rfl

theorem trimStart_standIn (index : Nat) : Text.trimStart (standIn index) = standIn index :=
  List.dropWhile_cons_of_neg (by decide)

theorem trim_standIn (index : Nat) : Text.trim (standIn index) = standIn index := by
  rw [Text.trim, trimStart_standIn, Text.trimEnd, Text.dropEndWhile, standIn, List.reverse_append,
    List.reverse_singleton, List.singleton_append, List.dropWhile_cons_of_neg (by decide),
    List.reverse_cons, List.reverse_reverse]

theorem lineKind_standIn (passed : Text.trim line = standIn index) : lineKind line = .passed := by
  rw [lineKind, passed, if_pos (isStandIn_standIn index)]

theorem lineKind_eq_blank (blank : Text.allBlank line = true) : lineKind line = .blank := by
  have trimmed : Text.trim line = [] := by
    rw [Text.trim, Text.trimStart_eq_nil blank]
    rfl
  rw [lineKind, trimmed, if_neg (by decide), if_pos blank]

/-- What stands in blanks before a line feed, or before nothing else, closes a block. -/
theorem groupLines_blanks (inLine : LineBlanks blanks) (feed : below = [] ∨ ['\n'] <+: below)
    (current : List (List Char)) :
    groupLines current (Text.lines (blanks ++ below)) =
      closeBlock current ++ groupLines [] (Text.lines below.tail) := by
  by_cases nothing : blanks ++ below = []
  · obtain ⟨-, rfl⟩ := List.append_eq_nil_iff.mp nothing
    rw [nothing]
    exact (List.append_nil _).symm
  · obtain ⟨shown, same, found⟩ := Text.exists_firstLine nothing inLine.not_mem feed
    have blank : Text.allBlank shown = true := by
      refine List.all_eq_true.mpr fun c member => (inLine c ?_).2
      rcases same with rfl | rfl
      · exact member
      · exact List.mem_append_left _ member
    rw [found, groupLines, lineKind_eq_blank blank]

/-- A stand-in alone on its line is a block of its own. -/
theorem blocks_ownLine {before after : List Char} (opens : OpensLine before)
    (closes : ClosesLine after) (index : Nat) :
    blocks (before ++ (standIn index ++ after)) =
      blocks before ++ standIn index :: blocks after := by
  obtain ⟨above, indent, rfl, ended, indented⟩ := opens
  obtain ⟨blanks, below, rfl, feed, trailing⟩ := closes
  have oneLine : '\n' ∉ indent ++ (standIn index ++ blanks) :=
    List.not_mem_append indented.not_mem
      (List.not_mem_append (not_mem_standIn (by decide)) trailing.not_mem)
  have visible : indent ++ (standIn index ++ blanks) ++ below ≠ [] := by
    simp [standIn]
  obtain ⟨shown, same, found⟩ := Text.exists_firstLine visible oneLine feed
  have passed : Text.trim shown = standIn index := by
    rw [trim_eq_of_shown same, ← List.append_assoc, Text.trim_append_blanks trailing.allBlank,
      Text.trim, Text.trimStart_blanks_append indented.allBlank]
    exact trim_standIn index
  obtain ⟨closed, grouped⟩ := groupLines_append [] (Text.lines above)
  have earlier : blocks (above ++ indent) =
      closed ++ closeBlock (openLines [] (Text.lines above)) := by
    have ends : groupLines (openLines [] (Text.lines above)) (Text.lines (indent ++ [])) =
        closeBlock (openLines [] (Text.lines above)) ++ [] :=
      groupLines_blanks indented (.inl rfl) _
    rw [List.append_nil, List.append_nil] at ends
    rw [blocks, lines_append_of_ended ended, grouped, ends]
  have later : blocks (blanks ++ below) = groupLines [] (Text.lines below.tail) :=
    groupLines_blanks trailing feed []
  have whole : above ++ indent ++ (standIn index ++ (blanks ++ below)) =
      above ++ (indent ++ (standIn index ++ blanks) ++ below) := by
    simp only [List.append_assoc]
  rw [whole, blocks, lines_append_of_ended ended, found, grouped, groupLines,
    lineKind_standIn passed, passed, earlier, later, List.append_assoc]

theorem renderBlocks_ownLine {before after : List Char} (opens : OpensLine before)
    (closes : ClosesLine after) (index : Nat) :
    renderBlocks (before ++ (standIn index ++ after)) =
      renderBlocks before ++ (standIn index ++ '\n' :: renderBlocks after) := by
  have kept : formOf (standIn index) = .kept := by
    rw [formOf_eq_kept_iff, trimStart_standIn]
    exact .inl (isStandIn_standIn index)
  rw [renderBlocks, blocks_ownLine opens closes, List.flatMap_append, List.flatMap_cons,
    renderBlock_eq_self_iff.mpr kept, List.append_assoc]
  rfl

/-! ## Line endings and spans -/

theorem numbered_append (first second : List Segment) :
    numbered index (first ++ second) =
      numbered index first ++
        numbered (index + (first.filterMap Segment.content?).length) second := by
  induction first generalizing index with
  | nil => rfl
  | cons segment first ih =>
      cases segment with
      | plain c => exact congrArg (c :: ·) ih
      | span content =>
          rw [List.cons_append, numbered, ih, numbered, List.append_assoc]
          congr 3
          rw [List.filterMap_cons]
          dsimp only [Segment.content?]
          rw [List.length_cons]
          omega

theorem numbered_plain (text : List Char) : numbered index (text.map .plain) = text := by
  induction text with
  | nil => rfl
  | cons c rest ih => exact congrArg (c :: ·) ih

theorem lift_eq (text : List Char) : lift text = numbered 0 (segments text) := liftAfter_eq 0 0 text

theorem liftAfter_append_of_not_mem (absent : '<' ∉ text) (rest : List Char) :
    liftAfter 0 index (text ++ rest) = text ++ liftAfter 0 index rest := by
  have unspanned : (text.map Segment.plain).filterMap Segment.content? = [] := by
    rw [List.filterMap_map]
    exact List.filterMap_eq_nil_iff.mpr fun _ _ => rfl
  rw [liftAfter_eq, liftAfter_eq, ← segments, ← segments, segments_append_of_not_mem absent,
    numbered_append, numbered_plain, unspanned]
  rfl

theorem lift_append_foreign {tail : List Char} (foreign : Foreign tail) :
    lift (text ++ tail) = lift text ++ tail := by
  rw [lift_eq, segments_append_foreign foreign, numbered_append, numbered_plain, lift_eq]

theorem foreign_lineFeed : Foreign ['\n'] := by
  intro c member
  obtain rfl := List.mem_singleton.mp member
  decide

theorem OpensLine.lift (opens : OpensLine text) : OpensLine (lift text) := by
  obtain ⟨above, blanks, rfl, ended, inLine⟩ := opens
  refine ⟨Textile.lift above, blanks, lift_append_foreign inLine.foreign, ?_, inLine⟩
  refine ended.imp (congrArg Textile.lift) ?_
  rintro ⟨front, rfl⟩
  exact ⟨Textile.lift front, (lift_append_foreign foreign_lineFeed).symm⟩

theorem ClosesLine.liftAfter (closes : ClosesLine text) (index : Nat) :
    ClosesLine (liftAfter 0 index text) := by
  obtain ⟨blanks, below, rfl, feed, inLine⟩ := closes
  refine ⟨blanks, Textile.liftAfter 0 index below,
    liftAfter_append_of_not_mem (not_mem_of_foreign inLine.foreign) below, ?_, inLine⟩
  refine feed.imp (congrArg (Textile.liftAfter 0 index)) ?_
  rintro ⟨rest, rfl⟩
  exact ⟨Textile.liftAfter 0 index rest,
    (liftAfter_append_of_not_mem (not_mem_of_foreign foreign_lineFeed) rest).symm⟩

/-- A line feed may take a carriage return before it along. -/
theorem exists_kept (front rest : List Char) :
    ∃ kept, (front = kept ∨ front = kept ++ ['\r']) ∧
      Text.unixEndings (front ++ '\n' :: rest) =
        Text.unixEndings kept ++ '\n' :: Text.unixEndings rest := by
  by_cases last : front.getLast? = some '\r'
  · obtain ⟨kept, rfl⟩ := List.getLast?_eq_some_iff.mp last
    refine ⟨kept, .inr rfl, ?_⟩
    rw [List.append_assoc, Text.unixEndings_append (.inr fun first => by cases first)]
    rfl
  · refine ⟨front, .inl rfl, ?_⟩
    rw [Text.unixEndings_append (.inl last)]
    rfl

theorem OpensLine.unixEndings (opens : OpensLine text) : OpensLine (Text.unixEndings text) := by
  obtain ⟨above, blanks, rfl, ended, inLine⟩ := opens
  refine ⟨Text.unixEndings above, blanks, ?_, ?_, inLine⟩
  · have whole : above.getLast? ≠ some '\r' := by
      obtain rfl | ⟨front, rfl⟩ := ended
      · exact nofun
      · rw [List.getLast?_concat]
        decide
    rw [Text.unixEndings_append (.inl whole), Text.unixEndings_eq_self inLine.not_mem]
  · refine ended.imp (congrArg Text.unixEndings) ?_
    rintro ⟨front, rfl⟩
    obtain ⟨kept, -, found⟩ := exists_kept front []
    exact ⟨Text.unixEndings kept, found.symm⟩

theorem ClosesLine.unixEndings (closes : ClosesLine text) :
    ClosesLine (Text.unixEndings text) := by
  obtain ⟨blanks, below, rfl, feed, inLine⟩ := closes
  obtain rfl | ⟨rest, rfl⟩ := feed
  · rw [List.append_nil, Text.unixEndings_eq_self inLine.not_mem]
    exact ⟨blanks, [], (List.append_nil _).symm, .inl rfl, inLine⟩
  · obtain ⟨kept, same, found⟩ := exists_kept blanks rest
    have shorter : LineBlanks kept := by
      rcases same with rfl | rfl
      · exact inLine
      · exact fun c member => inLine c (List.mem_append_left _ member)
    rw [Text.unixEndings_eq_self shorter.not_mem] at found
    exact ⟨kept, '\n' :: Text.unixEndings rest, found, .inr (List.prefix_append ['\n'] _), shorter⟩

end

end Bindery.Textile
