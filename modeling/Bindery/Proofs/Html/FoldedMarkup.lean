import Bindery.Html.Construction.Document
import Bindery.Proofs.Html.Reference

/-!
# Markup in folded texts

A tag is read alike in both texts if its line feeds stand in quoted values, and a comment, a
document type or a script if it has no line feeds.
-/

set_option autoImplicit false

namespace Bindery.Html

/-! ## Tags -/

/-- Whether the place is in a quoted value, where references count. -/
def TagPlace.isQuoted : TagPlace → Bool
  | .quoted quote => quote == '"' || quote == '\''
  | _ => false

/-- Whether the line feeds in the rest of a tag stand in quoted values. -/
def feedsQuoted : TagPlace → List Char → Bool
  | _, [] => true
  | place, c :: rest =>
      c == '>' && place.closes ||
        (c != '\n' || place.isQuoted) && feedsQuoted (tagStep place .empty c).1 rest

/-- What stands behind the name of a tag. -/
def behindName (text : List Char) : List Char :=
  text.drop (text.takeWhile fun c => !endsTagName c).length

section

variable {name rest : List Char} (letters : ∀ c ∈ name, endsTagName c = false)
  (ends : ∀ c ∈ rest.head?, endsTagName c = true)

include letters ends

theorem takeWhile_name : (name ++ rest).takeWhile (fun c => !endsTagName c) = name := by
  have none : rest.takeWhile (fun c => !endsTagName c) = [] := by
    cases rest with
    | nil => rfl
    | cons c rest => simp [ends c rfl]
  rw [List.takeWhile_append_of_pos fun c member => by simp [letters c member], none,
    List.append_nil]

theorem behindName_append : behindName (name ++ rest) = rest := by
  rw [behindName, takeWhile_name letters ends, List.drop_left]

end

theorem exists_name (text : List Char) : ∃ name rest, text = name ++ rest ∧
    (∀ c ∈ name, endsTagName c = false) ∧ ∀ c ∈ rest.head?, endsTagName c = true := by
  refine ⟨text.takeWhile fun c => !endsTagName c, text.dropWhile fun c => !endsTagName c,
    List.takeWhile_append_dropWhile.symm, fun c member => ?_, fun c first => ?_⟩
  · simpa using List.mem_takeWhile_imp member
  · have last := List.head?_dropWhile_not (fun c => !endsTagName c) text
    rw [first] at last
    simpa using last

/-- Drafts of a tag that become the same tag. -/
structure SameDraft (draft other : TagDraft) : Prop where
  done : draft.done = other.done
  name : draft.name = other.name
  value : Folds draft.value.reverse other.value.reverse

namespace SameDraft

variable {draft other : TagDraft}

theorem refl (draft : TagDraft) : SameDraft draft draft := ⟨rfl, rfl, .refl _⟩

theorem close (same : SameDraft draft other) : SameDraft draft.close other.close := by
  unfold TagDraft.close
  rw [same.done, same.name, same.value.decodeValue]
  split
  · exact ⟨same.done, same.name, same.value⟩
  · dsimp only
    split <;> exact .refl _

theorem begin (same : SameDraft draft other) (c : Char) :
    SameDraft (draft.begin c) (other.begin c) :=
  ⟨same.close.done, rfl, same.close.value⟩

theorem addName (same : SameDraft draft other) (c : Char) :
    SameDraft (draft.addName c) (other.addName c) :=
  ⟨same.done, congrArg (nameChar c :: ·) same.name, same.value⟩

theorem addValue (same : SameDraft draft other) (c : Char) :
    SameDraft (draft.addValue c) (other.addValue c) := by
  refine ⟨same.done, same.name, ?_⟩
  simp only [TagDraft.addValue, List.reverse_cons]
  exact same.value.append (.refl _)

/-- A line feed in a value and a reference to one. -/
theorem addFeed (same : SameDraft draft other) :
    SameDraft (draft.addValue '\n') ("&#10;".toList.foldl TagDraft.addValue other) := by
  refine ⟨same.done, same.name, ?_⟩
  have reference : ("&#10;".toList.foldl TagDraft.addValue other).value.reverse =
      other.value.reverse ++ "&#10;".toList := by
    simp [TagDraft.addValue, withoutNull]
  rw [reference]
  simp only [TagDraft.addValue, List.reverse_cons]
  exact same.value.append (.feed .nil)

theorem attributes (same : SameDraft draft other) : draft.attributes = other.attributes :=
  congrArg List.reverse same.close.done

theorem tagStep (same : SameDraft draft other) (place : TagPlace) (c : Char) :
    (tagStep place draft c).1 = (Html.tagStep place other c).1 ∧
      SameDraft (Html.tagStep place draft c).2 (Html.tagStep place other c).2 := by
  cases place <;> simp only [Html.tagStep, openName] <;> split_ifs <;>
    first
    | exact ⟨rfl, same⟩
    | exact ⟨rfl, same.begin c⟩
    | exact ⟨rfl, same.addName c⟩
    | exact ⟨rfl, same.addValue c⟩

end SameDraft

/-- The place in a tag does not depend on what has been read of the tag. -/
theorem fst_tagStep (place : TagPlace) (draft other : TagDraft) (c : Char) :
    (tagStep place draft c).1 = (tagStep place other c).1 := by
  cases place <;> simp only [tagStep, openName] <;> split_ifs <;> rfl

theorem readTag_reference {place : TagPlace} (quoted : place.isQuoted = true) (name : String)
    (draft : TagDraft) (rest : List Char) :
    readTag name place draft ('&' :: '#' :: '1' :: '0' :: ';' :: rest) =
      readTag name place ("&#10;".toList.foldl TagDraft.addValue draft) rest := by
  cases place with
  | quoted quote =>
      have marks : quote = '"' ∨ quote = '\'' := by simpa [TagPlace.isQuoted] using quoted
      rcases marks with rfl | rfl <;> simp [readTag, tagStep, TagPlace.closes]
  | _ => cases quoted

namespace Folds

variable {text folded : List Char}

theorem readTag (folds : Folds text folded) (name : String) {place : TagPlace}
    {draft other : TagDraft} (same : SameDraft draft other)
    (feeds : feedsQuoted place text = true) :
    Option.Rel (fun read readFolded => read.1 = readFolded.1 ∧ Folds read.2 readFolded.2)
      (Html.readTag name place draft text) (Html.readTag name place other folded) := by
  induction folds generalizing place draft other with
  | nil => exact .none
  | @cons c text folded rest ih =>
      rw [feedsQuoted, Bool.or_eq_true, Bool.and_eq_true, Bool.and_eq_true] at feeds
      rw [Html.readTag, Html.readTag]
      split
      · exact .some ⟨by rw [same.attributes], rest⟩
      · next closing =>
          have behind := feeds.resolve_left (by simpa using closing)
          obtain ⟨place', next⟩ := same.tagStep place c
          rw [fst_tagStep place .empty draft c] at behind
          have read := ih next behind.2
          generalize tagStep place draft c = step at place' read
          generalize tagStep place other c = stepFolded at place' read
          obtain ⟨place, draft⟩ := step
          obtain ⟨_, other⟩ := stepFolded
          obtain rfl : place = _ := place'
          exact read
  | @feed text folded rest ih =>
      obtain ⟨quoted, behind⟩ : place.isQuoted = true ∧
          feedsQuoted (tagStep place .empty '\n').1 text = true := by
        simpa [feedsQuoted] using feeds
      rw [readTag_reference quoted, Html.readTag, if_neg (by simp)]
      have next := same.addFeed
      cases place with
      | quoted quote =>
          have other : '\n' ≠ quote := by
            rintro rfl
            cases quoted
          simp only [tagStep, if_neg other] at behind ⊢
          exact ih next behind
      | _ => cases quoted

/-- The tags of both texts are the same. -/
theorem readNamedTag (folds : Folds text folded)
    (feeds : feedsQuoted .beforeName (behindName text) = true) :
    Option.Rel (fun read readFolded => read.1 = readFolded.1 ∧ Folds read.2 readFolded.2)
      (Html.readNamedTag text) (Html.readNamedTag folded) := by
  obtain ⟨name, rest, rfl, letters, ends⟩ := exists_name text
  have plain : '\n' ∉ name := fun member => absurd (letters _ member) (by decide)
  obtain ⟨after, rfl, behind⟩ := folds.front_inv plain
  rw [behindName_append letters ends] at feeds
  have first : after.head? = rest.head? := by
    cases behind with
    | nil => rfl
    | cons c _ => rfl
    | feed _ => cases feeds
  have endsFolded : ∀ c ∈ after.head?, endsTagName c = true := first ▸ ends
  rw [Html.readNamedTag, Html.readNamedTag, takeWhile_name letters ends,
    takeWhile_name letters endsFolded, List.drop_left, List.drop_left]
  exact behind.readTag _ (.refl _) feeds

end Folds

/-! ## Keywords -/

section

variable {keyword : String} {text taken rest : List Char}

theorem dropKeyword?_eq_some_iff : dropKeyword? keyword text = some rest ↔
    ∃ taken, text = taken ++ rest ∧ taken.map Char.toLower = keyword.toList := by
  have length : keyword.toList.length = keyword.length := String.length_toList
  rw [dropKeyword?]
  constructor
  · intro found
    split at found
    · next same =>
        cases found
        exact ⟨text.take keyword.length, (List.take_append_drop _ _).symm, same⟩
    · cases found
  · rintro ⟨taken, rfl, same⟩
    have long : taken.length = keyword.length := by rw [← length, ← same, List.length_map]
    rw [← long, List.take_left, List.drop_left, if_pos same]

theorem not_mem_of_map_toLower (same : taken.map Char.toLower = keyword.toList) {c : Char}
    (caseless : c.toLower = c) (absent : c ∉ keyword.toList) : c ∉ taken := by
  intro member
  have inside := List.mem_map_of_mem (f := Char.toLower) member
  rw [caseless, same] at inside
  exact absent inside

theorem startsWithName_iff : startsWithName keyword text = true ↔
    ∃ taken c rest, text = taken ++ c :: rest ∧ taken.map Char.toLower = keyword.toList ∧
      endsTagName c = true := by
  rw [startsWithName]
  constructor
  · intro starts
    split at starts
    · next c rest found =>
        obtain ⟨taken, rfl, same⟩ := dropKeyword?_eq_some_iff.mp found
        exact ⟨taken, c, rest, rfl, same, starts⟩
    · cases starts
  · rintro ⟨taken, c, rest, rfl, same, ends⟩
    rw [dropKeyword?_eq_some_iff.mpr ⟨taken, rfl, same⟩]
    exact ends

end

namespace Folds

variable {text folded : List Char} {keyword : String}

section

variable (folds : Folds text folded)
  (apart : '\n' ∉ keyword.toList ∧ '&' ∉ keyword.toList)

include folds apart

theorem dropKeyword? :
    Option.Rel (Cut text folded) (Html.dropKeyword? keyword text)
      (Html.dropKeyword? keyword folded) := by
  cases found : Html.dropKeyword? keyword text with
  | some rest =>
      obtain ⟨taken, rfl, same⟩ := dropKeyword?_eq_some_iff.mp found
      obtain ⟨after, rfl, behind⟩ :=
        folds.front_inv (not_mem_of_map_toLower same (by decide) apart.1)
      rw [dropKeyword?_eq_some_iff.mpr ⟨taken, rfl, same⟩]
      exact .some ⟨taken, rfl, rfl, behind⟩
  | none =>
      cases other : Html.dropKeyword? keyword folded with
      | none => exact .none
      | some after =>
          obtain ⟨taken, rfl, same⟩ := dropKeyword?_eq_some_iff.mp other
          obtain ⟨rest, rfl, -⟩ :=
            folds.front_inv_folded (not_mem_of_map_toLower same (by decide) apart.2)
          rw [dropKeyword?_eq_some_iff.mpr ⟨taken, rfl, same⟩] at found
          cases found

theorem startsWithName_of_folded (starts : Html.startsWithName keyword folded = true) :
    Html.startsWithName keyword text = true := by
  obtain ⟨taken, c, after, rfl, same, ends⟩ := startsWithName_iff.mp starts
  obtain ⟨rest, rfl, behind⟩ :=
    folds.front_inv_folded (not_mem_of_map_toLower same (by decide) apart.2)
  refine startsWithName_iff.mpr ⟨taken, c, ?_⟩
  cases behind with
  | cons c behind => exact ⟨_, rfl, same, ends⟩
  | feed _ => exact absurd ends (by decide)

/-- A name is found in the folded text unless a line feed stands behind it. -/
theorem startsWithName_folded (starts : Html.startsWithName keyword text = true)
    (inside : ∀ taken rest, text = taken ++ '\n' :: rest →
      taken.map Char.toLower ≠ keyword.toList) :
    Html.startsWithName keyword folded = true := by
  obtain ⟨taken, c, rest, rfl, same, ends⟩ := startsWithName_iff.mp starts
  obtain ⟨after, rfl, behind⟩ :=
    folds.front_inv (not_mem_of_map_toLower same (by decide) apart.1)
  have other : c ≠ '\n' := by
    rintro rfl
    exact inside taken rest rfl same
  obtain ⟨others, rfl, -⟩ := behind.cons_inv other
  exact startsWithName_iff.mpr ⟨taken, c, others, rfl, same, ends⟩

end

end Folds

/-! ## Comments and document types -/

theorem exists_splitComment {text content rest : List Char}
    (split : splitComment text = some (content, rest)) :
    ∃ ending, text = content ++ (ending ++ rest) := by
  fun_induction splitComment text generalizing content with
  | case1 => cases split
  | case2 rest =>
      cases split
      exact ⟨['-', '-', '>'], rfl⟩
  | case3 rest =>
      cases split
      exact ⟨['-', '-', '!', '>'], rfl⟩
  | case4 c text _ _ ih =>
      obtain ⟨⟨others, behind⟩, found, same⟩ := Option.map_eq_some_iff.mp split
      cases same
      obtain ⟨ending, rfl⟩ := ih found
      exact ⟨ending, rfl⟩

namespace Folds

variable {text folded content rest : List Char}

theorem splitComment (folds : Folds text folded)
    (split : Html.splitComment text = some (content, rest)) (plain : '\n' ∉ content) :
    ∃ after, Html.splitComment folded = some (content, after) ∧ Cut text folded rest after := by
  fun_induction Html.splitComment text generalizing folded content with
  | case1 => cases split
  | case2 rest =>
      cases split
      obtain ⟨after, rfl, behind⟩ := @front_inv _ ['-', '-', '>'] _ folds (by decide)
      exact ⟨after, rfl, _, rfl, rfl, behind⟩
  | case3 rest =>
      cases split
      obtain ⟨after, rfl, behind⟩ := @front_inv _ ['-', '-', '!', '>'] _ folds (by decide)
      exact ⟨after, rfl, _, rfl, rfl, behind⟩
  | case4 c text closed closedLate ih =>
      obtain ⟨⟨others, behind⟩, found, same⟩ := Option.map_eq_some_iff.mp split
      cases same
      rw [List.mem_cons, not_or] at plain
      obtain ⟨folded, rfl, later⟩ := folds.cons_inv (Ne.symm plain.1)
      obtain ⟨after, next, cut⟩ := ih later found plain.2
      refine ⟨after, ?_, (Cut.cons c later).trans cut⟩
      rw [Html.splitComment, next]
      · rfl
      · rintro rest rfl rfl
        obtain ⟨other, rfl, -⟩ := @front_inv_folded _ ['-', '>'] _ later (by decide)
        exact closed other rfl rfl
      · rintro rest rfl rfl
        obtain ⟨other, rfl, -⟩ := @front_inv_folded _ ['-', '!', '>'] _ later (by decide)
        exact closedLate other rfl rfl

/-- What a reader takes off the front of a text has no line feeds. -/
def TakesPlain {α : Type} (read : List Char → α × List Char) (text : List Char) : Prop :=
  ∀ taken, text = taken ++ (read text).2 → '\n' ∉ taken

/-- Readers that go to the end of a text without line feeds. -/
theorem sameRead_of_all {α : Type} {read : List Char → α × List Char} (folds : Folds text folded)
    (all : (read text).2 = []) (plain : TakesPlain read text) :
    SameRead text folded (read text) (read folded) := by
  have whole : text = text ++ (read text).2 := by rw [all, List.append_nil]
  obtain rfl := folds.eq_of_not_mem (plain text whole)
  exact ⟨rfl, folded, whole, whole, .refl _⟩

theorem readComment_eq (first : ∀ rest, text ≠ '>' :: rest)
    (second : ∀ rest, text ≠ '-' :: '>' :: rest) :
    Html.readComment text =
      match Html.splitComment text with
      | some (content, rest) => (commentToken content, rest)
      | none => (commentToken (unfinishedComment text), []) := by
  unfold Html.readComment
  split
  · exact absurd rfl (first _)
  · exact absurd rfl (second _)
  · rfl

theorem readComment (folds : Folds text folded) (plain : TakesPlain Html.readComment text) :
    SameRead text folded (Html.readComment text) (Html.readComment folded) := by
  by_cases first : ∃ rest, text = '>' :: rest
  · obtain ⟨rest, rfl⟩ := first
    obtain ⟨after, rfl, behind⟩ := @front_inv _ ['>'] _ folds (by decide)
    exact ⟨rfl, .cons '>' behind⟩
  by_cases second : ∃ rest, text = '-' :: '>' :: rest
  · obtain ⟨rest, rfl⟩ := second
    obtain ⟨after, rfl, behind⟩ := @front_inv _ ['-', '>'] _ folds (by decide)
    exact ⟨rfl, ['-', '>'], rfl, rfl, behind⟩
  rw [not_exists] at first second
  have read := readComment_eq first second
  cases split : Html.splitComment text with
  | none =>
      rw [split] at read
      exact folds.sameRead_of_all (by rw [read]) plain
  | some parts =>
      obtain ⟨content, rest⟩ := parts
      rw [split] at read
      obtain ⟨ending, whole⟩ := exists_splitComment split
      have absent : '\n' ∉ content ++ ending := plain _ (by rw [read, List.append_assoc, ← whole])
      rw [List.mem_append, not_or] at absent
      obtain ⟨after, splitFolded, cut⟩ := folds.splitComment split absent.1
      have firstFolded : ∀ rest, folded ≠ '>' :: rest := by
        rintro after rfl
        obtain ⟨rest, same, -⟩ := @front_inv_folded _ ['>'] _ folds (by decide)
        exact first rest same
      have secondFolded : ∀ rest, folded ≠ '-' :: '>' :: rest := by
        rintro after rfl
        obtain ⟨rest, same, -⟩ := @front_inv_folded _ ['-', '>'] _ folds (by decide)
        exact second rest same
      have readFolded := readComment_eq firstFolded secondFolded
      rw [splitFolded] at readFolded
      rw [read, readFolded]
      exact ⟨rfl, cut⟩

/-- A reader that looks at a text only up to the next closing sign. -/
theorem sameRead_of_closed {α : Type} {read : List Char → α × List Char} (folds : Folds text folded)
    (closed : ∀ content, '>' ∉ content →
      ∃ value, ∀ rest, read (content ++ '>' :: rest) = (value, rest))
    (unclosed : '>' ∉ text → (read text).2 = []) (plain : TakesPlain read text) :
    SameRead text folded (read text) (read folded) := by
  by_cases ends : '>' ∈ text
  · obtain ⟨content, rest, rfl, absent⟩ := List.eq_append_cons_of_mem ends
    obtain ⟨value, reads⟩ := closed content absent
    have split : content ++ '>' :: rest = content ++ ['>'] ++ rest := by simp
    obtain ⟨after, rfl, behind⟩ :=
      (split ▸ folds).front_inv (plain _ (by rw [reads, split]))
    have splitFolded : content ++ ['>'] ++ after = content ++ '>' :: after := by simp
    rw [splitFolded, reads, reads]
    exact ⟨rfl, content ++ ['>'], split, splitFolded.symm, behind⟩
  · exact folds.sameRead_of_all (unclosed ends) plain

theorem takeWhile_closed {content : List Char} (absent : '>' ∉ content) (rest : List Char) :
    (content ++ '>' :: rest).takeWhile (· != '>') = content := by
  rw [List.takeWhile_append_of_pos]
  · simp
  · intro c member
    simpa using ne_of_mem_of_not_mem member absent

theorem takeWhile_unclosed (absent : '>' ∉ text) : text.takeWhile (· != '>') = text := by
  rw [List.takeWhile_eq_self_iff]
  intro c member
  simpa using ne_of_mem_of_not_mem member absent

theorem readStrayComment (folds : Folds text folded)
    (plain : TakesPlain Html.readStrayComment text) :
    SameRead text folded (Html.readStrayComment text) (Html.readStrayComment folded) := by
  refine folds.sameRead_of_closed (fun content absent => ⟨commentToken content, fun rest => ?_⟩)
    (fun absent => ?_) plain
  · simp [Html.readStrayComment, takeWhile_closed absent]
  · simp [Html.readStrayComment, takeWhile_unclosed absent]

theorem readDoctype (folds : Folds text folded) (plain : TakesPlain Html.readDoctype text) :
    SameRead text folded (Html.readDoctype text) (Html.readDoctype folded) := by
  refine folds.sameRead_of_closed
    (fun content absent => ⟨(Html.readDoctype (content ++ ['>'])).1, fun rest => ?_⟩)
    (fun absent => ?_) plain
  · simp [Html.readDoctype, takeWhile_closed absent]
  · simp [Html.readDoctype, takeWhile_unclosed absent]

end Folds

/-! ## Scripts -/

theorem splitScript_skip (front rest : List Char) (depth : ScriptDepth) :
    splitScript front.length depth (front ++ rest) =
      (front ++ (splitScript 0 depth rest).1, (splitScript 0 depth rest).2) := by
  induction front with
  | nil => rfl
  | cons c front ih => rw [List.length_cons, List.cons_append, splitScript, ih, List.cons_append]

namespace Folds

variable {text folded content rest : List Char}

/-- A name that a change of depth takes with the character behind it. -/
theorem startsWithName_skipped (folds : Folds text folded) {keyword : String} {skipped : Nat}
    (apart : '\n' ∉ keyword.toList ∧ '&' ∉ keyword.toList) (long : keyword.length + 1 = skipped)
    {depth : ScriptDepth} (plain : Html.startsWithName keyword text = true →
      '\n' ∉ (Html.splitScript skipped depth text).1) :
    Html.startsWithName keyword folded = Html.startsWithName keyword text := by
  rw [Bool.eq_iff_iff]
  refine ⟨folds.startsWithName_of_folded apart, fun starts => ?_⟩
  refine folds.startsWithName_folded apart starts fun front rest split same => ?_
  have length : (front ++ ['\n']).length = skipped := by
    rw [← long, ← String.length_toList, ← same]
    simp
  have whole : text = front ++ ['\n'] ++ rest := by simpa using split
  have inside := plain starts
  rw [whole, ← length, splitScript_skip] at inside
  simp at inside

theorem jump? (folds : Folds text folded) (depth : ScriptDepth)
    (plain : ∀ skipped next, depth.jump? text = some (skipped, next) →
      '\n' ∉ (Html.splitScript skipped next text).1) :
    depth.jump? folded = depth.jump? text := by
  cases depth with
  | plain =>
      have found := @dropKeyword? _ _ "!--" folds (by decide)
      rw [ScriptDepth.jump?, ScriptDepth.jump?]
      generalize Html.dropKeyword? "!--" text = one at found ⊢
      generalize Html.dropKeyword? "!--" folded = two at found ⊢
      cases found <;> rfl
  | inComment dashes =>
      have same := @startsWithName_skipped _ _ folds "script" 7 (by decide) rfl (.inInner 0)
        fun starts => plain 7 (.inInner 0) (by rw [ScriptDepth.jump?, if_pos starts])
      rw [ScriptDepth.jump?, ScriptDepth.jump?, same]
  | inInner dashes =>
      have same := @startsWithName_skipped _ _ folds "/script" 8 (by decide) rfl (.inComment 0)
        fun starts => plain 8 (.inComment 0) (by rw [ScriptDepth.jump?, if_pos starts])
      rw [ScriptDepth.jump?, ScriptDepth.jump?, same]

theorem splitScript (folds : Folds text folded) {skipped : Nat} {depth : ScriptDepth}
    (split : Html.splitScript skipped depth text = (content, rest)) (plain : '\n' ∉ content)
    (later : '\n' ∉ rest.takeWhile (· != '>')) :
    ∃ after, Html.splitScript skipped depth folded = (content, after) ∧
      Cut text folded rest after := by
  fun_induction Html.splitScript skipped depth text generalizing folded content with
  | case1 =>
      cases folds
      cases split
      exact ⟨[], by rw [Html.splitScript], .whole .nil⟩
  | case2 skipped depth c text _ _ found ih =>
      cases split
      rw [List.mem_cons, not_or] at plain
      obtain ⟨folded, rfl, behind⟩ := folds.cons_inv (Ne.symm plain.1)
      obtain ⟨after, next, cut⟩ := ih behind found plain.2
      exact ⟨after, by rw [Html.splitScript, next], (Cut.cons c behind).trans cut⟩
  | case3 depth text ends =>
      cases split
      obtain ⟨folded, rfl, behind⟩ := folds.cons_inv (by decide)
      rw [Bool.and_eq_true] at ends
      have named : Html.startsWithName "/script" folded = true := by
        refine behind.startsWithName_folded (by decide) ends.2 fun taken rest split same => ?_
        have unclosed : ∀ c ∈ '<' :: taken, (c != '>') = true := by
          refine List.forall_mem_cons.mpr ⟨by decide, fun c member => ?_⟩
          have absent : '>' ∉ taken := not_mem_of_map_toLower same (by decide) (by decide)
          simpa using ne_of_mem_of_not_mem member absent
        rw [split, ← List.cons_append, List.takeWhile_append_of_pos unclosed] at later
        simp at later
      exact ⟨'<' :: folded, by rw [Html.splitScript, if_pos rfl, ends.1, named]; rfl, .whole folds⟩
  | case4 depth text inside skipped next _ _ found jump ih =>
      -- No line feed is skipped in a change of depth, so both texts change it alike.
      cases split
      rw [List.mem_cons, not_or] at plain
      obtain ⟨folded, rfl, behind⟩ := folds.cons_inv (by decide)
      obtain ⟨after, later, cut⟩ := ih behind found plain.2
      have insideFolded : ¬(depth.seesEnd && Html.startsWithName "/script" folded) = true := by
        rw [Bool.and_eq_true, not_and] at inside ⊢
        exact fun sees starts => inside sees (behind.startsWithName_of_folded (by decide) starts)
      have jumps : depth.jump? folded = depth.jump? text := by
        refine behind.jump? depth fun _ _ here => ?_
        rw [here] at jump
        cases jump
        rw [found]
        exact plain.2
      refine ⟨after, ?_, (Cut.cons '<' behind).trans cut⟩
      rw [Html.splitScript, if_pos rfl, if_neg insideFolded, jumps, jump]
      dsimp only
      rw [later]
  | case5 depth c text other _ _ found ih =>
      cases split
      rw [List.mem_cons, not_or] at plain
      obtain ⟨folded, rfl, behind⟩ := folds.cons_inv (Ne.symm plain.1)
      obtain ⟨after, next, cut⟩ := ih behind found plain.2
      exact ⟨after, by rw [Html.splitScript, if_neg other, next], (Cut.cons c behind).trans cut⟩

end Folds

end Bindery.Html
