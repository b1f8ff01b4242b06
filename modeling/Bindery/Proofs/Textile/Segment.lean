import Bindery.Proofs.Textile.Passthrough

/-!
# Spans and what stands around them

A text is cut from the left into spans and the characters outside them. Taking spans
out, and the contents of all spans, can be read off the segments. Line endings are
written alike in each segment on its own.
-/

set_option autoImplicit false

namespace Bindery.Textile

/-- A character outside all spans, or a span with its content. -/
inductive Segment where
  | plain (c : Char)
  | span (content : List Char)
  deriving Repr, DecidableEq

/-- The segments of a text. The number counts the characters of the last span that are
still to come. -/
def segmentsAfter : Nat → List Char → List Segment
  | _, [] => []
  | taken + 1, _ :: rest => segmentsAfter taken rest
  | 0, c :: rest =>
      match span? (c :: rest) with
      | some (content, length) => .span content :: segmentsAfter (length - 1) rest
      | none => .plain c :: segmentsAfter 0 rest

def segments (text : List Char) : List Segment := segmentsAfter 0 text

/-- A span as it is written. -/
def written (content : List Char) : List Char := spanOpening ++ (content ++ spanClosing)

def Segment.source : Segment → List Char
  | .plain c => [c]
  | .span content => written content

def source (segments : List Segment) : List Char := segments.flatMap Segment.source

def Segment.content? : Segment → Option (List Char)
  | .plain _ => none
  | .span content => some content

/-- A segment without the content of the span, if it is one. -/
def Segment.outside? : Segment → Option Char
  | .plain c => some c
  | .span _ => none

/-- Segments with a stand-in for each span, numbered from the index on. -/
def numbered : Nat → List Segment → List Char
  | _, [] => []
  | index, .plain c :: rest => c :: numbered index rest
  | index, .span _ :: rest => standIn index ++ numbered (index + 1) rest

section

variable {text tail content : List Char}

theorem segmentsAfter_eq_drop (taken : Nat) (text : List Char) :
    segmentsAfter taken text = segments (text.drop taken) := by
  induction text generalizing taken with
  | nil =>
      rw [List.drop_nil]
      cases taken <;> rfl
  | cons c rest ih =>
      cases taken with
      | zero => rfl
      | succ taken => exact ih taken

theorem spansAfter_eq (taken : Nat) (text : List Char) :
    spansAfter taken text = (segmentsAfter taken text).filterMap Segment.content? := by
  induction text generalizing taken with
  | nil => cases taken <;> rfl
  | cons c rest ih =>
      cases taken with
      | succ taken => exact ih taken
      | zero =>
          rw [spansAfter, segmentsAfter]
          cases span? (c :: rest) with
          | none => exact ih 0
          | some span => exact congrArg (span.1 :: ·) (ih _)

theorem liftAfter_eq (taken index : Nat) (text : List Char) :
    liftAfter taken index text = numbered index (segmentsAfter taken text) := by
  induction text generalizing taken index with
  | nil => cases taken <;> rfl
  | cons c rest ih =>
      cases taken with
      | succ taken => exact ih taken index
      | zero =>
          rw [liftAfter, segmentsAfter]
          cases span? (c :: rest) with
          | none => exact congrArg (c :: ·) (ih 0 index)
          | some span => exact congrArg (standIn index ++ ·) (ih _ _)

theorem segments_plain {c : Char} {rest : List Char} (unspanned : span? (c :: rest) = none) :
    segments (c :: rest) = .plain c :: segments rest := by
  rw [segments, segmentsAfter, unspanned]
  rfl

theorem span?_written (first : ¬ spanClosing <:+: content) (rest : List Char) :
    span? (written content ++ rest) = some (content, (written content).length) := by
  have found : splitAt? spanClosing (content ++ (spanClosing ++ rest)) = some (content, rest) :=
    splitAt?_first (by decide) first
  rw [written, List.append_assoc, List.append_assoc, span?_opened, found]
  simp only [Option.map_some, List.length_append, Nat.add_assoc]

theorem segments_written (first : ¬ spanClosing <:+: content) (rest : List Char) :
    segments (written content ++ rest) = .span content :: segments rest := by
  have spanned := span?_written first rest
  have start : written content ++ rest = '<' :: (written content).tail ++ rest := rfl
  rw [start, List.cons_append] at spanned ⊢
  rw [segments, segmentsAfter, spanned]
  dsimp only
  rw [segmentsAfter_eq_drop, ← List.length_tail, List.drop_left]

theorem eq_written_of_span? {length : Nat} (spanned : span? text = some (content, length)) :
    ¬ spanClosing <:+: content ∧ ∃ rest, text = written content ++ rest := by
  obtain ⟨inside, opened, found⟩ := Option.bind_eq_some_iff.mp spanned
  obtain ⟨⟨before, rest⟩, split, same⟩ := Option.bind_eq_some_iff.mp found
  obtain ⟨rfl, -⟩ := Prod.mk.inj (Option.some.inj same)
  have whole := splitAt?_eq_append split
  have first : (splitAt? spanClosing (before ++ (spanClosing ++ rest))).map Prod.fst =
      some before := by
    rw [← whole, split]
    rfl
  refine ⟨(splitAt?_first_iff (by decide)).mp first, rest, ?_⟩
  rw [Text.dropStart?_eq_some_iff.mp opened, whole, written, List.append_assoc, List.append_assoc]

/-- A text is empty, or it begins with a character outside spans or with a span. -/
theorem segments_induction {motive : List Char → Prop} (nil : motive [])
    (plain : ∀ c rest, span? (c :: rest) = none → motive rest → motive (c :: rest))
    (span : ∀ content rest, ¬ spanClosing <:+: content → motive rest →
      motive (written content ++ rest)) (text : List Char) : motive text := by
  induction length : text.length using Nat.strong_induction_on generalizing text with
  | _ length ih =>
      subst length
      cases text with
      | nil => exact nil
      | cons c rest =>
          cases spanned : span? (c :: rest) with
          | none => exact plain c rest spanned (ih _ (Nat.lt_succ_self _) rest rfl)
          | some found =>
              obtain ⟨first, behind, whole⟩ := eq_written_of_span? spanned
              rw [whole]
              refine span _ behind first (ih _ ?_ behind rfl)
              rw [whole, List.length_append, written, List.length_append]
              have positive : 0 < spanOpening.length := by decide
              omega

theorem source_segments (text : List Char) : source (segments text) = text := by
  induction text using segments_induction with
  | nil => rfl
  | plain c rest unspanned ih =>
      rw [segments_plain unspanned]
      exact congrArg (c :: ·) ih
  | span content rest first ih =>
      rw [segments_written first]
      exact congrArg (written content ++ ·) ih

theorem span?_eq_none_of_append (unspanned : span? (text ++ tail) = none) : span? text = none := by
  cases spanned : span? text with
  | none => rfl
  | some span =>
      obtain ⟨first, rest, rfl⟩ := eq_written_of_span? spanned
      rw [List.append_assoc, span?_written first] at unspanned
      cases unspanned

theorem source_append (before after : List Segment) :
    source (before ++ after) = source before ++ source after := List.flatMap_append

/-- Each part of the segments is what its own source is cut into. -/
theorem segments_source {before after : List Segment} (cut : segments text = before ++ after) :
    segments (source before) = before ∧ segments (source after) = after := by
  have all : ∀ {text}, segments text = after → segments (source after) = after := by
    rintro text rfl
    rw [source_segments]
  induction text using segments_induction generalizing before with
  | nil =>
      obtain ⟨rfl, rfl⟩ := List.append_eq_nil_iff.mp cut.symm
      exact ⟨rfl, rfl⟩
  | plain c rest unspanned ih =>
      cases before with
      | nil => exact ⟨rfl, all cut⟩
      | cons first before =>
          rw [segments_plain unspanned] at cut
          obtain ⟨rfl, others⟩ := List.cons.inj cut
          change segments rest = before ++ after at others
          obtain ⟨earlier, later⟩ := ih others
          refine ⟨?_, later⟩
          rw [← source_segments rest, others, source_append, ← List.cons_append] at unspanned
          exact (segments_plain (span?_eq_none_of_append unspanned)).trans
            (congrArg (.plain c :: ·) earlier)
  | span content rest first ih =>
      cases before with
      | nil => exact ⟨rfl, all cut⟩
      | cons segment before =>
          rw [segments_written first] at cut
          obtain ⟨rfl, others⟩ := List.cons.inj cut
          obtain ⟨earlier, later⟩ := ih others
          exact ⟨(segments_written first _).trans (congrArg (.span content :: ·) earlier), later⟩

/-- No character of a text occurs in the tags of a span. -/
def Foreign (text : List Char) : Prop := ∀ c ∈ text, c ∉ spanOpening ∧ c ∉ spanClosing

theorem prefix_of_foreign {mark : List Char} (foreign : ∀ c ∈ tail, c ∉ mark)
    (starts : mark <+: text ++ tail) : mark <+: text := by
  cases tail with
  | nil => rwa [List.append_nil] at starts
  | cons c tail => exact Text.prefix_of_prefix_append_cons (foreign c List.mem_cons_self) starts

theorem infix_of_foreign {mark : List Char} (nonempty : mark ≠ []) (foreign : ∀ c ∈ tail, c ∉ mark)
    (inside : mark <:+: text ++ tail) : mark <:+: text := by
  cases tail with
  | nil => rwa [List.append_nil] at inside
  | cons c tail =>
      refine ((Text.infix_append_cons_iff (foreign c List.mem_cons_self)).mp inside).resolve_right
        fun later => ?_
      obtain ⟨d, member⟩ := List.exists_mem_of_ne_nil mark nonempty
      exact foreign d (List.mem_cons_of_mem c (later.subset member)) member

theorem span?_ne_none_of_closed {inside : List Char} (closes : spanClosing <:+: inside) :
    span? (spanOpening ++ inside) ≠ none := by
  rw [span?_opened, ne_eq, Option.map_eq_none_iff]
  exact Option.isSome_iff_ne_none.mp (splitAt?_isSome (by decide) closes)

theorem span?_append_foreign (foreign : Foreign tail) (unspanned : span? text = none) :
    span? (text ++ tail) = none := by
  cases spanned : span? (text ++ tail) with
  | none => rfl
  | some span =>
      obtain ⟨-, rest, whole⟩ := eq_written_of_span? spanned
      rw [written, List.append_assoc] at whole
      have starts : spanOpening <+: text :=
        prefix_of_foreign (fun c member => (foreign c member).1) ⟨_, whole.symm⟩
      obtain ⟨inside, rfl⟩ := starts
      rw [List.append_assoc, List.append_cancel_left_eq] at whole
      have closes : spanClosing <:+: inside := by
        refine infix_of_foreign (by decide) (fun c member => (foreign c member).2) ?_
        rw [whole]
        exact ⟨span.1, rest, rfl⟩
      exact absurd unspanned (span?_ne_none_of_closed closes)

theorem not_mem_of_foreign (foreign : Foreign text) : '<' ∉ text :=
  fun member => (foreign '<' member).1 (by decide)

theorem segments_append_of_not_mem (absent : '<' ∉ text) (rest : List Char) :
    segments (text ++ rest) = text.map .plain ++ segments rest := by
  induction text with
  | nil => rfl
  | cons c text ih =>
      rw [List.mem_cons, not_or] at absent
      have unopened : ¬ spanOpening <+: c :: (text ++ rest) := fun starts =>
        absent.1 (List.cons_prefix_cons.mp starts).1
      rw [List.cons_append, segments_plain (span?_eq_none unopened), ih absent.2]
      rfl

theorem segments_append_foreign (foreign : Foreign tail) :
    segments (text ++ tail) = segments text ++ tail.map .plain := by
  induction text using segments_induction with
  | nil =>
      have alone := segments_append_of_not_mem (not_mem_of_foreign foreign) []
      rwa [List.append_nil, show segments [] = [] from rfl, List.append_nil] at alone
  | plain c rest unspanned ih =>
      have longer : span? (c :: (rest ++ tail)) = none := span?_append_foreign foreign unspanned
      rw [List.cons_append, segments_plain longer, ih, segments_plain unspanned, List.cons_append]
  | span content rest first ih =>
      rw [List.append_assoc, segments_written first, ih, segments_written first, List.cons_append]

/-! ## Line endings -/

/-- Segments with each line ending of a carriage return and a line feed as a line feed alone. -/
def unixSegments : List Segment → List Segment
  | [] => []
  | .plain '\r' :: .plain '\n' :: rest => .plain '\n' :: unixSegments rest
  | .plain c :: rest => .plain c :: unixSegments rest
  | .span content :: rest => .span (Text.unixEndings content) :: unixSegments rest

theorem prefix_of_unixEndings {mark : List Char} (oneLine : '\n' ∉ mark)
    (starts : mark <+: Text.unixEndings text) : mark <+: text := by
  fun_induction Text.unixEndings text generalizing mark with
  | case1 => exact starts
  | case2 rest ih =>
      cases mark with
      | nil => exact List.nil_prefix
      | cons c mark =>
          exact absurd ((List.cons_prefix_cons.mp starts).1 ▸ List.mem_cons_self) oneLine
  | case3 c rest alone ih =>
      cases mark with
      | nil => exact List.nil_prefix
      | cons d mark =>
          obtain ⟨rfl, later⟩ := List.cons_prefix_cons.mp starts
          rw [List.mem_cons, not_or] at oneLine
          exact List.cons_prefix_cons.mpr ⟨rfl, ih oneLine.2 later⟩

/-- What stands on one line stood there before line endings were changed. -/
theorem infix_of_unixEndings {mark : List Char} (oneLine : '\n' ∉ mark)
    (inside : mark <:+: Text.unixEndings text) : mark <:+: text := by
  fun_induction Text.unixEndings text with
  | case1 => exact inside
  | case2 rest ih =>
      rcases List.infix_cons_iff.mp inside with starts | later
      · cases mark with
        | nil => exact List.nil_infix
        | cons c mark =>
            exact absurd ((List.cons_prefix_cons.mp starts).1 ▸ List.mem_cons_self) oneLine
      · exact List.infix_cons (List.infix_cons (ih later))
  | case3 c rest alone ih =>
      rcases List.infix_cons_iff.mp inside with starts | later
      · cases mark with
        | nil => exact List.nil_infix
        | cons d mark =>
            obtain ⟨rfl, onward⟩ := List.cons_prefix_cons.mp starts
            rw [List.mem_cons, not_or] at oneLine
            exact (List.cons_prefix_cons.mpr ⟨rfl, prefix_of_unixEndings oneLine.2 onward⟩).isInfix
      · exact List.infix_cons (ih later)

theorem unixEndings_written (content rest : List Char) :
    Text.unixEndings (written content ++ rest) =
      written (Text.unixEndings content) ++ Text.unixEndings rest := by
  have opening : Text.unixEndings spanOpening = spanOpening := by decide
  have closing : Text.unixEndings spanClosing = spanClosing := by decide
  have behind : (spanClosing ++ rest).head? ≠ some '\n' :=
    fun feed => absurd (Option.some.inj feed) (by decide)
  rw [written, List.append_assoc, List.append_assoc, Text.unixEndings_append (.inl (by decide)),
    Text.unixEndings_append (.inr behind), Text.unixEndings_append (.inl (by decide)), opening,
    closing, written, List.append_assoc, List.append_assoc]

theorem span?_unixEndings (unspanned : span? text = none) :
    span? (Text.unixEndings text) = none := by
  cases spanned : span? (Text.unixEndings text) with
  | none => rfl
  | some span =>
      obtain ⟨-, rest, whole⟩ := eq_written_of_span? spanned
      rw [written, List.append_assoc] at whole
      obtain ⟨inside, rfl⟩ := prefix_of_unixEndings (by decide) ⟨_, whole.symm⟩
      have opening : Text.unixEndings spanOpening = spanOpening := by decide
      rw [Text.unixEndings_append (.inl (by decide)), opening, List.append_cancel_left_eq] at whole
      have closes : spanClosing <:+: Text.unixEndings inside := by
        rw [whole]
        exact ⟨span.1, rest, rfl⟩
      exact absurd unspanned (span?_ne_none_of_closed (infix_of_unixEndings (by decide) closes))

theorem head?_of_segments {c : Char} (first : (segments text).head? = some (.plain c)) :
    text.head? = some c := by
  cases text with
  | nil => cases first
  | cons d rest =>
      rw [segments, segmentsAfter] at first
      split at first
      · cases first
      · cases first
        rfl

theorem unixSegments_plain {c : Char} {rest : List Segment}
    (alone : ¬ (c = '\r' ∧ rest.head? = some (.plain '\n'))) :
    unixSegments (.plain c :: rest) = .plain c :: unixSegments rest := by
  rw [unixSegments]
  rintro after rfl rfl
  exact alone ⟨rfl, rfl⟩

/-- No line ending reaches into a span. -/
theorem unixSegments_append_span (before after : List Segment) (content : List Char) :
    unixSegments (before ++ .span content :: after) =
      unixSegments before ++ .span (Text.unixEndings content) :: unixSegments after := by
  fun_induction unixSegments before with
  | case1 => rfl
  | case2 rest ih => exact congrArg (.plain '\n' :: ·) ih
  | case3 c rest alone ih =>
      rw [List.cons_append, unixSegments_plain, ih, List.cons_append]
      rintro ⟨rfl, feed⟩
      cases rest with
      | nil => cases feed
      | cons segment rest =>
          obtain rfl : segment = .plain '\n' := Option.some.inj feed
          exact alone rest rfl rfl
  | case4 content rest ih => exact congrArg (.span (Text.unixEndings content) :: ·) ih

/-- Line endings may be changed before a text is cut or in each segment. -/
theorem segments_unixEndings (text : List Char) :
    segments (Text.unixEndings text) = unixSegments (segments text) := by
  induction text using segments_induction with
  | nil => rfl
  | plain c rest unspanned ih =>
      by_cases ending : c = '\r' ∧ rest.head? = some '\n'
      · obtain ⟨rfl, feed⟩ := ending
        obtain ⟨rest, rfl⟩ := List.head?_eq_some_iff.mp feed
        have absent : '<' ∉ ['\n'] := by decide
        have behind : segments ('\n' :: rest) = .plain '\n' :: segments rest :=
          segments_append_of_not_mem absent rest
        rw [segments_plain unspanned, behind, unixSegments, Text.unixEndings]
        have plain : '\n' ≠ '\r' := by decide
        rw [behind, Text.unixEndings_cons fun same => plain same.1,
          unixSegments_plain fun same => plain same.1] at ih
        exact ih
      · have shorter := span?_unixEndings unspanned
        rw [Text.unixEndings_cons ending] at shorter ⊢
        rw [segments_plain shorter, ih, segments_plain unspanned, unixSegments_plain]
        exact fun same => ending ⟨same.1, head?_of_segments same.2⟩
  | span content rest first ih =>
      have still : ¬ spanClosing <:+: Text.unixEndings content :=
        fun inside => first (infix_of_unixEndings (by decide) inside)
      rw [unixEndings_written, segments_written still, segments_written first, ih, unixSegments]

/-- Two texts that differ at most in what their spans contain. -/
def SameAround (text other : List Char) : Prop :=
  (segments text).map Segment.outside? = (segments other).map Segment.outside?

theorem numbered_of_outside {index : Nat} {first second : List Segment}
    (same : first.map Segment.outside? = second.map Segment.outside?) :
    numbered index first = numbered index second := by
  induction first generalizing index second with
  | nil =>
      cases List.map_eq_nil_iff.mp same.symm
      rfl
  | cons segment first ih =>
      cases second with
      | nil => cases same
      | cons other second =>
          obtain ⟨here, others⟩ := List.cons.inj same
          cases segment with
          | plain c =>
              cases other with
              | plain d =>
                  cases here
                  exact congrArg (c :: ·) (ih others)
              | span content => cases here
          | span content =>
              cases other with
              | plain d => cases here
              | span other => exact congrArg (standIn index ++ ·) (ih others)

/-- A stand-in for each span does not tell what the spans contain. -/
theorem lift_of_sameAround {other : List Char} (same : SameAround text other) :
    lift text = lift other := by
  rw [lift, lift, liftAfter_eq, liftAfter_eq]
  exact numbered_of_outside same

theorem spans_eq (text : List Char) :
    spans text = (segments text).filterMap Segment.content? := spansAfter_eq 0 text

theorem filterMap_unixSegments (all : List Segment) :
    (unixSegments all).filterMap Segment.content? =
      (all.filterMap Segment.content?).map Text.unixEndings := by
  fun_induction unixSegments all with
  | case1 => rfl
  | case2 rest ih => exact ih
  | case3 c rest alone ih => exact ih
  | case4 content rest ih => exact congrArg (Text.unixEndings content :: ·) ih

theorem spans_unixEndings (text : List Char) :
    spans (Text.unixEndings text) = (spans text).map Text.unixEndings := by
  rw [spans_eq, segments_unixEndings, filterMap_unixSegments, spans_eq]

/-- What is left of segments, with the line endings written alike. -/
def unixOutside : List (Option Char) → List (Option Char)
  | [] => []
  | some '\r' :: some '\n' :: rest => some '\n' :: unixOutside rest
  | c :: rest => c :: unixOutside rest

theorem map_outside?_unixSegments (all : List Segment) :
    (unixSegments all).map Segment.outside? = unixOutside (all.map Segment.outside?) := by
  fun_induction unixSegments all with
  | case1 => rfl
  | case2 rest ih => exact congrArg (some '\n' :: ·) ih
  | case3 c rest alone ih =>
      rw [List.map_cons, ih, List.map_cons, unixOutside]
      intro after ending feed
      cases ending
      cases rest with
      | nil => cases feed
      | cons segment rest =>
          obtain ⟨here, -⟩ := List.cons.inj feed
          cases segment with
          | span content => cases here
          | plain d =>
              cases here
              exact alone rest rfl rfl
  | case4 content rest ih => exact congrArg (none :: ·) ih

theorem SameAround.unixEndings {other : List Char} (same : SameAround text other) :
    SameAround (Text.unixEndings text) (Text.unixEndings other) := by
  rw [SameAround, segments_unixEndings, segments_unixEndings, map_outside?_unixSegments,
    map_outside?_unixSegments, same]

end

end Bindery.Textile
