import Bindery.Proofs.Markdown.FootnoteResolution

/-!
# Links back from a definition

Only one open definition is remembered. The end of a definition takes the number of the
definition that was opened last, and after that there is none to take. So a definition
ends with the link back to its own reference exactly if no other definition is inside it.
-/

set_option autoImplicit false

namespace Bindery.Markdown

def Event.opensNote : Event → Bool
  | .start (.footnote _) => true
  | _ => false

def Event.closesNote : Event → Bool
  | .finish (.footnote _) => true
  | _ => false

/-- Starts and ends of definitions match, to any depth. -/
inductive NotesNested : List Event → Prop where
  | nil : NotesNested []
  | other {event : Event} {rest : List Event} : event.opensNote = false →
      event.closesNote = false → NotesNested rest → NotesNested (event :: rest)
  | note {opening closing : Event} {inside rest : List Event} : opening.opensNote = true →
      NotesNested inside → closing.closesNote = true → NotesNested rest →
      NotesNested (opening :: (inside ++ closing :: rest))

/-- No definition starts here. -/
def NoteFree (events : List Event) : Prop := ∀ event ∈ events, event.opensNote = false

/-- An event and what takes its place. -/
abbrev Linked := Event × Event

/-- What is directly in a definition and not in one inside it. The depth counts the definitions that
are open inside, and the end of a definition belongs to it. -/
def directlyIn : Nat → List Linked → List Linked
  | _, [] => []
  | depth, item :: rest =>
      if item.1.opensNote then directlyIn (depth + 1) rest
      else
        let behind := if item.1.closesNote then depth - 1 else depth
        (if depth = 0 then [item] else []) ++ directlyIn behind rest

/-- The end of a definition is written with a link back to the reference of the number. -/
def IsBackLink (item : Linked) (number : Nat) : Prop :=
  item.1.closesNote = true ∧ item.2 = .html (definitionEndHtml (some number))

/-- Of the links back that are written, exactly one is directly in the definition with this content,
and it has the number. -/
def OwnBackLink (number : Nat) (content : List Linked) : Prop :=
  ∃ before item after, directlyIn 0 content = before ++ item :: after ∧ IsBackLink item number ∧
    ∀ other ∈ before ++ after, ∀ wrong, ¬ IsBackLink other wrong

theorem definitionEndHtml_injective : Function.Injective definitionEndHtml := by
  intro left right same
  have bare : ∀ number : Nat, definitionEndHtml none ≠ definitionEndHtml (some number) := by
    intro number same
    have second : some '/' = some 'a' := congrArg (fun html => html.tail.head?) same
    cases second
  cases left with
  | none =>
      cases right with
      | none => rfl
      | some number => exact absurd same (bare number)
  | some number =>
      cases right with
      | none => exact absurd same.symm (bare number)
      | some other =>
          unfold definitionEndHtml at same
          dsimp only at same
          rw [List.append_assoc, List.append_assoc] at same
          rw [toList_toString_injective
            (List.append_cancel_right (List.append_cancel_left same))]

/-! ## Nested definitions -/

theorem closesNote_of_opensNote {event : Event} (opens : event.opensNote = true) :
    event.closesNote = false := by
  cases event <;> first | rfl | cases opens

theorem NotesNested.append {left right : List Event} (first : NotesNested left)
    (second : NotesNested right) : NotesNested (left ++ right) := by
  induction first with
  | nil => exact second
  | other opens closes _ ih => exact .other opens closes ih
  | note opens inside closes _ _ ih =>
      rw [List.cons_append, List.append_assoc, List.cons_append]
      exact .note opens inside closes ih

/-- What starts in nested events ends in them. -/
theorem NotesNested.exists_end {events : List Event} (nested : NotesNested events)
    {before rest : List Event} {opening : Event} (opens : opening.opensNote = true)
    (stands : events = before ++ opening :: rest) :
    ∃ inside closing after, rest = inside ++ closing :: after ∧ NotesNested inside ∧
      closing.closesNote = true := by
  induction nested generalizing before rest with
  | nil => simp at stands
  | @other event others notOpening _ _ ih =>
      rcases List.cons_eq_append_iff.mp stands with ⟨rfl, same⟩ | ⟨earlier, rfl, same⟩
      · obtain ⟨rfl, -⟩ := List.cons.inj same
        rw [opens] at notOpening
        cases notOpening
      · exact ih same
  | @note first closing inside others _ nestedInside closes _ insideEnd ih =>
      have other : closing ≠ opening := by
        rintro rfl
        rw [closesNote_of_opensNote opens] at closes
        cases closes
      rcases List.cons_eq_append_iff.mp stands with ⟨rfl, same⟩ | ⟨earlier, rfl, behind⟩
      · obtain ⟨rfl, rfl⟩ := List.cons.inj same
        exact ⟨inside, closing, others, rfl, nestedInside, closes⟩
      · rcases List.append_eq_append_iff.mp behind with ⟨more, rfl, later⟩ | ⟨more, rfl, within⟩
        · rcases List.cons_eq_append_iff.mp later with ⟨rfl, same⟩ | ⟨between, rfl, same⟩
          · exact absurd (List.cons.inj same).1.symm other
          · exact ih same
        · rcases List.cons_eq_append_iff.mp within with ⟨rfl, same⟩ | ⟨inner, rfl, rfl⟩
          · exact absurd (List.cons.inj same).1 other
          · obtain ⟨content, last, after, rfl, innerNested, ends⟩ := insideEnd rfl
            exact ⟨content, last, after ++ closing :: others, by simp, innerNested, ends⟩

/-! ## Events of a document -/

theorem NotesNested.singleton {event : Event} (opens : event.opensNote = false)
    (closes : event.closesNote = false) : NotesNested [event] := .other opens closes .nil

theorem NotesNested.flatMap {α : Type} {events : α → List Event} {items : List α}
    (all : ∀ item ∈ items, NotesNested (events item)) : NotesNested (items.flatMap events) := by
  induction items with
  | nil => exact .nil
  | cons item rest ih =>
      rw [List.forall_mem_cons] at all
      exact all.1.append (ih all.2)

/-- An element that is no definition leaves its content as nested as it was. -/
theorem NotesNested.enclose {tag : Tag} {content : List Event} (nested : NotesNested content) :
    NotesNested (Event.enclose tag content) := by
  cases tag with
  | footnote label => exact .note rfl nested rfl .nil
  | _ => exact .other rfl rfl (nested.append (.singleton rfl rfl))

mutual

theorem Inline.notesNested : (content : Inline) → NotesNested content.events
  | .text _ => .singleton rfl rfl
  | .code _ => .singleton rfl rfl
  | .html _ => .singleton rfl rfl
  | .footnote _ => .singleton rfl rfl
  | .softBreak => .singleton rfl rfl
  | .hardBreak => .singleton rfl rfl
  | .link _ _ children => .enclose (inlineEvents_notesNested children)
  | .image _ children => .enclose (inlineEvents_notesNested children)
  | .styled _ children => .enclose (inlineEvents_notesNested children)

theorem inlineEvents_notesNested : (contents : List Inline) → NotesNested (inlineEvents contents)
  | [] => .nil
  | content :: rest => content.notesNested.append (inlineEvents_notesNested rest)

end

theorem rowEvents_notesNested (definitions : Definitions) (row : List Prose) :
    NotesNested (rowEvents definitions row) :=
  .flatMap fun cell _ => .enclose (inlineEvents_notesNested (cell.inlines definitions))

theorem codeEvents_notesNested (text : List Char) :
    NotesNested (if text.isEmpty then [] else [.text text]) := by
  split
  · exact .nil
  · exact .singleton rfl rfl

mutual

theorem Block.notesNested (definitions : Definitions) :
    (tight : Bool) → (block : Block) → NotesNested (block.events definitions tight)
  | true, .paragraph text => inlineEvents_notesNested (text.inlines definitions)
  | false, .paragraph text => .enclose (inlineEvents_notesNested (text.inlines definitions))
  | _, .heading _ text => .enclose (inlineEvents_notesNested (text.inlines definitions))
  | _, .code _ text => .enclose (codeEvents_notesNested text)
  | _, .html _ => .singleton rfl rfl
  | _, .rule => .singleton rfl rfl
  | _, .table _ head _ =>
      .enclose ((NotesNested.enclose (rowEvents_notesNested definitions head)).append
        (.flatMap fun row _ => .enclose (rowEvents_notesNested definitions row)))
  | _, .quote children => .enclose (blockEvents_notesNested definitions false children)
  | _, .list _ tight items => .enclose (blockEvents_notesNested definitions tight items)
  | tight, .item children => .enclose (blockEvents_notesNested definitions tight children)
  | _, .footnote _ children => .enclose (blockEvents_notesNested definitions false children)

theorem blockEvents_notesNested (definitions : Definitions) :
    (tight : Bool) → (blocks : List Block) → NotesNested (blockEvents definitions tight blocks)
  | _, [] => .nil
  | tight, block :: rest =>
      (block.notesNested definitions tight).append (blockEvents_notesNested definitions tight rest)

end

/-- In the events of a text the definitions are nested. -/
theorem Document.notesNested (document : Document) : NotesNested document.events :=
  blockEvents_notesNested _ false _

/-! ## The definition that is remembered -/

/-- The state behind a sequence of events. -/
def FootnoteLinking.behind (linking : FootnoteLinking) (events : List Event) : FootnoteLinking :=
  events.foldl (fun linking event => (linking.step event).1) linking

theorem linkFootnotesFrom_append (linking : FootnoteLinking) (left right : List Event) :
    linkFootnotesFrom linking (left ++ right) =
      linkFootnotesFrom linking left ++ linkFootnotesFrom (linking.behind left) right := by
  induction left generalizing linking with
  | nil => rfl
  | cons event left ih =>
      exact congrArg ((linking.step event).2 :: ·) (ih (linking.step event).1)

theorem FootnoteLinking.step_other (linking : FootnoteLinking) {event : Event}
    (opens : event.opensNote = false) (closes : event.closesNote = false) :
    (linking.step event).1.openDefinition = linking.openDefinition := by
  cases event with
  | start tag => cases tag <;> first | rfl | cases opens
  | finish tag => cases tag <;> first | rfl | cases closes
  | _ => rfl

theorem FootnoteLinking.step_opening (linking : FootnoteLinking) {event : Event}
    (opens : event.opensNote = true) :
    ∃ number, (linking.step event).1.openDefinition = some number ∧
      (linking.step event).2 = .html (definitionStartHtml number) := by
  cases event with
  | start tag => cases tag <;> first | exact ⟨_, rfl, rfl⟩ | cases opens
  | _ => cases opens

theorem FootnoteLinking.step_closing (linking : FootnoteLinking) {event : Event}
    (closes : event.closesNote = true) :
    (linking.step event).1.openDefinition = none ∧
      (linking.step event).2 = .html (definitionEndHtml linking.openDefinition) := by
  cases event with
  | finish tag => cases tag <;> first | exact ⟨rfl, rfl⟩ | cases closes
  | _ => cases closes

/-- Behind nested events the definition is remembered that was before, but not if there has been
another one since. -/
theorem FootnoteLinking.openDefinition_behind {events : List Event} (nested : NotesNested events)
    (linking : FootnoteLinking) :
    (NoteFree events → (linking.behind events).openDefinition = linking.openDefinition) ∧
      (¬ NoteFree events → (linking.behind events).openDefinition = none) := by
  induction nested generalizing linking with
  | nil => exact ⟨fun _ => rfl, fun some => absurd nofun some⟩
  | @other event rest opens closes _ ih =>
      have free : NoteFree (event :: rest) ↔ NoteFree rest := by
        simp [NoteFree, opens]
      rw [free, ← linking.step_other opens closes]
      exact ih _
  | @note opening closing inside rest opens _ closes _ _ ih =>
      have taken : ¬ NoteFree (opening :: (inside ++ closing :: rest)) := by
        intro free
        have here := free opening List.mem_cons_self
        rw [opens] at here
        cases here
      refine ⟨fun free => absurd free taken, fun _ => ?_⟩
      let inner := (linking.step opening).1.behind inside
      have whole : linking.behind (opening :: (inside ++ closing :: rest)) =
          (inner.step closing).1.behind rest := by
        simp [inner, FootnoteLinking.behind]
      rw [whole]
      by_cases free : NoteFree rest
      · rw [(ih _).1 free, (inner.step_closing closes).1]
      · exact (ih _).2 free

/-! ## What is directly in a definition -/

theorem directlyIn_nested {items : List Linked} {events : List Event} (nested : NotesNested events)
    (same : items.map (·.1) = events) (depth : Nat) (rest : List Linked) :
    ∃ direct, (∀ item ∈ direct, item.1.closesNote = false) ∧
      directlyIn depth (items ++ rest) = direct ++ directlyIn depth rest := by
  induction nested generalizing items depth rest with
  | nil =>
      obtain rfl := List.map_eq_nil_iff.mp same
      exact ⟨[], nofun, rfl⟩
  | other opens closes _ ih =>
      obtain ⟨item, others, rfl, rfl, behind⟩ := List.map_eq_cons_iff.mp same
      obtain ⟨direct, unclosed, read⟩ := ih behind depth rest
      refine ⟨(if depth = 0 then [item] else []) ++ direct, ?_, ?_⟩
      · intro other member
        rcases List.mem_append.mp member with here | later
        · split at here
          · obtain rfl := List.mem_singleton.mp here
            exact closes
          · cases here
        · exact unclosed other later
      · simp [directlyIn, opens, closes, read]
  | note opens _ closes _ insideRead restRead =>
      obtain ⟨item, others, rfl, rfl, behind⟩ := List.map_eq_cons_iff.mp same
      obtain ⟨inside, others, rfl, sameInside, ending⟩ := List.map_eq_append_iff.mp behind
      obtain ⟨last, after, rfl, rfl, sameAfter⟩ := List.map_eq_cons_iff.mp ending
      obtain ⟨inner, innerUnclosed, innerRead⟩ :=
        insideRead sameInside (depth + 1) (last :: after ++ rest)
      obtain ⟨outer, outerUnclosed, outerRead⟩ := restRead sameAfter depth rest
      have notOpening : last.1.opensNote = false := by
        cases ends : last.1.opensNote with
        | false => rfl
        | true =>
            rw [closesNote_of_opensNote ends] at closes
            cases closes
      refine ⟨inner ++ outer, ?_, ?_⟩
      · intro other member
        exact (List.mem_append.mp member).elim (innerUnclosed other) (outerUnclosed other)
      · rw [List.cons_append, directlyIn, if_pos opens, List.append_assoc, innerRead,
          List.cons_append, directlyIn, if_neg (by simp [notOpening])]
        simp [closes, outerRead]

/-- The one link back directly in a definition is that at its end. -/
theorem ownBackLink_iff {number : Nat} {inside : List Linked} {last : Linked}
    (nested : NotesNested (inside.map (·.1))) (closes : last.1.closesNote = true) :
    OwnBackLink number (inside ++ [last]) ↔
      last.2 = .html (definitionEndHtml (some number)) := by
  have notOpening : last.1.opensNote = false := by
    cases ends : last.1.opensNote with
    | false => rfl
    | true =>
        rw [closesNote_of_opensNote ends] at closes
        cases closes
  obtain ⟨direct, unclosed, read⟩ := directlyIn_nested nested rfl 0 [last]
  have whole : directlyIn 0 (inside ++ [last]) = direct ++ [last] := by
    rw [read]
    simp [directlyIn, notOpening]
  have without : ∀ item ∈ direct, ∀ wrong, ¬ IsBackLink item wrong := by
    intro item member wrong link
    exact Bool.false_ne_true ((unclosed item member).symm.trans link.1)
  rw [OwnBackLink, whole]
  constructor
  · rintro ⟨before, item, after, split, link, -⟩
    have member : item ∈ direct ++ [last] := split ▸ by simp
    rcases List.mem_append.mp member with early | ends
    · exact absurd link (without item early number)
    · exact List.mem_singleton.mp ends ▸ link.2
  · intro written
    refine ⟨direct, last, [], rfl, ⟨closes, written⟩, ?_⟩
    rw [List.append_nil]
    exact without

/-! ## Definitions in a stream of events -/

/-- Every definition that starts in a nested stream has an end in it. The start and the end are
written as those of a division with the number of the definition; and the one link back that is
directly in the division has its number exactly if no other definition is inside. With another
definition inside there is no link back directly in it. -/
theorem linkFootnotes_ownBackLink_iff {events : List Event} (nested : NotesNested events)
    {before rest : List Linked} {label : List Char} {opening : Event}
    (stands : events.zip (linkFootnotes events) =
      before ++ (.start (.footnote label), opening) :: rest) :
    ∃ number inside last after, rest = inside ++ last :: after ∧
      opening = .html (definitionStartHtml number) ∧ NotesNested (inside.map (·.1)) ∧
      last.1.closesNote = true ∧
      (OwnBackLink number (inside ++ [last]) ↔ NoteFree (inside.map (·.1))) ∧
      (¬ NoteFree (inside.map (·.1)) → last.2 = .html (definitionEndHtml none)) := by
  have lengths := (linkFootnotesFrom_linked .initial events).length_eq
  have sources := congrArg (List.map (·.1)) stands
  have written := congrArg (List.map (·.2)) stands
  have first : (events.zip (linkFootnotes events)).map (·.1) = events :=
    List.map_fst_zip (Nat.le_of_eq lengths)
  have second : (events.zip (linkFootnotes events)).map (·.2) = linkFootnotes events :=
    List.map_snd_zip (Nat.le_of_eq lengths.symm)
  rw [first, List.map_append, List.map_cons] at sources
  rw [second, List.map_append, List.map_cons, linkFootnotes, sources,
    linkFootnotesFrom_append, linkFootnotesFrom] at written
  obtain ⟨insideEvents, closing, afterEvents, split, insideNested, closes⟩ :=
    nested.exists_end rfl sources
  obtain ⟨inside, others, rfl, rfl, same⟩ := List.map_eq_append_iff.mp split
  obtain ⟨last, after, rfl, rfl, rfl⟩ := List.map_eq_cons_iff.mp same
  let linking := FootnoteLinking.initial.behind (before.map (·.1))
  have earlier : (linkFootnotesFrom .initial (before.map (·.1))).length =
      (before.map (·.2)).length := by
    rw [← (linkFootnotesFrom_linked _ _).length_eq, List.length_map, List.length_map]
  obtain ⟨-, written⟩ := List.append_inj written earlier
  obtain ⟨opened, later⟩ := List.cons.inj written
  obtain ⟨number, remembered, start⟩ :=
    linking.step_opening (show (Event.start (.footnote label)).opensNote = true from rfl)
  let inner := (linking.step (.start (.footnote label))).1
  rw [List.map_append, linkFootnotesFrom_append, List.map_append] at later
  have inward : (linkFootnotesFrom inner (inside.map (·.1))).length =
      (inside.map (·.2)).length := by
    rw [← (linkFootnotesFrom_linked _ _).length_eq, List.length_map, List.length_map]
  obtain ⟨-, ending⟩ := List.append_inj later inward
  have ended : last.2 =
      .html (definitionEndHtml (inner.behind (inside.map (·.1))).openDefinition) := by
    rw [List.map_cons, linkFootnotesFrom, List.map_cons] at ending
    exact (List.cons.inj ending).1.symm.trans (FootnoteLinking.step_closing _ closes).2
  obtain ⟨kept, lost⟩ := inner.openDefinition_behind insideNested
  refine ⟨number, inside, last, after, rfl, opened.symm.trans start, insideNested, closes, ?_,
    fun other => by rw [ended, lost other]⟩
  rw [ownBackLink_iff insideNested closes, ended]
  constructor
  · intro same
    by_contra other
    have numbers := definitionEndHtml_injective (Event.html.inj same)
    rw [lost other] at numbers
    cases numbers
  · intro free
    rw [kept free, remembered]

/-- A text with a definition in a quotation in another definition. -/
def quotedNote : String := "a[^x] b[^y]\n\n[^x]: > [^y]: c\n"

def quotedNoteEvents : List Event := (Document.ofText quotedNote.toList).events

/-- What stands in the outer definition and at its end. -/
def outerNote : List Linked :=
  [(.start .quote, .start .quote),
    (.start (.footnote ['y']), .html (definitionStartHtml 2)),
    (.start .paragraph, .start .paragraph), (.text ['c'], .text ['c']),
    (.finish .paragraph, .finish .paragraph),
    (.finish (.footnote ['y']), .html (definitionEndHtml (some 2))),
    (.finish .quote, .finish .quote)]

def outerEnd : Linked := (.finish (.footnote ['x']), .html (definitionEndHtml none))

/-- The inner definition links back to its own reference. -/
theorem linkFootnotes_ownBackLink_quoted :
    NotesNested quotedNoteEvents ∧
    quotedNoteEvents.zip (linkFootnotes quotedNoteEvents) =
      (quotedNoteEvents.zip (linkFootnotes quotedNoteEvents)).take 9 ++
        (.start (.footnote ['y']), .html (definitionStartHtml 2)) ::
          (outerNote.drop 2 ++ [outerEnd]) ∧
    ∃ number inside last after, outerNote.drop 2 ++ [outerEnd] = inside ++ last :: after ∧
      Event.html (definitionStartHtml 2) = .html (definitionStartHtml number) ∧
      NotesNested (inside.map (·.1)) ∧ last.1.closesNote = true ∧
      (OwnBackLink number (inside ++ [last]) ↔ NoteFree (inside.map (·.1))) ∧
      (¬ NoteFree (inside.map (·.1)) → last.2 = .html (definitionEndHtml none)) := by
  have nested : NotesNested quotedNoteEvents := Document.notesNested _
  have stands : quotedNoteEvents.zip (linkFootnotes quotedNoteEvents) =
      (quotedNoteEvents.zip (linkFootnotes quotedNoteEvents)).take 9 ++
        (.start (.footnote ['y']), .html (definitionStartHtml 2)) ::
          (outerNote.drop 2 ++ [outerEnd]) := by
    decide +kernel
  exact ⟨nested, stands, linkFootnotes_ownBackLink_iff nested stands⟩

/-- The outer definition is left without a link back, and nothing in the text leads from the note
with the number one to its reference. -/
theorem outer_note_without_backLink :
    render quotedNote =
      "<p>a<sup class=\"footnote\" id=\"fnr1\"><a href=\"#fn1\">1</a></sup> " ++
        "b<sup class=\"footnote\" id=\"fnr2\"><a href=\"#fn2\">2</a></sup></p>\n" ++
        "<div class=\"footnote\" id=\"fn1\">\n<blockquote>\n" ++
        "<div class=\"footnote\" id=\"fn2\">\n<p>c</p>\n" ++
        "<a href=\"#fnr2\" class=\"footnote-backref\">&#8617;</a></div>\n" ++
        "</blockquote>\n</div>\n" ∧
      NotesNested quotedNoteEvents ∧
      quotedNoteEvents.zip (linkFootnotes quotedNoteEvents) =
        (quotedNoteEvents.zip (linkFootnotes quotedNoteEvents)).take 7 ++
          (.start (.footnote ['x']), .html (definitionStartHtml 1)) ::
            (outerNote ++ [outerEnd]) ∧
      NotesNested (outerNote.map (·.1)) ∧ ¬ OwnBackLink 1 (outerNote ++ [outerEnd]) := by
  have content : NotesNested [.text ['c']] := .singleton rfl rfl
  have note : NotesNested
      (Event.enclose (.footnote ['y']) (Event.enclose .paragraph [.text ['c']])) :=
    content.enclose.enclose
  have inner : NotesNested (outerNote.map (·.1)) := note.enclose
  have closes : outerEnd.1.closesNote = true := rfl
  refine ⟨by decide +kernel, Document.notesNested _, by decide +kernel, inner, ?_⟩
  intro own
  have ended := definitionEndHtml_injective
    (Event.html.inj ((ownBackLink_iff inner closes).mp own))
  cases ended

end Bindery.Markdown
