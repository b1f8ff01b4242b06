import Bindery.Markdown.Event

/-!
# References to known labels

Brackets become a footnote reference only if the text defines their label, and
pairing emphasis moves content around without making any.
-/

set_option autoImplicit false

namespace Bindery.Markdown

/-- Every reference in the content is to a label with the property. -/
def Inline.RefersOnly (known : List Char → Prop) (content : Inline) : Prop :=
  ∀ label, .footnoteReference label ∈ content.events → known label

def Piece.RefersOnly (known : List Char → Prop) : Piece → Prop
  | .node content => content.RefersOnly known
  | .run _ => True

theorem mem_inlineEvents {event : Event} {contents : List Inline} :
    event ∈ inlineEvents contents ↔ ∃ content ∈ contents, event ∈ content.events := by
  induction contents with
  | nil => simp [inlineEvents]
  | cons content rest ih => simp [inlineEvents, ih]

section Known

variable {known : List Char → Prop}

theorem refersOnly_text (content : List Char) : (Inline.text content).RefersOnly known := by
  simp [Inline.RefersOnly, Inline.events]

theorem refersOnly_code (content : List Char) : (Inline.code content).RefersOnly known := by
  simp [Inline.RefersOnly, Inline.events]

theorem refersOnly_html (content : List Char) : (Inline.html content).RefersOnly known := by
  simp [Inline.RefersOnly, Inline.events]

theorem refersOnly_break (hard : Bool) :
    (if hard then Inline.hardBreak else .softBreak).RefersOnly known := by
  cases hard <;> simp [Inline.RefersOnly, Inline.events]

theorem refersOnly_footnote {label : List Char} (listed : known label) :
    (Inline.footnote label).RefersOnly known := by
  simpa [Inline.RefersOnly, Inline.events] using listed

theorem refersOnly_enclose {tag : Tag} {children : List Inline}
    (all : ∀ content ∈ children, content.RefersOnly known) :
    ∀ label, .footnoteReference label ∈ Event.enclose tag (inlineEvents children) →
      known label := by
  intro label member
  simp only [Event.enclose, List.cons_append, List.mem_cons, List.mem_append, reduceCtorEq,
    List.not_mem_nil, false_or, or_false, mem_inlineEvents] at member
  obtain ⟨content, listed, member⟩ := member
  exact all content listed label member

theorem refersOnly_link {mail : Bool} {target : Target} {children : List Inline}
    (all : ∀ content ∈ children, content.RefersOnly known) :
    (Inline.link mail target children).RefersOnly known := refersOnly_enclose all

theorem refersOnly_image {target : Target} {children : List Inline}
    (all : ∀ content ∈ children, content.RefersOnly known) :
    (Inline.image target children).RefersOnly known := refersOnly_enclose all

theorem refersOnly_styled {style : Style} {children : List Inline}
    (all : ∀ content ∈ children, content.RefersOnly known) :
    (Inline.styled style children).RefersOnly known := refersOnly_enclose all

/-- What waits for a partner refers to known labels only. -/
structure Pairing.RefersOnly (known : List Char → Prop) (pairing : Pairing) : Prop where
  base : ∀ content ∈ pairing.base, content.RefersOnly known
  openers : ∀ opener ∈ pairing.openers, ∀ content ∈ opener.content, content.RefersOnly known

namespace Pairing

theorem RefersOnly.emit {pairing : Pairing} {content : Inline} (only : pairing.RefersOnly known)
    (added : content.RefersOnly known) : (pairing.emit content).RefersOnly known := by
  unfold Pairing.emit
  split
  · next none =>
      refine ⟨List.forall_mem_cons.mpr ⟨added, only.base⟩, ?_⟩
      simp [none]
  · next opener outer some =>
      have openers := only.openers
      rw [some, List.forall_mem_cons] at openers
      refine ⟨only.base, List.forall_mem_cons.mpr ⟨?_, openers.2⟩⟩
      exact List.forall_mem_cons.mpr ⟨added, openers.1⟩

theorem refersOnly_collapse {inner : List Opener} {base : List Inline}
    (openers : ∀ opener ∈ inner, ∀ content ∈ opener.content, content.RefersOnly known)
    (below : ∀ content ∈ base, content.RefersOnly known) :
    ∀ content ∈ collapse inner base, content.RefersOnly known := by
  induction inner with
  | nil => exact below
  | cons opener rest ih =>
      rw [List.forall_mem_cons] at openers
      intro other member
      unfold collapse at member
      rw [List.foldr_cons, List.mem_append, List.mem_cons] at member
      rcases member with member | rfl | member
      · exact openers.1 other member
      · exact refersOnly_text _
      · exact ih openers.2 other member

theorem refersOnly_wrap {mark : Char} {count : Nat} {content : List Inline}
    (all : ∀ other ∈ content, other.RefersOnly known) :
    ∀ other ∈ wrap mark count content, other.RefersOnly known := by
  fun_induction wrap mark count content with
  | case1 => exact all
  | case2 => simpa using refersOnly_styled all
  | case3 _ _ ih => exact ih (by simpa using refersOnly_styled all)

theorem RefersOnly.emitAll {pairing : Pairing} {contents : List Inline}
    (only : pairing.RefersOnly known) (all : ∀ content ∈ contents, content.RefersOnly known) :
    (contents.foldl Pairing.emit pairing).RefersOnly known := by
  induction contents generalizing pairing with
  | nil => exact only
  | cons content rest ih =>
      rw [List.forall_mem_cons] at all
      exact ih (only.emit all.1) all.2

theorem RefersOnly.close {pairing : Pairing} (only : pairing.RefersOnly known)
    (run : DelimiterRun) (fuel count : Nat) :
    (Pairing.close run fuel count pairing).1.RefersOnly known := by
  fun_induction Pairing.close run fuel count pairing with
  | case1 => exact only
  | case2 => exact only
  | case3 => exact ⟨only.base, only.openers⟩
  | case4 => exact only
  | case5 => exact only
  | case6 _ _ pairing _ _ index _ opener outer reached content used wrapped rest next ih =>
      have openers : ∀ other ∈ pairing.openers.drop index, ∀ content ∈ other.content,
          content.RefersOnly known :=
        fun other member => only.openers other (List.mem_of_mem_drop member)
      rw [reached, List.forall_mem_cons] at openers
      have inner : ∀ other ∈ content, other.RefersOnly known :=
        refersOnly_collapse (fun other member => only.openers other (List.mem_of_mem_take member))
          openers.1
      have wrappedOnly : ∀ other ∈ wrapped, other.RefersOnly known :=
        refersOnly_wrap fun other member => inner other (List.mem_reverse.mp member)
      have restOnly : rest.RefersOnly known := ⟨only.base, openers.2⟩
      refine ih ?_
      unfold next
      split
      · refine ⟨only.base, List.forall_mem_cons.mpr ⟨?_, openers.2⟩⟩
        exact fun other member => wrappedOnly other (List.mem_reverse.mp member)
      · exact restOnly.emitAll wrappedOnly

theorem RefersOnly.step {pairing : Pairing} {piece : Piece} (only : pairing.RefersOnly known)
    (added : piece.RefersOnly known) : (pairing.step piece).RefersOnly known := by
  cases piece with
  | node content => exact only.emit added
  | run run =>
      have closed : (if run.canClose then Pairing.close run run.count run.count pairing
          else (pairing, run.count)).1.RefersOnly known := by
        split
        · exact only.close run _ _
        · exact only
      rw [Pairing.step]
      generalize (if run.canClose then Pairing.close run run.count run.count pairing
        else (pairing, run.count)) = result at closed ⊢
      obtain ⟨next, left⟩ := result
      dsimp only at closed ⊢
      split
      · exact closed
      · split
        · have none : ∀ content ∈ ([] : List Inline), content.RefersOnly known := by simp
          exact ⟨closed.base, List.forall_mem_cons.mpr ⟨none, closed.openers⟩⟩
        · exact closed.emit (refersOnly_text _)

end Pairing

/-- Resolving emphasis makes no references. -/
theorem refersOnly_resolveEmphasis {pieces : List Piece}
    (all : ∀ piece ∈ pieces, piece.RefersOnly known) :
    ∀ content ∈ resolveEmphasis pieces, content.RefersOnly known := by
  have paired : ∀ {pairing : Pairing}, pairing.RefersOnly known →
      (pieces.foldl Pairing.step pairing).RefersOnly known := by
    induction pieces with
    | nil => exact id
    | cons piece rest ih =>
        rw [List.forall_mem_cons] at all
        exact fun only => ih all.2 (only.step all.1)
  have start : Pairing.RefersOnly known ⟨[], [], 0⟩ := ⟨by simp, by simp⟩
  have finished := paired start
  intro content member
  exact Pairing.refersOnly_collapse finished.openers finished.base content
    (List.mem_reverse.mp member)

/-- What a reader has read refers to known labels only. -/
structure Reader.RefersOnly (known : List Char → Prop) (reader : Reader) : Prop where
  items : ∀ piece ∈ reader.items, piece.RefersOnly known
  brackets : ∀ bracket ∈ reader.brackets, ∀ piece ∈ bracket.before, piece.RefersOnly known

namespace Reader

theorem RefersOnly.emit {reader : Reader} {content : Inline} (only : reader.RefersOnly known)
    (added : content.RefersOnly known) : (reader.emit content).RefersOnly known :=
  ⟨List.forall_mem_cons.mpr ⟨added, only.items⟩, only.brackets⟩

theorem RefersOnly.pass {reader : Reader} (only : reader.RefersOnly known)
    (passed : List Char) : (reader.pass passed).RefersOnly known :=
  ⟨only.items, only.brackets⟩

theorem refersOnly_opening (bracket : Bracket) : bracket.opening.RefersOnly known :=
  refersOnly_text _

theorem RefersOnly.closeAll {reader : Reader} (only : reader.RefersOnly known) :
    ∀ piece ∈ reader.closeAll, piece.RefersOnly known := by
  have folded : ∀ {brackets : List Bracket} {items : List Piece},
      (∀ bracket ∈ brackets, ∀ piece ∈ bracket.before, piece.RefersOnly known) →
      (∀ piece ∈ items, piece.RefersOnly known) →
      ∀ piece ∈ brackets.foldl (fun items bracket => items ++ bracket.opening :: bracket.before)
        items, piece.RefersOnly known := by
    intro brackets
    induction brackets with
    | nil => exact fun _ all => all
    | cons bracket rest ih =>
        intro items befores all
        rw [List.forall_mem_cons] at befores
        refine ih befores.2 (List.forall_mem_append.mpr ⟨all, ?_⟩)
        exact List.forall_mem_cons.mpr ⟨refersOnly_opening bracket, befores.1⟩
  exact folded only.brackets only.items

end Reader

variable {reader : Reader}

theorem refersOnly_readBreak (only : reader.RefersOnly known) (hard : Bool) (rest : List Char) :
    (readBreak hard reader rest).1.RefersOnly known := by
  have emitted := only.emit (refersOnly_break hard)
  exact ⟨emitted.items, emitted.brackets⟩

theorem refersOnly_readBackslash (only : reader.RefersOnly known) (inTable : Bool)
    (rest : List Char) : (readBackslash inTable reader rest).1.RefersOnly known := by
  unfold readBackslash
  split
  · exact refersOnly_readBreak only true _
  · split
    · exact (only.emit (refersOnly_text _)).pass _
    · exact (only.emit (refersOnly_text _)).pass _
  · exact (only.emit (refersOnly_text _)).pass _

theorem refersOnly_readRun (only : reader.RefersOnly known) (mark : Char) (text : List Char) :
    (readRun mark reader text).1.RefersOnly known := by
  unfold readRun
  dsimp only
  split
  · refine Reader.RefersOnly.pass ?_ _
    exact ⟨List.forall_mem_cons.mpr ⟨trivial, only.items⟩, only.brackets⟩
  · exact (only.emit (refersOnly_text _)).pass _

theorem refersOnly_readCode (only : reader.RefersOnly known) (inTable : Bool)
    (text : List Char) : (readCode inTable reader text).1.RefersOnly known := by
  unfold readCode
  dsimp only
  split
  · exact (only.emit (refersOnly_code _)).pass _
  · exact (only.emit (refersOnly_text _)).pass _

theorem refersOnly_readBlanks (only : reader.RefersOnly known) (text : List Char) :
    (readBlanks reader text).1.RefersOnly known := by
  unfold readBlanks
  dsimp only
  split
  · exact refersOnly_readBreak only _ _
  · exact (only.emit (refersOnly_text _)).pass _

theorem refersOnly_readAngle (only : reader.RefersOnly known) (rest : List Char) :
    (readAngle reader rest).1.RefersOnly known := by
  have address : ∀ {mail : Bool} {target : Target} {text : List Char},
      (Inline.link mail target [.text text]).RefersOnly known :=
    refersOnly_link (List.forall_mem_singleton.mpr (refersOnly_text _))
  unfold readAngle
  dsimp only
  split
  · exact (only.emit address).pass _
  · split
    · exact (only.emit address).pass _
    · split
      · exact (only.emit (refersOnly_html _)).pass _
      · split
        · exact (only.emit (refersOnly_html _)).pass _
        · exact (only.emit (refersOnly_text _)).pass _

end Known

/-- A closing bracket makes a reference only to a label of a footnote. -/
theorem hasFootnote_of_closing {definitions : Definitions} {inTable : Bool} {bracket : Bracket}
    {rest label : List Char}
    (closed : closing definitions inTable bracket rest = .footnote label) :
    definitions.hasFootnote label = true := by
  unfold closing at closed
  grind

section Definitions

variable {definitions : Definitions} {reader : Reader}

theorem refersOnly_closeBracket
    (only : reader.RefersOnly (definitions.hasFootnote · = true)) (inTable : Bool)
    (rest : List Char) :
    (closeBracket definitions inTable reader rest).1.RefersOnly
      (definitions.hasFootnote · = true) := by
  unfold closeBracket
  split
  · exact (only.emit (refersOnly_text _)).pass _
  · next bracket outer listed =>
      obtain ⟨items, brackets⟩ := only
      rw [listed, List.forall_mem_cons] at brackets
      obtain ⟨before, outerOnly⟩ := brackets
      have asText : ∀ piece ∈ .node (.text [']']) :: reader.opened bracket,
          piece.RefersOnly (definitions.hasFootnote · = true) := by
        refine List.forall_mem_cons.mpr ⟨refersOnly_text _, List.forall_mem_append.mpr ⟨items, ?_⟩⟩
        exact List.forall_mem_cons.mpr ⟨Reader.refersOnly_opening bracket, before⟩
      dsimp only
      split
      · exact ⟨asText, outerOnly⟩
      · split
        · exact ⟨asText, outerOnly⟩
        · next label closed =>
            refine Reader.RefersOnly.pass ⟨List.forall_mem_cons.mpr ⟨?_, ?_⟩, by simp⟩ _
            · exact refersOnly_footnote (hasFootnote_of_closing closed)
            · refine Reader.RefersOnly.closeAll ⟨?_, outerOnly⟩
              dsimp only
              split
              · exact List.forall_mem_cons.mpr ⟨refersOnly_text _, before⟩
              · exact before
        · next target after closed =>
            have children : ∀ content ∈ resolveEmphasis reader.items.reverse,
                content.RefersOnly (definitions.hasFootnote · = true) :=
              refersOnly_resolveEmphasis fun piece member => items piece (List.mem_reverse.mp member)
            refine Reader.RefersOnly.pass ⟨List.forall_mem_cons.mpr ⟨?_, before⟩, ?_⟩ _
            · split
              · exact refersOnly_image children
              · exact refersOnly_link children
            · dsimp only
              split
              · exact outerOnly
              · intro other member
                obtain ⟨source, listed, rfl⟩ := List.mem_map.mp member
                exact outerOnly source listed

theorem refersOnly_readPiece (only : reader.RefersOnly (definitions.hasFootnote · = true))
    (inTable : Bool) (text : List Char) :
    (readPiece definitions inTable reader text).1.RefersOnly
      (definitions.hasFootnote · = true) := by
  have opened : ∀ {image : Bool} {rest : List Char},
      Reader.RefersOnly (definitions.hasFootnote · = true)
        { reader with
          items := []
          brackets := ⟨image, true, reader.items, rest⟩ :: reader.brackets } :=
    ⟨by simp, List.forall_mem_cons.mpr ⟨only.items, only.brackets⟩⟩
  unfold readPiece
  split
  · exact only
  · split
    · exact refersOnly_readBreak only _ _
    · split
      · exact refersOnly_readBlanks only _
      · split
        · exact refersOnly_readBackslash only _ _
        · split
          · exact refersOnly_readRun only _ _
          · split
            · exact refersOnly_readCode only _ _
            · split
              · exact refersOnly_readAngle only _
              · split
                · exact opened.pass _
                · split
                  · exact opened.pass _
                  · split
                    · exact refersOnly_closeBracket only _ _
                    · split
                      · exact (only.emit (refersOnly_text _)).pass _
                      · exact (only.emit (refersOnly_text _)).pass _

theorem refersOnly_readPieces (only : reader.RefersOnly (definitions.hasFootnote · = true))
    (inTable : Bool) (fuel : Nat) (text : List Char) :
    (readPieces definitions inTable fuel reader text).RefersOnly
      (definitions.hasFootnote · = true) := by
  fun_induction readPieces definitions inTable fuel reader text with
  | case1 => exact only
  | case2 => exact only
  | case3 fuel reader text notEmpty next rest read ih =>
      have step := refersOnly_readPiece only inTable text
      rw [read] at step
      exact ih step

/-- Prose refers to footnotes of the text only. -/
theorem refersOnly_inlines (definitions : Definitions) (prose : Prose) :
    ∀ content ∈ prose.inlines definitions,
      content.RefersOnly (definitions.hasFootnote · = true) := by
  have start : Reader.RefersOnly (definitions.hasFootnote · = true)
      ⟨prose.before, [], [], prose.breaks⟩ := ⟨by simp, by simp⟩
  have finished :=
    refersOnly_readPieces start prose.inTable (prose.text.length + 1) prose.text
  refine refersOnly_resolveEmphasis fun piece member => ?_
  exact finished.closeAll piece (List.mem_reverse.mp member)

/-- Every reference among the events is to a footnote of the text. -/
def FootnotesKnown (definitions : Definitions) (events : List Event) : Prop :=
  ∀ label, .footnoteReference label ∈ events → definitions.hasFootnote label = true

namespace FootnotesKnown

theorem nil : FootnotesKnown definitions [] := nofun

theorem append {left right : List Event} (leftKnown : FootnotesKnown definitions left)
    (rightKnown : FootnotesKnown definitions right) :
    FootnotesKnown definitions (left ++ right) := by
  intro label member
  rcases List.mem_append.mp member with member | member
  · exact leftKnown label member
  · exact rightKnown label member

theorem flatMap {α : Type} {events : α → List Event} {items : List α}
    (all : ∀ item, FootnotesKnown definitions (events item)) :
    FootnotesKnown definitions (items.flatMap events) := by
  intro label member
  obtain ⟨item, -, member⟩ := List.mem_flatMap.mp member
  exact all item label member

theorem enclose {tag : Tag} {content : List Event} (known : FootnotesKnown definitions content) :
    FootnotesKnown definitions (Event.enclose tag content) := by
  intro label member
  simp only [Event.enclose, List.cons_append, List.mem_cons, List.mem_append, reduceCtorEq,
    List.not_mem_nil, false_or, or_false] at member
  exact known label member

theorem prose (text : Prose) : FootnotesKnown definitions (text.events definitions) := by
  intro label member
  obtain ⟨content, listed, member⟩ := mem_inlineEvents.mp member
  exact refersOnly_inlines definitions text content listed label member

theorem row (cells : List Prose) : FootnotesKnown definitions (rowEvents definitions cells) :=
  flatMap fun cell => (prose cell).enclose

theorem code (text : List Char) :
    FootnotesKnown definitions (if text.isEmpty then [] else [.text text]) := by
  intro label member
  split at member <;> simp at member

end FootnotesKnown

end Definitions

mutual

theorem Block.footnotesKnown (definitions : Definitions) :
    (tight : Bool) → (block : Block) → FootnotesKnown definitions (block.events definitions tight)
  | true, .paragraph text => .prose text
  | false, .paragraph text => .enclose (.prose text)
  | _, .heading _ text => .enclose (.prose text)
  | _, .code _ text => .enclose (.code text)
  | _, .html _ => by simp [FootnotesKnown, Block.events]
  | _, .rule => by simp [FootnotesKnown, Block.events]
  | _, .table _ head _ =>
      .enclose ((FootnotesKnown.enclose (.row head)).append
        (.flatMap fun cells => .enclose (.row cells)))
  | _, .quote children => .enclose (blockEvents_footnotesKnown definitions false children)
  | _, .list _ tight items => .enclose (blockEvents_footnotesKnown definitions tight items)
  | tight, .item children => .enclose (blockEvents_footnotesKnown definitions tight children)
  | _, .footnote _ children => .enclose (blockEvents_footnotesKnown definitions false children)

/-- The blocks of a text refer to its footnotes only. -/
theorem blockEvents_footnotesKnown (definitions : Definitions) :
    (tight : Bool) → (blocks : List Block) →
      FootnotesKnown definitions (blockEvents definitions tight blocks)
  | _, [] => .nil
  | tight, block :: rest =>
      (block.footnotesKnown definitions tight).append
        (blockEvents_footnotesKnown definitions tight rest)

end

end Bindery.Markdown
