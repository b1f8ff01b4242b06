import Bindery.Markdown.Render

/-!
# What is written stays

A writer only adds to what it has written. HTML that stands outside the
alternative texts of images is found in the result as it is.
-/

set_option autoImplicit false

namespace Bindery.Markdown

/-- One writer has written what the other has, and perhaps more. -/
def Writer.Extends (after before : Writer) : Prop := before.output <:+ after.output

namespace Writer

theorem Extends.refl (writer : Writer) : writer.Extends writer := List.suffix_rfl

theorem Extends.trans {first second third : Writer} (later : third.Extends second)
    (earlier : second.Extends first) : third.Extends first := List.IsSuffix.trans earlier later

theorem output_write (writer : Writer) (text : List Char) :
    (writer.write text).output = text.reverse ++ writer.output := by
  unfold write
  split
  · next none =>
      rw [List.getLast?_eq_none_iff.mp none]
      rfl
  · rfl

section Write

variable {before after : Writer}

theorem Extends.write (later : after.Extends before) (text : List Char) :
    (after.write text).Extends before := by
  refine List.IsSuffix.trans later ?_
  rw [output_write]
  exact List.suffix_append _ _

theorem Extends.writeString (later : after.Extends before) (text : String) :
    (after.writeString text).Extends before :=
  later.write _

theorem Extends.writeBlock (later : after.Extends before) (text : String) :
    (after.writeBlock text).Extends before := by
  unfold Writer.writeBlock
  split
  · exact later.writeString _
  · exact (later.write _).writeString _

theorem Extends.writeTitle (later : after.Extends before) (target : Target) :
    (after.writeTitle target).Extends before := by
  unfold Writer.writeTitle
  split
  · exact later
  · exact (later.writeString _).write _

end Write

theorem start_extends (writer : Writer) (tag : Tag) : (writer.start tag).Extends writer := by
  have same := Extends.refl writer
  cases tag with
  | paragraph => exact same.writeBlock _
  | heading level => exact same.writeBlock _
  | quote => exact same.writeBlock _
  | code info =>
      unfold start
      dsimp only
      split
      · exact same.writeBlock _
      · exact ((same.writeBlock _).write _).writeString _
  | list first =>
      unfold start
      split <;> first | exact same.writeBlock _ | contradiction
  | item => exact same.writeBlock _
  | footnote label => exact same
  | table columns => exact same.writeString _
  | tableHead => exact same.writeString _
  | tableRow => exact same.writeString _
  | tableCell => exact same.writeString _
  | styled style => exact same.writeString _
  | link mail target =>
      exact (((same.writeString _).write _).writeTitle _).writeString _
  | image target => exact ((same.writeString _).write _).writeString _

theorem finish_extends (writer : Writer) (tag : Tag) : (writer.finish tag).Extends writer := by
  have same := Extends.refl writer
  cases tag with
  | footnote label => exact same
  | list first => cases first <;> exact same.writeString _
  | image target => exact (same.writeTitle _).writeString _
  | _ => exact same.writeString _

theorem alternative_extends (writer : Writer) (event : Event) :
    (writer.alternative event).Extends writer := by
  have same := Extends.refl writer
  cases event with
  | start tag => exact same
  | finish tag => exact same
  | footnoteReference label => exact same
  | _ => exact same.write _

theorem event_extends (writer : Writer) (event : Event) :
    (writer.event event).Extends writer := by
  have same := Extends.refl writer
  cases event with
  | start tag => exact start_extends writer tag
  | finish tag => exact finish_extends writer tag
  | text content => exact same.write _
  | code content => exact ((same.writeString _).write _).writeString _
  | html content => exact same.write _
  | footnoteReference label => exact same
  | softBreak => exact same.write _
  | hardBreak => exact same.writeString _
  | rule => exact same.writeBlock _

end Writer

/-- How an event changes the depth that the writer keeps. -/
inductive Nesting where
  | image
  | opening
  | closing
  | flat
  deriving DecidableEq

def Event.nesting : Event → Nesting
  | .start (.image _) => .image
  | .start _ => .opening
  | .finish _ => .closing
  | _ => .flat

/-- The depth after an event. Only an image leads away from zero. -/
def Nesting.depth : Nesting → Nat → Nat
  | .image, depth => depth + 1
  | .opening, 0 => 0
  | .opening, depth + 1 => depth + 2
  | .closing, depth => depth - 1
  | .flat, depth => depth

/-- The items that stand outside the alternative texts of images, where they are written with
their marks. The depth is that of the writer. -/
def outsideImages {α : Type} (nesting : α → Nesting) : Nat → List α → List α
  | _, [] => []
  | depth, item :: rest =>
      (if depth = 0 then [item] else []) ++
        outsideImages nesting ((nesting item).depth depth) rest

namespace Writer

/-- The writer takes one event, and outside alternative texts it writes it with its marks. -/
theorem events_cons (writer : Writer) (depth : Nat) (event : Event) (rest : List Event) :
    ∃ next : Writer, writer.events depth (event :: rest) =
        next.events (event.nesting.depth depth) rest ∧
      next.Extends writer ∧ (depth = 0 → next = writer.event event) := by
  cases depth with
  | zero =>
      refine ⟨writer.event event, ?_, event_extends writer event, fun _ => rfl⟩
      cases event with
      | start tag => cases tag <;> rfl
      | _ => rfl
  | succ depth =>
      cases event with
      | start tag =>
          refine ⟨writer, ?_, .refl writer, nofun⟩
          cases tag <;> rfl
      | finish tag =>
          cases depth with
          | zero => exact ⟨writer.finish tag, rfl, finish_extends writer tag, nofun⟩
          | succ depth => exact ⟨writer, rfl, .refl writer, nofun⟩
      | _ => exact ⟨_, rfl, alternative_extends writer _, nofun⟩

theorem events_extends (writer : Writer) (depth : Nat) (events : List Event) :
    (writer.events depth events).Extends writer := by
  induction events generalizing writer depth with
  | nil =>
      rw [Writer.events]
      exact .refl writer
  | cons event rest ih =>
      obtain ⟨next, same, later, -⟩ := writer.events_cons depth event rest
      rw [same]
      exact (ih next _).trans later

end Writer

/-- HTML outside alternative texts is written as it is. Each event comes with its source. -/
theorem html_infix_events (writer : Writer) {depth : Nat} {items : List (Event × Event)}
    {source : Event} {content : List Char}
    (member : (source, .html content) ∈ outsideImages (·.2.nesting) depth items) :
    content.reverse <:+: (writer.events depth (items.map (·.2))).output := by
  induction items generalizing writer depth with
  | nil => cases member
  | cons item rest ih =>
      obtain ⟨next, same, -, outside⟩ := writer.events_cons depth item.2 (rest.map (·.2))
      rw [List.map_cons, same]
      rcases List.mem_append.mp member with here | member
      · split at here
        · next level =>
            obtain rfl := List.mem_singleton.mp here
            refine List.IsInfix.trans ?_ (next.events_extends _ _).isInfix
            rw [outside level, Writer.event, Writer.output_write]
            exact (List.prefix_append _ _).isInfix
        · cases here
      · exact ih next member

theorem outsideImages_sublist {α : Type} (nesting : α → Nesting) (depth : Nat) (items : List α) :
    (outsideImages nesting depth items).Sublist items := by
  induction items generalizing depth with
  | nil => exact .slnil
  | cons item rest ih =>
      rw [outsideImages]
      split
      · exact (ih _).cons_cons item
      · exact (ih _).cons item

end Bindery.Markdown
