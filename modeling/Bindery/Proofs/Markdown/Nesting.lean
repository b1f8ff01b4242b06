import Bindery.Proofs.Markdown.FootnoteNumbers
import Bindery.Proofs.Markdown.Writer

/-!
# Events of blocks are nested

The depth after the events of a block is that before them. So what stands in a
block outside of prose is never in an alternative text.
-/

set_option autoImplicit false

namespace Bindery.Markdown

/-- How what takes the place of an event changes the depth. Footnotes are replaced by HTML, which
has no depth. -/
def Event.linkedNesting : Event → Nesting
  | .start (.footnote _) => .flat
  | .finish (.footnote _) => .flat
  | event => event.nesting

theorem LinkedBy.nesting_eq {labels : List (List Char)} {source replaced : Event}
    (linked : LinkedBy labels source replaced) : replaced.nesting = source.linkedNesting := by
  unfold LinkedBy at linked
  split at linked
  · obtain ⟨index, -, rfl⟩ := linked
    rfl
  · obtain ⟨index, -, rfl⟩ := linked
    rfl
  · obtain ⟨number, rfl⟩ := linked
    rfl
  · next notReference notStart notFinish =>
      subst linked
      unfold Event.linkedNesting
      split
      · next label => exact absurd rfl (notStart label)
      · next label => exact absurd rfl (notFinish label)
      · rfl

def depthAfter {α : Type} (nesting : α → Nesting) (depth : Nat) (items : List α) : Nat :=
  items.foldl (fun depth item => (nesting item).depth depth) depth

theorem depthAfter_append {α : Type} (nesting : α → Nesting) (depth : Nat) (left right : List α) :
    depthAfter nesting depth (left ++ right) =
      depthAfter nesting (depthAfter nesting depth left) right := List.foldl_append

theorem outsideImages_append {α : Type} (nesting : α → Nesting) (depth : Nat)
    (left right : List α) :
    outsideImages nesting depth (left ++ right) =
      outsideImages nesting depth left ++
        outsideImages nesting (depthAfter nesting depth left) right := by
  induction left generalizing depth with
  | nil => rfl
  | cons item rest ih =>
      rw [List.cons_append, outsideImages, outsideImages, ih, List.append_assoc]
      rfl

/-- What stands outside images depends on the nesting of the items only. -/
theorem outsideImages_map {α β : Type} {nesting : α → Nesting} {other : β → Nesting}
    {change : α → β} {items : List α} (depth : Nat)
    (same : ∀ item ∈ items, nesting item = other (change item)) :
    (outsideImages nesting depth items).map change =
      outsideImages other depth (items.map change) := by
  induction items generalizing depth with
  | nil => rfl
  | cons item rest ih =>
      rw [List.forall_mem_cons] at same
      rw [List.map_cons, outsideImages, outsideImages, List.map_append, ih _ same.2, same.1]
      split <;> rfl

/-- The events leave every depth as it was. -/
def Balanced (events : List Event) : Prop :=
  ∀ depth, depthAfter Event.linkedNesting depth events = depth

theorem Balanced.nil : Balanced [] := fun _ => rfl

theorem Balanced.append {left right : List Event} (leftBalanced : Balanced left)
    (rightBalanced : Balanced right) : Balanced (left ++ right) := by
  intro depth
  rw [depthAfter_append, leftBalanced, rightBalanced]

theorem Balanced.singleton {event : Event} (flat : event.linkedNesting = .flat) :
    Balanced [event] := by
  intro depth
  rw [depthAfter, List.foldl_cons, flat]
  rfl

theorem Balanced.flatMap {α : Type} {events : α → List Event} {items : List α}
    (all : ∀ item ∈ items, Balanced (events item)) : Balanced (items.flatMap events) := by
  induction items with
  | nil => exact .nil
  | cons item rest ih =>
      rw [List.forall_mem_cons] at all
      exact all.1.append (ih all.2)

/-- An element ends at the depth at which it starts. -/
theorem Balanced.enclose {tag : Tag} {content : List Event} (balanced : Balanced content) :
    Balanced (Event.enclose tag content) := by
  intro depth
  have inside : depthAfter Event.linkedNesting depth (Event.enclose tag content) =
      (Event.finish tag).linkedNesting.depth ((Event.start tag).linkedNesting.depth depth) := by
    rw [Event.enclose, depthAfter_append]
    exact congrArg _ (balanced _)
  rw [inside]
  cases tag with
  | footnote label => rfl
  | image target => rfl
  | _ => cases depth <;> rfl

mutual

theorem Inline.balanced : (content : Inline) → Balanced content.events
  | .text _ => .singleton rfl
  | .code _ => .singleton rfl
  | .html _ => .singleton rfl
  | .footnote _ => .singleton rfl
  | .softBreak => .singleton rfl
  | .hardBreak => .singleton rfl
  | .link _ _ children => .enclose (inlineEvents_balanced children)
  | .image _ children => .enclose (inlineEvents_balanced children)
  | .styled _ children => .enclose (inlineEvents_balanced children)

theorem inlineEvents_balanced : (contents : List Inline) → Balanced (inlineEvents contents)
  | [] => .nil
  | content :: rest => content.balanced.append (inlineEvents_balanced rest)

end

theorem rowEvents_balanced (definitions : Definitions) (row : List Prose) :
    Balanced (rowEvents definitions row) :=
  .flatMap fun cell _ => .enclose (inlineEvents_balanced (cell.inlines definitions))

theorem codeEvents_balanced (text : List Char) :
    Balanced (if text.isEmpty then [] else [.text text]) := by
  split
  · exact .nil
  · exact .singleton rfl

mutual

theorem Block.balanced (definitions : Definitions) :
    (tight : Bool) → (block : Block) → Balanced (block.events definitions tight)
  | true, .paragraph text => inlineEvents_balanced (text.inlines definitions)
  | false, .paragraph text => .enclose (inlineEvents_balanced (text.inlines definitions))
  | _, .heading _ text => .enclose (inlineEvents_balanced (text.inlines definitions))
  | _, .code _ text => .enclose (codeEvents_balanced text)
  | _, .html _ => .singleton rfl
  | _, .rule => .singleton rfl
  | _, .table _ head _ =>
      .enclose ((Balanced.enclose (rowEvents_balanced definitions head)).append
        (.flatMap fun row _ => .enclose (rowEvents_balanced definitions row)))
  | _, .quote children => .enclose (blockEvents_balanced definitions false children)
  | _, .list _ tight items => .enclose (blockEvents_balanced definitions tight items)
  | tight, .item children => .enclose (blockEvents_balanced definitions tight children)
  | _, .footnote _ children => .enclose (blockEvents_balanced definitions false children)

theorem blockEvents_balanced (definitions : Definitions) :
    (tight : Bool) → (blocks : List Block) → Balanced (blockEvents definitions tight blocks)
  | _, [] => .nil
  | tight, block :: rest =>
      (block.balanced definitions tight).append (blockEvents_balanced definitions tight rest)

end

end Bindery.Markdown
