import Bindery.Proofs.Textile.Passthrough
import Bindery.Proofs.Textile.Phrase
import Bindery.Textile.Render

/-!
# The forms of a block

What a block starts with decides on its form once, and the form says which texts
of the block the rules within a line are applied to.
-/

set_option autoImplicit false

namespace Bindery.Textile

inductive BlockForm where
  /-- A stand-in or markup, which is copied. -/
  | kept
  | heading (level : Char) (content : List Char)
  | note (number content : List Char)
  | quote (content : List Char)
  | list (ordered : Bool) (items : List (List Char))
  | paragraph (content : List Char)
  deriving Repr, DecidableEq

def formOf (block : List Char) : BlockForm :=
  let text := Text.trimStart block
  if isStandIn text || isMarkup text then .kept
  else
    match heading? text with
    | some (level, content) => .heading level content
    | none =>
        match note? text with
        | some (number, content) => .note number content
        | none =>
            match afterSign? ['b', 'q'] text with
            | some content => .quote content
            | none =>
                match items? text with
                | some items => .list (text.head? = some '#') items
                | none => .paragraph ((afterSign? ['p'] text).getD text)

/-- A block of the form as HTML. -/
def BlockForm.render (block : List Char) : BlockForm → List Char
  | .kept => block
  | .heading level content => element ("h".push level) (renderInline content)
  | .note number content => renderNote number content
  | .quote content => renderQuote content
  | .list ordered items => renderList ordered items
  | .paragraph content => renderParagraph content

theorem renderBlock_eq (block : List Char) : renderBlock block = (formOf block).render block := by
  unfold renderBlock formOf
  dsimp only
  split
  · rfl
  · cases heading? (Text.trimStart block) with
    | some heading => rfl
    | none =>
        cases note? (Text.trimStart block) with
        | some note => rfl
        | none =>
            cases afterSign? ['b', 'q'] (Text.trimStart block) with
            | some content => rfl
            | none => cases items? (Text.trimStart block) <;> rfl

/-- The texts that the rules within a line are applied to, each on its own. -/
def BlockForm.phrases : BlockForm → List (List Char)
  | .kept => []
  | .heading _ content => [content]
  | .note _ content => [content]
  | .quote content => Text.lines content
  | .list _ items => items
  | .paragraph content => Text.lines content

theorem infix_flatMap {α β : Type} {item : α} {items : List α} (write : α → List β)
    (member : item ∈ items) : write item <:+: items.flatMap write := by
  obtain ⟨before, behind, rfl⟩ := List.append_of_mem member
  rw [List.flatMap_append, List.flatMap_cons, ← List.append_assoc]
  exact List.infix_append _ _ _

theorem infix_join {separator piece : List Char} {pieces : List (List Char)}
    (member : piece ∈ pieces) : piece <:+: Text.join separator pieces := by
  obtain ⟨before, behind, rfl⟩ := List.append_of_mem member
  have here : piece <:+: Text.join separator (piece :: behind) := by
    cases behind with
    | nil => simp [Text.join]
    | cons next behind =>
        rw [Text.join, List.intercalate_cons_cons, List.append_assoc]
        exact (List.prefix_append _ _).isInfix
  induction before with
  | nil => exact here
  | cons first before ih =>
      obtain ⟨next, behind', same⟩ := List.exists_cons_of_ne_nil
        (List.append_ne_nil_of_right_ne_nil before (List.cons_ne_nil piece behind))
      rw [List.cons_append, Text.join, same, List.intercalate_cons_cons, ← same]
      exact (ih (by simp)).trans (List.suffix_append _ _).isInfix

theorem infix_renderLines {line text : List Char} (member : line ∈ Text.lines text) :
    renderInline line <:+: renderLines text :=
  infix_join (List.mem_map_of_mem member)

/-- What the rules within a line make of a phrase stands in the block. -/
theorem BlockForm.infix_render {form : BlockForm} {phrase : List Char} (block : List Char)
    (member : phrase ∈ form.phrases) : renderInline phrase <:+: form.render block := by
  cases form with
  | kept => cases member
  | heading level content =>
      obtain rfl := List.mem_singleton.mp member
      exact infix_element _ List.infix_rfl
  | note number content =>
      obtain rfl := List.mem_singleton.mp member
      exact List.infix_append _ _ _
  | quote content =>
      exact (infix_element "p" (infix_renderLines member)).trans (List.infix_append _ _ _)
  | list ordered items =>
      refine infix_element _ (List.infix_cons ?_)
      have item : renderInline phrase <:+: renderItem phrase := List.infix_append _ _ _
      exact item.trans (infix_flatMap renderItem member)
  | paragraph content => exact infix_element "p" (infix_renderLines member)

/-- The number of a note that the block defines. -/
def BlockForm.noteNumber? : BlockForm → Option (List Char)
  | .note number _ => some number
  | _ => none

theorem formOf_eq_kept_iff {block : List Char} :
    formOf block = .kept ↔
      isStandIn (Text.trimStart block) = true ∨ isMarkup (Text.trimStart block) = true := by
  rw [← Bool.or_eq_true]
  unfold formOf
  dsimp only
  split
  · next kept => exact iff_of_true rfl kept
  · next other =>
      refine iff_of_false ?_ other
      repeat' split
      all_goals exact BlockForm.noConfusion

theorem heading?_of_formOf {block content : List Char} {level : Char}
    (form : formOf block = .heading level content) :
    heading? (Text.trimStart block) = some (level, content) := by
  unfold formOf at form
  dsimp only at form
  split at form
  · cases form
  · cases headed : heading? (Text.trimStart block) with
    | some heading =>
        rw [headed] at form
        obtain ⟨rfl, rfl⟩ := BlockForm.heading.inj form
        rfl
    | none =>
        rw [headed] at form
        dsimp only at form
        repeat' split at form
        all_goals cases form

theorem note?_of_formOf {block number content : List Char}
    (form : formOf block = .note number content) :
    note? (Text.trimStart block) = some (number, content) := by
  unfold formOf at form
  dsimp only at form
  split at form
  · cases form
  · cases headed : heading? (Text.trimStart block) with
    | some heading =>
        rw [headed] at form
        cases form
    | none =>
        rw [headed] at form
        cases read : note? (Text.trimStart block) with
        | some note =>
            rw [read] at form
            obtain ⟨rfl, rfl⟩ := BlockForm.note.inj form
            rfl
        | none =>
            rw [read] at form
            dsimp only at form
            repeat' split at form
            all_goals cases form

theorem decimal_of_note? {text number content : List Char}
    (read : note? text = some (number, content)) :
    ∀ digit ∈ number, Text.isDecimalDigit digit = true := by
  unfold note? at read
  split at read
  · dsimp only at read
    split at read
    · cases read
    · obtain ⟨_, _, same⟩ := Option.map_eq_some_iff.mp read
      obtain ⟨rfl, -⟩ := Prod.mk.inj same
      exact List.all_eq_true.mp List.all_takeWhile
  · cases read

/-- Markup of a block stands in the result if it has nothing in common with stand-ins. -/
theorem infix_render {markup block : List Char} {text : String} (absent : opener ∉ markup)
    (ends : markup.head?.any endsStandIn = true)
    (among : block ∈ blocks (lift (Text.unixEndings text.toList)))
    (inside : markup <:+: renderBlock block) : markup <:+: (render text).toList := by
  rw [render, String.toList_ofList, renderChars]
  refine infix_restore absent ends ?_
  have line : markup <:+: renderBlock block ++ ['\n'] :=
    inside.trans (List.prefix_append _ _).isInfix
  exact line.trans (infix_flatMap (fun block => renderBlock block ++ ['\n']) among)

end Bindery.Textile
