import Bindery.Proofs.Markdown.Declaration
import Bindery.Proofs.Markdown.Reference
import Mathlib.Data.List.Forall2

/-!
# Generated links and their notes

A reference links to the note with the number of its label as it is spelled.
The link has a note exactly if some definition is spelled alike, although the
reader of the text takes labels in any case for the same.
-/

set_option autoImplicit false

namespace Bindery.Markdown

/-- The events of a text outside the alternative texts of images, each with what it is replaced by. -/
def linkedEvents (text : String) : List (Event × Event) :=
  let events := (Document.ofText text.toList).events
  outsideImages (·.2.nesting) 0 (events.zip (linkFootnotes events))

/-- A reference to the label is written as a link to the note with the number. -/
def LinksToNote (text : String) (label : List Char) (number : Nat) : Prop :=
  (.footnoteReference label, .html (referenceHtml number)) ∈ linkedEvents text

/-- A definition of the label is written as the note with the number. -/
def WritesNote (text : String) (label : List Char) (number : Nat) : Prop :=
  (.start (.footnote label), .html (definitionStartHtml number)) ∈ linkedEvents text

/-- Every link that is written has its note in the same text. -/
def LinksResolve (text : String) : Prop :=
  ∀ number, (∃ label, LinksToNote text label number) → ∃ label, WritesNote text label number

/-- The text refers to the label outside alternative texts. -/
def RefersTo (text : String) (label : List Char) : Prop :=
  .footnoteReference label ∈ (linkedEvents text).map (·.1)

/-- The text has a definition with the label as it is spelled here. -/
def Declares (text : String) (label : List Char) : Prop :=
  .start (.footnote label) ∈ (linkedEvents text).map (·.1)

/-- The label of every reference is spelled like that of a definition. -/
def SpelledAlike (text : String) : Prop := ∀ label, RefersTo text label → Declares text label

theorem toList_toString_injective :
    Function.Injective fun number : Nat => (toString number).toList := by
  intro left right same
  refine Footnote.Marker.toDigits_injective ?_
  simpa only [Nat.toString_eq_repr, Nat.toList_repr] using same

theorem definitionStartHtml_injective : Function.Injective definitionStartHtml := by
  intro left right same
  unfold definitionStartHtml at same
  rw [List.append_assoc, List.append_assoc] at same
  exact toList_toString_injective (List.append_cancel_right (List.append_cancel_left same))

/-- Texts of one length have numbers of one length in all three places. -/
theorem thrice_injective (first second third fourth : List Char) :
    Function.Injective fun number : Nat =>
      first ++ (toString number).toList ++ second ++ (toString number).toList ++ third ++
        (toString number).toList ++ fourth := by
  intro left right same
  have lengths : (toString left).toList.length = (toString right).toList.length := by
    have total := congrArg List.length same
    simp only [List.length_append] at total
    omega
  simp only [List.append_assoc] at same
  exact toList_toString_injective (List.append_inj (List.append_cancel_left same) lengths).1

theorem referenceHtml_injective : Function.Injective referenceHtml :=
  thrice_injective _ _ _ _

/-- The labels of a text, each in the place of its number. -/
def labelTable (text : String) : List (List Char) :=
  FootnoteLinking.initial.labelsAfter (Document.ofText text.toList).events

theorem labelTable_nodup (text : String) : (labelTable text).Nodup :=
  FootnoteLinking.labelsAfter_nodup _ _ List.nodup_nil

theorem linkFootnotes_linked (text : String) :
    List.Forall₂ (LinkedBy (labelTable text)) (Document.ofText text.toList).events
      (linkFootnotes (Document.ofText text.toList).events) :=
  linkFootnotesFrom_linked .initial _

theorem linkedBy_of_mem {text : String} {source replaced : Event}
    (member : (source, replaced) ∈ linkedEvents text) :
    LinkedBy (labelTable text) source replaced := by
  have paired := (outsideImages_sublist _ _ _).subset member
  exact List.forall₂_zip (linkFootnotes_linked text) paired

theorem LinksToNote.stored {text : String} {label : List Char} {number : Nat}
    (links : LinksToNote text label number) :
    ∃ index, number = index + 1 ∧ (labelTable text)[index]? = some label := by
  obtain ⟨index, stored, same⟩ := linkedBy_of_mem links
  exact ⟨index, referenceHtml_injective (Event.html.inj same), stored⟩

theorem WritesNote.stored {text : String} {label : List Char} {number : Nat}
    (writes : WritesNote text label number) :
    ∃ index, number = index + 1 ∧ (labelTable text)[index]? = some label := by
  obtain ⟨index, stored, same⟩ := linkedBy_of_mem writes
  exact ⟨index, definitionStartHtml_injective (Event.html.inj same), stored⟩

theorem refersTo_iff {text : String} {label : List Char} :
    RefersTo text label ↔ ∃ number, LinksToNote text label number := by
  rw [RefersTo, List.mem_map]
  constructor
  · rintro ⟨⟨source, replaced⟩, member, rfl⟩
    obtain ⟨index, -, rfl⟩ := linkedBy_of_mem member
    exact ⟨index + 1, member⟩
  · rintro ⟨number, links⟩
    exact ⟨_, links, rfl⟩

theorem declares_iff {text : String} {label : List Char} :
    Declares text label ↔ ∃ number, WritesNote text label number := by
  rw [Declares, List.mem_map]
  constructor
  · rintro ⟨⟨source, replaced⟩, member, rfl⟩
    obtain ⟨index, -, rfl⟩ := linkedBy_of_mem member
    exact ⟨index + 1, member⟩
  · rintro ⟨number, writes⟩
    exact ⟨_, writes, rfl⟩

/-- A link and a note have one number exactly if their labels are spelled alike. -/
theorem LinksToNote.number_eq_iff {text : String} {left right : List Char}
    {leftNumber rightNumber : Nat} (links : LinksToNote text left leftNumber)
    (writes : WritesNote text right rightNumber) : leftNumber = rightNumber ↔ left = right := by
  obtain ⟨index, rfl, stored⟩ := links.stored
  obtain ⟨other, rfl, otherStored⟩ := writes.stored
  constructor
  · intro same
    obtain rfl : index = other := Nat.succ.inj same
    exact Option.some.inj (stored.symm.trans otherStored)
  · rintro rfl
    have inside := (List.getElem?_eq_some_iff.mp stored).1
    rw [(List.getElem?_inj inside (labelTable_nodup text)).mp (stored.trans otherStored.symm)]

theorem linksResolve_iff (text : String) : LinksResolve text ↔ SpelledAlike text := by
  simp only [LinksResolve, SpelledAlike, refersTo_iff, declares_iff]
  constructor
  · rintro resolve label ⟨number, links⟩
    obtain ⟨other, writes⟩ := resolve number ⟨label, links⟩
    obtain rfl := (links.number_eq_iff writes).mp rfl
    exact ⟨number, writes⟩
  · rintro alike number ⟨label, links⟩
    obtain ⟨other, writes⟩ := alike label ⟨number, links⟩
    obtain rfl := (links.number_eq_iff writes).mpr rfl
    exact ⟨label, writes⟩

theorem map_fst_linkedEvents (text : String) :
    (linkedEvents text).map (·.1) =
      outsideImages Event.linkedNesting 0 (Document.ofText text.toList).events := by
  have all := linkFootnotes_linked text
  have nested := outsideImages_map 0 fun _ paired => (List.forall₂_zip all paired).nesting_eq
  have sources := List.map_fst_zip (Nat.le_of_eq all.length_eq)
  rw [sources] at nested
  exact nested

/-- A reference has a definition whose label is the same but for case. -/
theorem RefersTo.declared {text : String} {label : List Char} (refers : RefersTo text label) :
    ∃ other, labelKey other = labelKey label ∧ Declares text other := by
  rw [RefersTo, map_fst_linkedEvents] at refers
  have listed := (outsideImages_sublist _ _ _).subset refers
  have known := blockEvents_footnotesKnown _ false _ label listed
  rw [Definitions.hasFootnote, List.contains_iff_mem] at known
  obtain ⟨other, same, declared⟩ := Document.declares_of_footnote text.toList known
  refine ⟨other, same, ?_⟩
  rw [Declares, map_fst_linkedEvents]
  exact declared

/-- HTML that stands in for an event outside alternative texts is found in the result. -/
theorem html_infix_render {text : String} {source : Event} {content : List Char}
    (member : (source, .html content) ∈ linkedEvents text) : content <:+: (render text).toList := by
  have replaced := List.map_snd_zip (Nat.le_of_eq (linkFootnotes_linked text).length_eq.symm)
  have written := html_infix_events .empty member
  rw [replaced] at written
  rw [render, String.toList_ofList, renderEvents]
  simpa using List.reverse_infix.mpr written

/-- Every reference has a definition when case does not count. The links that a text is given stand
in the result and so do the notes, and every link has its note exactly if the label of every
reference is spelled like that of a definition. -/
theorem render_linksResolve_iff (text : String) :
    (∀ label, RefersTo text label →
      ∃ other, labelKey other = labelKey label ∧ Declares text other) ∧
    (∀ label number, LinksToNote text label number →
      referenceHtml number <:+: (render text).toList) ∧
    (∀ label number, WritesNote text label number →
      definitionStartHtml number <:+: (render text).toList) ∧
    (LinksResolve text ↔ SpelledAlike text) :=
  ⟨fun _ refers => refers.declared, fun _ _ links => html_infix_render links,
    fun _ _ writes => html_infix_render writes, linksResolve_iff text⟩

/-- The reference and the definition are of one note for the reader of the text. The link goes to
the first note, and only a second one is written. -/
theorem link_of_other_case_unresolved :
    render "a[^A]\n\n[^a]: x\n" =
      "<p>a<sup class=\"footnote\" id=\"fnr1\"><a href=\"#fn1\">1</a></sup></p>\n" ++
        "<div class=\"footnote\" id=\"fn2\">\n<p>x</p>\n" ++
        "<a href=\"#fnr2\" class=\"footnote-backref\">&#8617;</a></div>\n" ∧
      labelKey ['A'] = labelKey ['a'] ∧
      LinksToNote "a[^A]\n\n[^a]: x\n" ['A'] 1 ∧ ¬ LinksResolve "a[^A]\n\n[^a]: x\n" := by
  have links : LinksToNote "a[^A]\n\n[^a]: x\n" ['A'] 1 := by
    unfold LinksToNote
    decide +kernel
  have unwritten : .html (definitionStartHtml 1) ∉
      (linkedEvents "a[^A]\n\n[^a]: x\n").map (·.2) := by decide +kernel
  refine ⟨by decide +kernel, by decide +kernel, links, fun resolve => ?_⟩
  obtain ⟨label, writes⟩ := resolve 1 ⟨['A'], links⟩
  exact unwritten (List.mem_map.mpr ⟨_, writes, rfl⟩)

end Bindery.Markdown
