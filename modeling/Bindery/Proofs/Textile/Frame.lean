import Bindery.Proofs.Textile.Passthrough
import Bindery.Proofs.Textile.StandIn

/-!
# The output around the spans

A rendered text with stand-ins is read as a frame: characters, and slots for the
spans. The spans are put back by filling the slots.
-/

set_option autoImplicit false

namespace Bindery.Textile

/-- A character of the output, or the place of the span of this number. -/
inductive Slot where
  | plain (c : Char)
  | span (index : Nat)
  deriving Repr, DecidableEq

/-- The frame that a text with stand-ins describes. The number counts the characters of the last
stand-in that are still to come; a stand-in without a number has no slot. -/
def frameAfter : Nat → List Char → List Slot
  | _, [] => []
  | taken + 1, _ :: rest => frameAfter taken rest
  | 0, c :: rest =>
      match standInDigits? (c :: rest) with
      | some digits =>
          ((index? digits).map Slot.span).toList ++ frameAfter (digits.length + 1) rest
      | none => .plain c :: frameAfter 0 rest

def frame (text : List Char) : List Slot := frameAfter 0 text

def Slot.index? : Slot → Option Nat
  | .plain _ => none
  | .span index => some index

/-- The numbers of the spans in the order of their slots. -/
def slots (frame : List Slot) : List Nat := frame.filterMap Slot.index?

def Slot.fill (contents : List (List Char)) : Slot → List Char
  | .plain c => [c]
  | .span index => contents[index]?.getD []

def fill (contents : List (List Char)) (frame : List Slot) : List Char :=
  frame.flatMap (Slot.fill contents)

section

variable {text after : List Char} {contents : List (List Char)}

theorem substituteAfter_restoreRule (contents : List (List Char)) (taken : Nat)
    (text : List Char) :
    Text.substituteAfter (restoreRule contents) taken text =
      fill contents (frameAfter taken text) := by
  induction text generalizing taken with
  | nil => cases taken <;> rfl
  | cons c rest ih =>
      cases taken with
      | succ taken => exact ih taken
      | zero =>
          rw [Text.substituteAfter, frameAfter, restoreRule]
          cases standInDigits? (c :: rest) with
          | none => exact congrArg (c :: ·) (ih 0)
          | some digits =>
              rw [Option.map_some]
              dsimp only
              rw [ih, fill, fill, List.flatMap_append]
              cases index? digits with
              | none => rfl
              | some index =>
                  rw [Option.map_some, Option.toList_some, List.flatMap_singleton]
                  rfl

theorem restore_eq_fill (contents : List (List Char)) (text : List Char) :
    restore contents text = fill contents (frame text) :=
  substituteAfter_restoreRule contents 0 text

theorem frameAfter_eq_drop (taken : Nat) (text : List Char) :
    frameAfter taken text = frame (text.drop taken) := by
  induction text generalizing taken with
  | nil =>
      rw [List.drop_nil]
      cases taken <;> rfl
  | cons c rest ih =>
      cases taken with
      | zero => rfl
      | succ taken => exact ih taken

theorem frame_plain {c : Char} {rest : List Char} (plain : standInDigits? (c :: rest) = none) :
    frame (c :: rest) = .plain c :: frame rest := by
  rw [frame, frameAfter, plain]
  rfl

theorem frame_standing {digits rest : List Char}
    (read : standInDigits? (opener :: (digits ++ closer :: rest)) = some digits) :
    frame (opener :: (digits ++ closer :: rest)) =
      ((index? digits).map Slot.span).toList ++ frame rest := by
  have behind : digits ++ closer :: rest = (digits ++ [closer]) ++ rest := by
    rw [List.append_assoc, List.singleton_append]
  have length : digits.length + 1 = (digits ++ [closer]).length := by
    rw [List.length_append, List.length_singleton]
  rw [frame, frameAfter, read]
  dsimp only
  rw [frameAfter_eq_drop, behind, length, List.drop_left]

theorem frame_standIn {index : Nat} (small : index < UInt64.size) (rest : List Char) :
    frame (standIn index ++ rest) = .span index :: frame rest := by
  have read := standInDigits?_standIn index rest
  have whole : standIn index ++ rest = opener :: ((toString index).toList ++ closer :: rest) := by
    rw [standIn, List.cons_append, List.cons_append, List.append_assoc, List.singleton_append]
  rw [whole] at read ⊢
  rw [frame_standing read, index?_toString small]
  rfl

theorem restore_plain {c : Char} {rest : List Char} (plain : standInDigits? (c :: rest) = none) :
    restore contents (c :: rest) = c :: restore contents rest := by
  rw [restore_eq_fill, restore_eq_fill, frame_plain plain]
  rfl

/-- What a stand-in leaves in the text. -/
def filled (contents : List (List Char)) (digits : List Char) : List Char :=
  ((index? digits).bind (contents[·]?)).getD []

theorem restore_standing {digits rest : List Char}
    (read : standInDigits? (opener :: (digits ++ closer :: rest)) = some digits) :
    restore contents (opener :: (digits ++ closer :: rest)) =
      filled contents digits ++ restore contents rest := by
  rw [restore_eq_fill, restore_eq_fill, frame_standing read, fill, List.flatMap_append, filled]
  cases index? digits with
  | none => rfl
  | some index => rw [Option.map_some, Option.toList_some, List.flatMap_singleton]; rfl

/-- A stand-in gives way to its span. -/
theorem restore_standIn {index : Nat} (small : index < UInt64.size)
    (rest : List Char) :
    restore contents (standIn index ++ rest) =
      contents[index]?.getD [] ++ restore contents rest := by
  rw [restore_eq_fill, frame_standIn small, restore_eq_fill]
  rfl

/-- The slots are those of the stand-ins that have a number. -/
theorem slots_frame (text : List Char) : slots (frame text) = (standIns text).filterMap index? := by
  induction text using standIns_induction with
  | nil => rfl
  | plain c rest plain ih =>
      rw [frame_plain plain, standIns, plain]
      exact ih
  | standing digits rest read absent ih =>
      rw [frame_standing read, standIns_standing read absent, slots, List.filterMap_append,
        List.filterMap_cons]
      cases index? digits with
      | none => exact ih
      | some index => exact congrArg (index :: ·) ih

end

end Bindery.Textile
