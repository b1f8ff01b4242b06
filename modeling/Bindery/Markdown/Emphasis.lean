import Bindery.Markdown.Link
import Bindery.Text.Blank

/-!
# Emphasis

Pairs the delimiter runs of a stretch of prose. A closing run takes the nearest
opening run of its mark; what stands between them and finds no partner is text.
-/

set_option autoImplicit false

namespace Bindery.Markdown

inductive Style where
  | emphasis | strong | strikethrough
  deriving Repr, DecidableEq

/-- Inline content. Raw HTML stands as it will be written. -/
inductive Inline where
  | text (content : List Char)
  | code (content : List Char)
  | html (content : List Char)
  | footnote (label : List Char)
  | softBreak
  | hardBreak
  | link (mail : Bool) (target : Target) (children : List Inline)
  | image (target : Target) (children : List Inline)
  | styled (style : Style) (children : List Inline)

/-- A run of equal marks that may open or close emphasis. -/
structure DelimiterRun where
  mark : Char
  count : Nat
  canOpen : Bool
  canClose : Bool

namespace DelimiterRun

/-- Whether the run may do both. -/
def both (run : DelimiterRun) : Bool := run.canOpen && run.canClose

/-- The run between the characters `previous` and `next`. Underscores and single tildes do
nothing within a word. -/
def between (mark : Char) (count : Nat) (previous next : Char) : DelimiterRun :=
  let freeInWord := mark == '*' || (mark == '~' && 1 < count)
  let canOpen := !Text.isBlank next &&
    ((mark == '*' && !Text.isPunctuation next) || (mark == '~' && 1 < count) ||
      (mark == '~' && previous == '~' && !Text.isPunctuation next) ||
      Text.isBlank previous || Text.isPunctuation previous)
  let canClose := !Text.isBlank previous &&
    ((freeInWord && !Text.isPunctuation previous) || (mark == '~' && previous == '~') ||
      Text.isBlank next || Text.isPunctuation next)
  ⟨mark, count, canOpen, canClose⟩

end DelimiterRun

/-- A stretch of prose before emphasis is resolved. -/
inductive Piece where
  | node (content : Inline)
  | run (marks : DelimiterRun)

/-- An opening run that waits for its partner. `count` of its marks are left of `length`;
`content` is what follows them, in reverse. -/
structure Opener where
  mark : Char
  length : Nat
  count : Nat
  both : Bool
  content : List Inline

def Opener.marks (opener : Opener) : Inline := .text (List.replicate opener.count opener.mark)

/-- Whether a closing run of `length` marks fits. If one of the two runs may do both, their lengths
together are no multiple of three, unless both are. Tildes pair in equal numbers. -/
def Opener.fits (opener : Opener) (mark : Char) (length : Nat) (both : Bool) : Bool :=
  opener.mark == mark && (mark != '~' || opener.length == length) &&
    ((!both && !opener.both) || (length + opener.length) % 3 != 0 || length % 3 == 0)

/-- Openers stand innermost first, each followed by its content; `base` is what precedes all of
them, in reverse. A tilde run looks only at openers above the first `tildeFloor`. -/
structure Pairing where
  base : List Inline
  openers : List Opener
  tildeFloor : Nat

namespace Pairing

def emit (pairing : Pairing) (content : Inline) : Pairing :=
  match pairing.openers with
  | [] => { pairing with base := content :: pairing.base }
  | opener :: outer =>
      { pairing with openers := { opener with content := content :: opener.content } :: outer }

/-- The content of an opener with that of the openers inside it, whose marks become text. -/
def collapse (inner : List Opener) (content : List Inline) : List Inline :=
  inner.foldr (fun opener below => opener.content ++ opener.marks :: below) content

/-- Wraps the content in strong emphasis for every two marks and emphasis for the odd one, strong
emphasis innermost. -/
def wrap (mark : Char) : Nat → List Inline → List Inline
  | 0, content => content
  | 1, content => [.styled (if mark == '~' then .strikethrough else .emphasis) content]
  | count + 2, content =>
      wrap mark count [.styled (if mark == '~' then .strikethrough else .strong) content]

/-- Closes with the run while a partner is found, and returns how many marks are left. -/
def close (run : DelimiterRun) : Nat → Nat → Pairing → Pairing × Nat
  | 0, count, pairing => (pairing, count)
  | _, 0, pairing => (pairing, 0)
  | fuel + 1, count, pairing =>
      let reach :=
        if run.mark == '~' then pairing.openers.length - pairing.tildeFloor
        else pairing.openers.length
      match (pairing.openers.take reach).findIdx? (·.fits run.mark run.count run.both) with
      | none =>
          if run.mark == '~' then ({ pairing with tildeFloor := pairing.openers.length }, count)
          else (pairing, count)
      | some index =>
          match pairing.openers.drop index with
          | [] => (pairing, count)
          | opener :: outer =>
              let content := collapse (pairing.openers.take index) opener.content
              let used := min count opener.count
              let wrapped := wrap run.mark used content.reverse
              let pairing := { pairing with
                openers := outer
                tildeFloor := min pairing.tildeFloor outer.length }
              let pairing :=
                if used < opener.count then
                  { pairing with openers :=
                      { opener with count := opener.count - used, content := wrapped.reverse } ::
                        outer }
                else wrapped.foldl emit pairing
              close run fuel (count - used) pairing

/-- What is left of a run after closing opens, or becomes text. -/
def step (pairing : Pairing) : Piece → Pairing
  | .node content => pairing.emit content
  | .run run =>
      let (pairing, count) :=
        if run.canClose then close run run.count run.count pairing else (pairing, run.count)
      if count = 0 then pairing
      else if run.canOpen then
        { pairing with openers := ⟨run.mark, run.count, count, run.both, []⟩ :: pairing.openers }
      else pairing.emit (.text (List.replicate count run.mark))

def finish (pairing : Pairing) : List Inline :=
  (collapse pairing.openers pairing.base).reverse

end Pairing

/-- Resolves the delimiter runs of a stretch of prose. -/
def resolveEmphasis (pieces : List Piece) : List Inline :=
  (pieces.foldl Pairing.step ⟨[], [], 0⟩).finish

end Bindery.Markdown
