import Bindery.Markdown.Cursor
import Bindery.Text.CaseFold

/-!
# Labels

A label stands in square brackets and names a link target or a footnote. Runs
of white space in it count as one space, and case does not tell labels apart.
-/

set_option autoImplicit false

namespace Bindery.Markdown

/-- Passes the white space at the front, with at most one line ending in it. The function
`nextLine` passes the marks at the beginning of a line; without it no line may end. The first
part of the result tells whether the white space is more than one space. -/
def skipLabelSpace (nextLine : List Char → Option (List Char)) (text : List Char) :
    Option (Bool × List Char) :=
  let spaces := runLength isLineSpace text
  let after := text.drop spaces
  let long := spaces > 1 || text.head? != some ' '
  match after, lineEnding? after with
  | _ :: _, some ending =>
      match nextLine (after.drop ending) with
      | none => none
      | some line =>
          let more := line.drop (runLength isLineSpace line)
          if more.isEmpty || (lineEnding? more).isNone then some (true, more) else none
  | _, _ => some (long, after)

/-- The label that ends at the next closing bracket, and the text behind the bracket. The text
starts behind the opening bracket. -/
def label? (nextLine : List Char → Option (List Char)) (inTable : Bool) (text : List Char) :
    Option (List Char × List Char) :=
  go (text.length + 1) 0 true [] text
where
  go (fuel size : Nat) (blank : Bool) (label : List Char) (text : List Char) :
      Option (List Char × List Char) :=
    match fuel, text with
    | 0, _ => none
    | _, [] => none
    | fuel + 1, c :: rest =>
        if 1000 ≤ size || c == '[' then none
        else if c == ']' then
          if blank then none else some (label.reverse, rest)
        else if inTable && c == '|' && label.head? == some '\\' then
          go fuel (size + 1) blank ('|' :: label.tail) rest
        else if c == '\\' then
          match rest with
          | [] => none
          | d :: rest =>
              if inTable && d == '|' then go fuel (size + 1) blank ('|' :: label) rest
              else go fuel (size + 2) false (d :: '\\' :: label) rest
        else if isSpace c then
          match skipLabelSpace nextLine text with
          | none => none
          | some (long, after) =>
              go fuel (size + (text.length - after.length)) blank
                ((if long then ' ' else c) :: label) after
        else go fuel (size + 1) false (c :: label) rest

/-- What a pair of brackets names. -/
inductive Label where
  | link (name : List Char)
  | footnote (name : List Char)
  deriving Repr, DecidableEq

/-- The label at the front of the text, its brackets included, and the text behind it. A label
that begins with a caret names a footnote; it stands on one line. -/
def bracketLabel? (nextLine : List Char → Option (List Char)) (inTable : Bool) :
    List Char → Option (Label × List Char)
  | '[' :: rest =>
      let footnote := match rest with
        | '^' :: name => label? (fun _ => none) inTable name
        | _ => none
      match footnote with
      | some (name, after) => some (.footnote name, after)
      | none => (label? nextLine inTable rest).map fun (name, after) => (.link name, after)
  | _ => none

/-- The label and the text behind the colon of a footnote definition. -/
def footnoteOpening? (inTable : Bool) : List Char → Option (List Char × List Char)
  | '[' :: '^' :: rest =>
      match label? (fun _ => none) inTable rest with
      | some (name, ':' :: after) => some (name, after)
      | _ => none
  | _ => none

/-- Labels that differ only in case have one key. -/
def labelKey (name : List Char) : List Char := Text.foldText name

end Bindery.Markdown
