import Bindery.Html.Token.Tag

/-!
# The text of a script

A script ends at its end tag, except where the text has opened a comment and
then a script tag of its own: there the inner script has to end first.
-/

set_option autoImplicit false

namespace Bindery.Html

/-- The rest of a lower-case keyword's text, in any case. -/
def dropKeyword? (keyword : String) (text : List Char) : Option (List Char) :=
  if (text.take keyword.length).map Char.toLower = keyword.toList then
    some (text.drop keyword.length)
  else none

/-- Whether the keyword comes first and is not part of a longer name. -/
def startsWithName (keyword : String) (text : List Char) : Bool :=
  match dropKeyword? keyword text with
  | some (c :: _) => endsTagName c
  | _ => false

/-- How deep the text of a script is inside comments. The number counts the dashes just
read, as far as two. -/
inductive ScriptDepth where
  | plain
  | inComment (dashes : Nat)
  | inInner (dashes : Nat)
  deriving Repr, DecidableEq

/-- The depth behind one more character that opens nothing. -/
def ScriptDepth.pass : ScriptDepth → Char → ScriptDepth
  | .plain, _ => .plain
  | .inComment dashes, c =>
      if c = '-' then .inComment (min 2 (dashes + 1))
      else if c = '>' && dashes = 2 then .plain
      else .inComment 0
  | .inInner dashes, c =>
      if c = '-' then .inInner (min 2 (dashes + 1))
      else if c = '>' && dashes = 2 then .plain
      else .inInner 0

/-- The length of a change of depth behind an opening sign, and the depth behind it. -/
def ScriptDepth.jump? (depth : ScriptDepth) (text : List Char) : Option (Nat × ScriptDepth) :=
  match depth with
  | .plain => if (dropKeyword? "!--" text).isSome then some (3, .inComment 2) else none
  | .inComment _ => if startsWithName "script" text then some (7, .inInner 0) else none
  | .inInner _ => if startsWithName "/script" text then some (8, .inComment 0) else none

def ScriptDepth.seesEnd : ScriptDepth → Bool
  | .inInner _ => false
  | _ => true

/-- Splits the text of a script from its end tag. The number counts characters that a
change of depth still takes, after which the depth holds. -/
def splitScript : Nat → ScriptDepth → List Char → List Char × List Char
  | _, _, [] => ([], [])
  | n + 1, depth, c :: rest =>
      let (content, after) := splitScript n depth rest
      (c :: content, after)
  | 0, depth, c :: rest =>
      if c = '<' then
        if depth.seesEnd && startsWithName "/script" rest then ([], c :: rest)
        else
          let (skipped, depth) := (depth.jump? rest).getD (0, depth.pass c)
          let (content, after) := splitScript skipped depth rest
          (c :: content, after)
      else
        let (content, after) := splitScript 0 (depth.pass c) rest
        (c :: content, after)

end Bindery.Html
