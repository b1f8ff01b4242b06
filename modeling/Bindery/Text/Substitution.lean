/-!
# Substitution from left to right

A rule looks at what starts at a place: it says how many characters it takes
there and what they become. Substitution goes on behind the characters taken, and
what has been written is not looked at again.
-/

set_option autoImplicit false

namespace Bindery.Text

/-- What a rule takes at the start of a text, and what that becomes. -/
abbrev Rule := List Char → Option (Nat × List Char)

/-- Applies a rule at every place where it fits, leftmost first. The number counts the
characters that the last use of the rule still takes. -/
def substituteAfter (rule : Rule) : Nat → List Char → List Char
  | _, [] => []
  | taken + 1, _ :: rest => substituteAfter rule taken rest
  | 0, c :: rest =>
      match rule (c :: rest) with
      | some (length, written) => written ++ substituteAfter rule (length - 1) rest
      | none => c :: substituteAfter rule 0 rest

def substitute (rule : Rule) (text : List Char) : List Char := substituteAfter rule 0 text

end Bindery.Text
