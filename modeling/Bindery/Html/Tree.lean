/-!
# Trees of elements, text and comments

The tree is generic in what its elements carry, so that a pass can attach
something to each element and take it off again without touching the rest.
-/

set_option autoImplicit false

namespace Bindery.Html

/-- A tree whose elements carry a label. -/
inductive Tree (α : Type) where
  | element (label : α) (children : List (Tree α))
  | text (content : String)
  | comment (content : String)
  deriving Repr, Inhabited

namespace Tree

variable {α β : Type}

mutual

def decideEq [DecidableEq α] : (left right : Tree α) → Decidable (left = right)
  | .element label children, .element other others =>
      match decEq label other, decideEqAll children others with
      | isTrue sameLabel, isTrue sameChildren => isTrue (by rw [sameLabel, sameChildren])
      | isFalse different, _ => isFalse fun same => different (Tree.element.inj same).1
      | _, isFalse different => isFalse fun same => different (Tree.element.inj same).2
  | .text content, .text other =>
      decidable_of_iff (content = other) ⟨fun same => by rw [same], Tree.text.inj⟩
  | .comment content, .comment other =>
      decidable_of_iff (content = other) ⟨fun same => by rw [same], Tree.comment.inj⟩
  | .element _ _, .text _ => isFalse nofun
  | .element _ _, .comment _ => isFalse nofun
  | .text _, .element _ _ => isFalse nofun
  | .text _, .comment _ => isFalse nofun
  | .comment _, .element _ _ => isFalse nofun
  | .comment _, .text _ => isFalse nofun

def decideEqAll [DecidableEq α] : (left right : List (Tree α)) → Decidable (left = right)
  | [], [] => isTrue rfl
  | tree :: rest, other :: others =>
      match decideEq tree other, decideEqAll rest others with
      | isTrue sameTree, isTrue sameRest => isTrue (by rw [sameTree, sameRest])
      | isFalse different, _ => isFalse fun same => different (List.cons.inj same).1
      | _, isFalse different => isFalse fun same => different (List.cons.inj same).2
  | [], _ :: _ => isFalse nofun
  | _ :: _, [] => isFalse nofun

end

instance [DecidableEq α] : DecidableEq (Tree α) := decideEq

mutual

def map (change : α → β) : Tree α → Tree β
  | .element label children => .element (change label) (mapAll change children)
  | .text content => .text content
  | .comment content => .comment content

def mapAll (change : α → β) : List (Tree α) → List (Tree β)
  | [] => []
  | tree :: rest => map change tree :: mapAll change rest

end

mutual

def labels : Tree α → List α
  | .element label children => label :: labelsAll children
  | .text _ => []
  | .comment _ => []

def labelsAll : List (Tree α) → List α
  | [] => []
  | tree :: rest => labels tree ++ labelsAll rest

end

mutual

/-- The first element, in document order, whose label satisfies the test. -/
def first? (wanted : α → Bool) : Tree α → Option (Tree α)
  | .element label children =>
      if wanted label then some (.element label children) else firstOf? wanted children
  | .text _ => none
  | .comment _ => none

def firstOf? (wanted : α → Bool) : List (Tree α) → Option (Tree α)
  | [] => none
  | tree :: rest => (first? wanted tree).or (firstOf? wanted rest)

end

mutual

/-- Puts a tree before the first child of the first element, in document order,
whose label satisfies the test. Nothing comes back if there is no such element. -/
def prependIn? (wanted : α → Bool) (child : Tree α) : Tree α → Option (Tree α)
  | .element label children =>
      if wanted label then some (.element label (child :: children))
      else (prependInAny? wanted child children).map (.element label ·)
  | .text _ => none
  | .comment _ => none

def prependInAny? (wanted : α → Bool) (child : Tree α) : List (Tree α) → Option (List (Tree α))
  | [] => none
  | tree :: rest =>
      match prependIn? wanted child tree with
      | some changed => some (changed :: rest)
      | none => (prependInAny? wanted child rest).map (tree :: ·)

end

mutual

/-- All text below a node, without comments. -/
def textContent : Tree α → String
  | .element _ children => textContentAll children
  | .text content => content
  | .comment _ => ""

def textContentAll : List (Tree α) → String
  | [] => ""
  | tree :: rest => textContent tree ++ textContentAll rest

end

def children : Tree α → List (Tree α)
  | .element _ children => children
  | .text _ => []
  | .comment _ => []

def label? : Tree α → Option α
  | .element label _ => some label
  | .text _ => none
  | .comment _ => none

def isElement (tree : Tree α) : Bool := tree.label?.isSome

end Tree

end Bindery.Html
