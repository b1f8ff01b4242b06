/-!
# JSON

Values of JSON as far as a report needs them, and their text with one entry a line.
-/

set_option autoImplicit false

namespace Bindery.Command

inductive Json where
  | null
  | number (value : Nat)
  | text (value : String)
  | list (items : List Json)
  | record (fields : List (String × Json))
  deriving Inhabited

namespace Json

/-- A character as it stands between the quotes of a JSON text. -/
def escapedChar (c : Char) : List Char :=
  match c with
  | '"' => ['\\', '"']
  | '\\' => ['\\', '\\']
  | '\n' => ['\\', 'n']
  | '\r' => ['\\', 'r']
  | '\t' => ['\\', 't']
  | '\x08' => ['\\', 'b']
  | '\x0c' => ['\\', 'f']
  | c =>
      if c.toNat < 16 then "\\u000".toList ++ Nat.toDigits 16 c.toNat
      else if c.toNat < 32 then "\\u00".toList ++ Nat.toDigits 16 c.toNat
      else [c]

def quoted (text : String) : String :=
  String.ofList ('"' :: text.toList.flatMap escapedChar ++ ['"'])

/-- A new line with the given number of steps of indentation. -/
def newLine (depth : Nat) : String := "\n" ++ String.ofList (List.replicate (2 * depth) ' ')

/-- Entries between brackets, each on a line of its own. -/
def enclose (opening closing : String) (depth : Nat) : List String → String
  | [] => opening ++ closing
  | entries =>
      opening ++ String.intercalate "," (entries.map (newLine (depth + 1) ++ ·))
        ++ newLine depth ++ closing

mutual

/-- The text of a value that stands at the given depth. -/
def write (depth : Nat) : Json → String
  | .null => "null"
  | .number value => toString value
  | .text value => quoted value
  | .list items => enclose "[" "]" depth (writeItems (depth + 1) items)
  | .record fields => enclose "\x7b" "\x7d" depth (writeFields (depth + 1) fields)

def writeItems (depth : Nat) : List Json → List String
  | [] => []
  | item :: rest => write depth item :: writeItems depth rest

def writeFields (depth : Nat) : List (String × Json) → List String
  | [] => []
  | (name, value) :: rest => (quoted name ++ ": " ++ write depth value) :: writeFields depth rest

end

def pretty (value : Json) : String := write 0 value

end Json

end Bindery.Command
