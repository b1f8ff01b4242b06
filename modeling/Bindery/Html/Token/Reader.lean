import Bindery.Html.Token.Declaration
import Bindery.Html.Token.Script

/-!
# Reading a document token by token

One token is read at a time, because what the next characters mean depends on
the element that the last start tag opened.
-/

set_option autoImplicit false

namespace Bindery.Html

/-- How the characters that follow are read. -/
inductive Reading where
  | data
  /-- References count, tags do not, up to the end tag of this name. -/
  | escapable (name : String)
  /-- Neither counts, up to the end tag of this name. -/
  | raw (name : String)
  | script
  /-- A marked section. -/
  | section
  /-- All that follows is text. -/
  | plain
  deriving Repr, DecidableEq, Inhabited

/-- What has been read: a token, if the characters make one, how to go on, and the rest. -/
structure Piece where
  token? : Option Token
  reading : Reading
  rest : List Char

/-- A token behind which the text is read as before. -/
def Piece.of (reading : Reading) (read : Token × List Char) : Piece :=
  ⟨some read.1, reading, read.2⟩

/-- Text of one class. -/
def textToken? : List Char → Option Token
  | [] => none
  | c :: rest =>
      if isTextBlank c then some (.blank (String.ofList (c :: rest)))
      else some (.text (String.ofList (c :: rest)))

/-- Takes characters that are blank as the first one is, up to one that the test stops at. -/
def readRun (reading : Reading) (stops : Char → Bool) (c : Char) (rest : List Char) : Piece :=
  let more := rest.takeWhile fun d => !stops d && isTextBlank d == isTextBlank c
  ⟨textToken? (c :: more), reading, rest.drop more.length⟩

/-- Whether what was taken off the front of a text ends with a semicolon. -/
def closedBy (text rest : List Char) : Bool :=
  (text.take (text.length - rest.length)).getLast? == some ';'

/-- Reads a reference, or an ampersand that begins none. A line feed written without its
semicolon is one of the text: it counts as a line feed behind something else. -/
def readAmpersand (reading : Reading) (text : List Char) : Piece :=
  match readReference false text with
  | some (value, rest) =>
      if value == ['\n'] && !closedBy text rest then ⟨none, reading, '\n' :: rest⟩
      else ⟨textToken? value, reading, rest⟩
  | none => ⟨some (.text "&"), reading, text⟩

def Piece.finish : Piece := ⟨some .finish, .data, []⟩

/-- Reads what stands behind an exclamation mark. Marked sections count only where
`sections` allows them. -/
def readDeclaration (sections : Bool) (text : List Char) : Piece :=
  match Text.dropStart? "--".toList text with
  | some rest => .of .data (readComment rest)
  | none =>
      match dropKeyword? "doctype" text with
      | some rest => .of .data (readDoctype rest)
      | none =>
          match Text.dropStart? "[CDATA[".toList text with
          | some rest =>
              if sections then ⟨none, .section, rest⟩ else .of .data (readStrayComment text)
          | none => .of .data (readStrayComment text)

/-- Reads a token that begins with an opening sign, which is not in the text any more.
A tag that the document cuts off is dropped, and the document ends. -/
def readMarkup (sections : Bool) (text : List Char) : Piece :=
  match text with
  | '!' :: rest => readDeclaration sections rest
  | '?' :: _ => .of .data (readStrayComment text)
  | ['/'] => ⟨some (.text "</"), .data, []⟩
  | '/' :: '>' :: rest => ⟨none, .data, rest⟩
  | '/' :: c :: rest =>
      if c.isAlpha then
        match readNamedTag (c :: rest) with
        | some (tag, after) => ⟨some (.endTag tag), .data, after⟩
        | none => .finish
      else .of .data (readStrayComment (c :: rest))
  | c :: rest =>
      if c.isAlpha then
        match readNamedTag (c :: rest) with
        | some (tag, after) => ⟨some (.startTag tag), .data, after⟩
        | none => .finish
      else ⟨some (.text "<"), .data, text⟩
  | [] => ⟨some (.text "<"), .data, []⟩

def readData (sections : Bool) : List Char → Piece
  | [] => .finish
  | '<' :: rest => readMarkup sections rest
  | '&' :: rest => readAmpersand .data rest
  | '\x00' :: rest => ⟨some .null, .data, rest⟩
  | c :: rest => readRun .data (fun d => d == '<' || d == '&' || d == '\x00') c rest

/-- Reads an end tag that is known to stand behind the opening sign. -/
def readEndTag (text : List Char) : Piece :=
  match readNamedTag (text.drop 1) with
  | some (tag, rest) => ⟨some (.endTag tag), .data, rest⟩
  | none => .finish

/-- The text that takes the place of the character zero. -/
def replaced (reading : Reading) (rest : List Char) : Piece :=
  ⟨some (.text (String.singleton replacement)), reading, rest⟩

def readEscapable (name : String) : List Char → Piece
  | [] => .finish
  | '<' :: rest =>
      if startsWithName ("/" ++ name) rest then readEndTag rest
      else ⟨some (.text "<"), .escapable name, rest⟩
  | '&' :: rest => readAmpersand (.escapable name) rest
  | '\x00' :: rest => replaced (.escapable name) rest
  | c :: rest =>
      readRun (.escapable name) (fun d => d == '<' || d == '&' || d == '\x00') c rest

def readRaw (name : String) : List Char → Piece
  | [] => .finish
  | '<' :: rest =>
      if startsWithName ("/" ++ name) rest then readEndTag rest
      else ⟨some (.text "<"), .raw name, rest⟩
  | '\x00' :: rest => replaced (.raw name) rest
  | c :: rest => readRun (.raw name) (fun d => d == '<' || d == '\x00') c rest

def readScript (text : List Char) : Piece :=
  match splitScript 0 .plain text with
  | ([], []) => .finish
  | ([], _ :: rest) => readEndTag rest
  | (content, rest) => ⟨some (.text (String.ofList (content.map withoutNull))), .script, rest⟩

def readSection : List Char → Piece
  | [] => .finish
  | ']' :: ']' :: '>' :: rest => ⟨none, .data, rest⟩
  | '\x00' :: rest => ⟨some .null, .section, rest⟩
  | c :: rest => readRun .section (fun d => d == ']' || d == '\x00') c rest

def readPlain : List Char → Piece
  | [] => .finish
  | text => ⟨some (.text (String.ofList (text.map withoutNull))), .plain, []⟩

def Reading.next (reading : Reading) (sections : Bool) (text : List Char) : Piece :=
  match reading with
  | .data => readData sections text
  | .escapable name => readEscapable name text
  | .raw name => readRaw name text
  | .script => readScript text
  | .section => readSection text
  | .plain => readPlain text

end Bindery.Html
