import Bindery.Error
import Bindery.Text.Lines

/-!
# File trees

A tree holds files at their locations: the names on the way from the top to them.
Paths are walked from the top or from the working directory, and links are followed.
-/

set_option autoImplicit false

namespace Bindery.Files

/-- The names from the top of a tree down to an entry. -/
abbrev Location := List String

/-- What stands at a location. -/
inductive Entry where
  /-- A file, with its content if that is text. -/
  | file (content : Option String)
  | directory
  | link (target : String)
  deriving Repr, DecidableEq, Inhabited

/-- Entries below the top, and a working directory. No location has two entries. -/
structure FileTree where
  here : Location
  entries : List (Location × Entry)
  distinct : (entries.map (·.1)).Nodup

namespace FileTree

instance : Inhabited FileTree := ⟨⟨[], [], List.nodup_nil⟩⟩

/-- What stands at a location. The top is a directory. -/
def at? (tree : FileTree) (location : Location) : Option Entry :=
  if location = [] then some .directory
  else (tree.entries.find? fun item => item.1 = location).map (·.2)

/-- Puts an entry at a location, whatever stood there. -/
def put (tree : FileTree) (location : Location) (entry : Entry) : FileTree where
  here := tree.here
  entries := (location, entry) :: tree.entries.filter fun item => item.1 ≠ location
  distinct := by
    have kept : ((tree.entries.filter fun item => item.1 ≠ location).map (·.1)).Nodup :=
      tree.distinct.sublist (List.filter_sublist.map _)
    exact List.nodup_cons.mpr ⟨by simp, kept⟩

/-- Puts a directory at a location if nothing stands there. -/
def putDirectory (tree : FileTree) (location : Location) : FileTree :=
  if (tree.at? location).isSome then tree else tree.put location .directory

/-- Puts an entry at a location, and directories above it where nothing stands. -/
def putBelow (tree : FileTree) (location : Location) (entry : Entry) : FileTree :=
  let counts := List.range location.length
  (counts.foldl (fun tree count => tree.putDirectory (location.take count)) tree).put location entry

/-- The tree with a working directory and entries seen from there. -/
def ofList (here : Location) (entries : List (Location × Entry)) : FileTree :=
  let bare : FileTree := ⟨here, [], List.nodup_nil⟩
  entries.foldl (fun tree item => tree.putBelow (here ++ item.1) item.2)
    (if here = [] then bare else bare.putBelow here .directory)

/-- How many bytes a name may have. -/
def maxNameSize : Nat := 255

/-- How many bytes a path may have, the zero byte behind it included. -/
def maxPathSize : Nat := 4096

/-- How many links one walk may follow. -/
def maxLinks : Nat := 40

/-- Walks along the pieces of a path. The first argument goes on behind a link. -/
def walkWith (tree : FileTree)
    (jump : Location → (target : String) → List String → Except FileError Location) :
    Location → List String → Except FileError Location
  | location, [] => .ok location
  | location, piece :: rest =>
      if tree.at? location ≠ some .directory then .error .notDirectory
      else if piece = "." then walkWith tree jump location rest
      else if piece = ".." then walkWith tree jump location.dropLast rest
      else if maxNameSize < piece.utf8ByteSize then .error .nameTooLong
      else
        match tree.at? (location ++ [piece]) with
        | none => .error .missing
        | some (.link target) => jump location target rest
        | some _ => walkWith tree jump (location ++ [piece]) rest

def start (path : String) (directory : Location) : Location :=
  if Path.isAbsolute path then [] else directory

/-- Walks along the pieces of a path and follows at most the given number of links. -/
def walk (tree : FileTree) : Nat → Location → List String → Except FileError Location
  | 0 => walkWith tree fun _ _ _ => .error .tooManyLinks
  | links + 1 => walkWith tree fun location target rest =>
      walk tree links (start target location) (Path.steps target ++ rest)

/-- Walks along the pieces of a path from where it starts. -/
def walkFrom (tree : FileTree) (path : String) (pieces : List String) :
    Except FileError Location :=
  tree.walk maxLinks (start path tree.here) pieces

/-- Whether a path has a form that can be looked up at all. -/
def checkPath (path : String) : Except FileError Unit :=
  if path.toList.contains '\x00' then .error .nulInName
  else if path = "" then .error .missing
  else if maxPathSize ≤ path.utf8ByteSize then .error .nameTooLong
  else .ok ()

def resolve (tree : FileTree) (path : String) : Except FileError Location := do
  checkPath path
  tree.walkFrom path (Path.steps path)

def lookup? (tree : FileTree) (path : String) : Option Entry :=
  (tree.resolve path).toOption.bind tree.at?

def isDirectory (tree : FileTree) (path : String) : Bool := tree.lookup? path = some .directory

def isFile (tree : FileTree) (path : String) : Bool :=
  match tree.lookup? path with
  | some (.file _) => true
  | _ => false

/-- The text of the file that a path leads to, as it stands. -/
def readRaw (tree : FileTree) (path : String) : Except FileError String := do
  let location ← tree.resolve path
  match tree.at? location with
  | some (.file (some text)) => .ok text
  | some (.file none) => .error .notText
  | some .directory => .error .isDirectory
  | _ => .error .missing

/-- The text of the file that a path leads to, with plain line feeds. -/
def read (tree : FileTree) (path : String) : Except FileError String :=
  (tree.readRaw path).map fun text => String.ofList (Text.unixEndings text.toList)

/-- What follows the location of a directory in the location of an entry below it. -/
def below? : (directory location : Location) → Option Location
  | [], [] => none
  | [], rest => some rest
  | _ :: _, [] => none
  | name :: directory, other :: location =>
      if name = other then below? directory location else none

/-- The entries below the directory that a path leads to, seen from there. -/
def descendants (tree : FileTree) (path : String) : List (Location × Entry) :=
  match tree.resolve path with
  | .ok directory =>
      tree.entries.filterMap fun item => (below? directory item.1).map fun rest => (rest, item.2)
  | .error _ => []

/-- The names in the directory that a path leads to. -/
def list (tree : FileTree) (path : String) : List String :=
  (tree.descendants path).filterMap fun item =>
    match item.1 with
    | [name] => some name
    | _ => none

end FileTree

end Bindery.Files
