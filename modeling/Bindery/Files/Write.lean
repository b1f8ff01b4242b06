import Bindery.Files.Tree

/-!
# Writing files

A file is written in one step: it has its whole new content or stays as it was. The
content is written to a temporary file beside it, which then takes its name. Directories
that are missing above it are made first, and stay even if the file cannot be written.
-/

set_option autoImplicit false

namespace Bindery.Files

/-- What the system that holds the files decides while one of them is written. -/
structure System where
  /-- Why no directory is made at a location, if none is. -/
  refusesDirectory : Location → Option FileError
  /-- The names that are tried for the temporary file, by their number. -/
  temporaryName : Nat → String
  /-- Why no temporary file is made, if none is. -/
  refusesTemporary : Option FileError
  /-- What the temporary file holds when the writing stops before its end, and why it stops. -/
  stopsWriting : Option (Option String × FileError)
  /-- Why the temporary file does not take its new name, if it does not. -/
  refusesName : Option FileError

/-- A system that refuses nothing. -/
def System.calm : System where
  refusesDirectory _ := none
  temporaryName number := ".tmp" ++ toString number
  refusesTemporary := none
  stopsWriting := none
  refusesName := none

namespace FileTree

/-- Takes away what stands at a location. -/
def remove (tree : FileTree) (location : Location) : FileTree where
  here := tree.here
  entries := tree.entries.filter fun item => item.1 ≠ location
  distinct := tree.distinct.sublist (List.filter_sublist.map _)

/-- The directory in which the last of some pieces is to stand, and that last piece. -/
def splitTarget (tree : FileTree) (path : String) (pieces : List String) :
    Except FileError (Location × Option String) := do
  let above ← tree.walkFrom path pieces.dropLast
  if tree.at? above = some .directory then .ok (above, pieces.getLast?)
  else .error .notDirectory

/-- Makes the directory that the pieces of a path mean. -/
def makeDirectory (tree : FileTree) (system : System) (path : String) (pieces : List String) :
    Except FileError FileTree := do
  match ← tree.splitTarget path pieces with
  | (_, none) => .error .exists
  | (above, some name) =>
      if name = "." ∨ name = ".." then .error .exists
      else if maxNameSize < name.utf8ByteSize then .error .nameTooLong
      else if (tree.at? (above ++ [name])).isSome then .error .exists
      else
        match system.refusesDirectory (above ++ [name]) with
        | some error => .error error
        | none => .ok (tree.put (above ++ [name]) .directory)

/-- Whether the pieces of a path lead to a directory. -/
def leadsToDirectory (tree : FileTree) (path : String) (pieces : List String) : Bool :=
  (tree.walkFrom path pieces).toOption.bind tree.at? = some .directory

/-- A failure to make a directory counts for nothing if the directory is there. -/
def unlessDirectory (tree : FileTree) (path : String) (pieces : List String)
    (error : FileError) : FileTree × Except FileError Unit :=
  if tree.leadsToDirectory path pieces then (tree, .ok ()) else (tree, .error error)

/-- Makes a directory and those above it that are missing. The pieces come in reverse. -/
def makeDirectories (tree : FileTree) (system : System) (path : String) :
    List String → FileTree × Except FileError Unit
  | [] => (tree, .ok ())
  | name :: above =>
      let pieces := above.reverse ++ [name]
      match tree.makeDirectory system path pieces with
      | .ok tree => (tree, .ok ())
      | .error .missing =>
          match tree.makeDirectories system path above with
          | (tree, .ok ()) =>
              match tree.makeDirectory system path pieces with
              | .ok tree => (tree, .ok ())
              | .error error => tree.unlessDirectory path pieces error
          | failed => failed
      | .error error => tree.unlessDirectory path pieces error

/-- The pieces of the directory that a path lies in, in reverse. -/
def directoryAbove (path : String) : List String :=
  ((Path.pieces path).filter (· ≠ ".")).reverse.drop 1

/-- Makes an empty file in the directory that a path lies in. Of as many names as could
be taken there and one more, it gets the first that is free. -/
def makeTemporary (tree : FileTree) (system : System) (path : String) :
    Except FileError (Location × FileTree) := do
  let above ← tree.walkFrom path (directoryAbove path).reverse
  if tree.at? above ≠ some .directory then .error .notDirectory
  else
    match system.refusesTemporary with
    | some error => .error error
    | none =>
        let places := (List.range (tree.entries.length + 1)).map fun number =>
          above ++ [system.temporaryName number]
        match places.find? fun place => (tree.at? place).isNone with
        | none => .error .exists
        | some place => .ok (place, tree.put place (.file (some "")))

/-- Writes a content to a temporary file. -/
def fill (tree : FileTree) (system : System) (temporary : Location) (contents : String) :
    FileTree × Except FileError Unit :=
  match system.stopsWriting with
  | none => (tree.put temporary (.file (some contents)), .ok ())
  | some (part, error) => (tree.put temporary (.file part), .error error)

/-- Whether one of the pieces has a zero byte. -/
def hasNul (pieces : List String) : Bool := pieces.any fun piece => piece.toList.contains '\x00'

/-- Where a path means a file to be put. What a link stands for is left alone. -/
def placeFor (tree : FileTree) (path : String) : Except FileError Location := do
  if hasNul (Path.pieces path) then .error .invalidArgument
  else
    checkPath path
    let (above, last) ← tree.splitTarget path (Path.pieces path)
    match last with
    | none => .error .busy
    | some name =>
        if name = "." ∨ name = ".." then .error .busy
        else if maxNameSize < name.utf8ByteSize then .error .nameTooLong
        else if Path.endsInSlash path then .error .notDirectory
        else if tree.at? (above ++ [name]) = some .directory then .error .isDirectory
        else .ok (above ++ [name])

/-- Gives a temporary file the name that a path means, whatever file had this name. -/
def rename (tree : FileTree) (system : System) (temporary : Location) (path : String) :
    Except FileError FileTree := do
  let place ← tree.placeFor path
  match system.refusesName, tree.at? temporary with
  | some error, _ => .error error
  | none, none => .error .missing
  | none, some entry => .ok ((tree.remove temporary).put place entry)

/-- Writes a content to a temporary file and gives it its name. The temporary file goes
if one of the two fails. -/
def writeThrough (tree : FileTree) (system : System) (temporary : Location)
    (path contents : String) : FileTree × Except FileError Unit :=
  let (tree, filled) := tree.fill system temporary contents
  match filled.bind fun _ => tree.rename system temporary path with
  | .ok tree => (tree, .ok ())
  | .error error => (tree.remove temporary, .error error)

/-- Writes a file and the directories that are missing above it. -/
def writeOn (tree : FileTree) (system : System) (path contents : String) :
    FileTree × Except FileError Unit :=
  if hasNul (directoryAbove path) then (tree, .error .nulInName)
  else
    match tree.makeDirectories system path (directoryAbove path) with
    | (tree, .error error) => (tree, .error error)
    | (tree, .ok ()) =>
        match tree.makeTemporary system path with
        | .error error => (tree, .error error)
        | .ok (temporary, tree) => tree.writeThrough system temporary path contents

end FileTree

end Bindery.Files
