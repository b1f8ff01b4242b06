import Bindery.Text.Blank

/-!
# Paths

A path is a text; slashes separate its names. Repeated slashes and names of a
single dot say nothing, except a dot at the start.
-/

set_option autoImplicit false

namespace Bindery.Files.Path

def isAbsolute (path : String) : Bool := path.toList.head? == some '/'

/-- A path seen from a directory. An absolute path replaces the directory. -/
def join (directory path : String) : String :=
  if isAbsolute path then path
  else
    match directory.toList.getLast? with
    | none => path
    | some '/' => directory ++ path
    | some _ => directory ++ "/" ++ path

def pieces (path : String) : List String :=
  ((Text.splitWhere (· == '/') path.toList).filter fun piece => piece != []).map String.ofList

/-- Whether a path ends in a slash, so that it can only mean a directory. -/
def endsInSlash (path : String) : Bool := path.toList.getLast? == some '/'

/-- The pieces to walk along. A slash at the end asks for a directory, as a dot would. -/
def steps (path : String) : List String :=
  if endsInSlash path then pieces path ++ ["."] else pieces path

/-- The names of a path between its slashes, as far as they say something. -/
def names (path : String) : List (List Char) :=
  let pieces := Text.splitWhere (· == '/') path.toList
  let kept := pieces.filter fun piece => piece != [] && piece != ['.']
  if pieces.head? = some ['.'] then ['.'] :: kept else kept

/-- The last name, unless it stands for a directory above or the current one. -/
def fileName? (path : String) : Option (List Char) :=
  match (names path).getLast? with
  | some ['.'] => none
  | some ['.', '.'] => none
  | last => last

/-- The text before the last separator and the text behind it, if there is one. -/
def splitLast (separator : Char) (text : List Char) : Option (List Char × List Char) :=
  let tail := text.reverse.takeWhile (· != separator)
  if tail.length = text.length then none
  else some (text.take (text.length - tail.length - 1), tail.reverse)

/-- What stands behind the last dot of the file name. A dot that comes first begins no
extension. -/
def extension? (path : String) : Option (List Char) :=
  match (fileName? path).bind (splitLast '.') with
  | some ([], _) => none
  | some (_, extension) => some extension
  | none => none

def lowerExtension? (path : String) : Option String :=
  (extension? path).map fun extension => String.ofList (extension.map Char.toLower)

end Bindery.Files.Path
