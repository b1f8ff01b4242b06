import Bindery.Chapter
import Bindery.Files.Tree

/-!
# Finding the chapters of a book

Each file and each directory right below the text directory is a chapter, if it
holds anything to render. Hidden names, drafts, changelogs and tables of contents
are left out. The order is that of the names.
-/

set_option autoImplicit false

namespace Bindery.Discovery

open Files (FileTree Location Entry)

/-- The extensions of files that can be rendered, in lower case. -/
def extensions : List String := ["md", "mkdn", "markdown", "textile", "html"]

/-- Whether a path has an extension of a file that can be rendered. -/
def isRenderable (path : String) : Bool :=
  match Files.Path.lowerExtension? path with
  | some extension => extensions.contains extension
  | none => false

/-- Whether a name is one of the given words, a dot, and more on the same line. -/
def isNamed (words : List String) (name : String) : Bool :=
  match Text.splitOnce '.' name.toList with
  | some (start, rest) =>
      words.contains (String.ofList (start.map Char.toLower)) && !rest.contains '\n'
  | none => false

/-- Changelogs and tables of contents are no chapters. -/
def isReserved (name : String) : Bool := isNamed ["changelog", "toc"] name

/-- Hidden names start with a dot, and names of drafts with a low line. -/
def isSkipped (name : String) : Bool :=
  match name.toList with
  | '.' :: _ => true
  | '_' :: _ => true
  | _ => false

/-- A path below a directory, name by name. -/
def pathBelow (directory : String) (location : Location) : String :=
  location.foldl Files.Path.join directory

/-- Whether an entry is a file that can be rendered. -/
def isChapterEntry (item : Location × Entry) : Bool :=
  match item.2, item.1.getLast? with
  | .file _, some name => isRenderable name
  | _, _ => false

/-- Whether the directory that holds an entry can be read, which takes a path that is not too long.
The directories above it have shorter ones. -/
def isReached (directory : String) (location : Location) : Bool :=
  (pathBelow directory location.dropLast).utf8ByteSize < FileTree.maxPathSize

/-- Whether a location is another one or stands before it: the first name in which they differ
decides, and what is above comes first. -/
def isUpTo : Location → Location → Bool
  | [], _ => true
  | _ :: _, [] => false
  | name :: rest, other :: others => name < other || (name == other && isUpTo rest others)

/-- The files to render below a directory, sorted name by name. -/
def filesBelow (tree : FileTree) (directory : String) : List String :=
  let items := (tree.descendants directory).filter fun item =>
    isChapterEntry item && isReached directory item.1
  ((items.map (·.1)).mergeSort isUpTo).map (pathBelow directory)

/-- The files of the chapter that a name stands for. -/
def chapterFiles (tree : FileTree) (directory name : String) : List String :=
  let path := Files.Path.join directory name
  if tree.isDirectory path then filesBelow tree path
  else if tree.isFile path && isRenderable path && !isReserved name then [path]
  else []

/-- The chapter that a name stands for, if there is something to render. -/
def chapter? (tree : FileTree) (directory name : String) : Option Chapter :=
  if isSkipped name then none
  else
    match chapterFiles tree directory name with
    | [] => none
    | files => some ⟨name, files⟩

def sortedNames (tree : FileTree) (directory : String) : List String :=
  (tree.list directory).mergeSort fun a b => decide (a ≤ b)

def chapters (tree : FileTree) (directory : String) : Except BookError (List Chapter) :=
  if tree.isDirectory directory then
    .ok ((sortedNames tree directory).filterMap (chapter? tree directory))
  else .error (.noTextDirectory directory)

/-- Whether a name in the directory is that of a changelog. -/
def isChangelog (tree : FileTree) (directory name : String) : Bool :=
  (Text.dropStart? "CHANGELOG.".toList name.toList).isSome &&
    tree.isFile (Files.Path.join directory name)

def changelog? (tree : FileTree) (directory : String) : Option String :=
  ((sortedNames tree directory).find? (isChangelog tree directory)).map
    (Files.Path.join directory)

end Bindery.Discovery
