import Bindery.Command.Run

/-!
# The command line

Reads the book from the disk, runs the command, and prints and writes what it says.
-/

set_option autoImplicit false

open Bindery

/-- Entries read from the disk, and the directories that have been read. -/
structure Loaded where
  entries : Array (Files.Location × Files.Entry) := #[]
  directories : List String := []

/-- Reads the entries of a directory and what links in it point to. -/
partial def load (path : String) (loaded : Loaded) : IO Loaded := do
  let directory ← IO.FS.realPath path
  let above := Files.Path.pieces directory.toString
  if loaded.directories.contains directory.toString then return loaded
  let mut loaded := { loaded with
    entries := loaded.entries.push (above, .directory)
    directories := directory.toString :: loaded.directories }
  for child in ← directory.readDir do
    let location := above ++ [child.fileName]
    match (← child.path.symlinkMetadata).type with
    | .dir => loaded ← load child.path.toString loaded
    | .file =>
        let content := String.fromUTF8? (← IO.FS.readBinFile child.path)
        loaded := { loaded with entries := loaded.entries.push (location, .file content) }
    | .symlink =>
        try
          let target ← IO.FS.realPath child.path
          let link := Files.Entry.link target.toString
          loaded := { loaded with entries := loaded.entries.push (location, link) }
          if ← target.isDir then loaded ← load target.toString loaded
          else
            let content := String.fromUTF8? (← IO.FS.readBinFile target)
            let file := (Files.Path.pieces target.toString, Files.Entry.file content)
            loaded := { loaded with entries := loaded.entries.push file }
        catch _ => pure ()
    | .other => pure ()
  return loaded

/-- The tree that holds a book. -/
def loadTree (root : String) : IO Files.FileTree := do
  let here := Files.Path.pieces (← IO.currentDir).toString
  let loaded ← try load root {} catch _ => pure {}
  let rooted := (Files.FileTree.ofList [] loaded.entries.toList).putBelow here .directory
  return { rooted with here }

/-- The value of a variable, if it is set. -/
def readVariable (name : String) : IO (Option (String × String)) := do
  return (← IO.getEnv name).map fun value => (name, value)

/-- The variables that the command looks at. -/
def environment : IO Command.Environment := do
  let names := Command.Switch.all.map Command.Switch.variable ++
    [Command.Parameter.output.variable, Command.Parameter.concurrency.variable]
  return (← names.mapM readVariable).filterMap id

/-- Writes a file by way of another one beside it. -/
def store (path contents : String) : IO Unit := do
  let above := Files.Path.pieces path |>.dropLast
  let start := if Files.Path.isAbsolute path then "/" else "./"
  let directory := start ++ String.intercalate "/" above
  IO.FS.createDirAll directory
  let draft := directory ++ "/.draft"
  IO.FS.writeFile draft contents
  IO.FS.rename draft path

/-- Prints what the command prints. -/
def finish (outcome : Command.Outcome) : IO UInt32 := do
  IO.print outcome.out
  IO.eprint outcome.err
  return outcome.status.toUInt32

def main (arguments : List String) : IO UInt32 := do
  match Command.Options.read arguments (← environment) with
  | .error stop => finish (Command.stopped default stop)
  | .ok options =>
      let began ← IO.monoMsNow
      let tree ← loadTree options.root
      let made ← IO.lazyPure fun _ => Command.makeEdition options tree
      let ended ← IO.monoMsNow
      let outcome := Command.conclude options (ended - began) tree made
      if let (0, some path) := (outcome.status, options.output) then
        if let .ok contents := outcome.tree.readRaw path then
          store path contents
      finish outcome
