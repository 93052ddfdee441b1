import DocAtlas.CommandLine.Run
import DocAtlas.Service.Routing
import DocAtlas.Yaml

/-!
# The program

Reads what a run can meet on the disk into a file tree, runs the program on that tree,
and writes back what the run has changed. A service answers the requests that stand on
the lines of standard input, the words of a request apart by tabs.
-/

namespace DocAtlas.Program

open CommandLine

def diskName (place : FileTree.Place) : String := String.ofList (Path.toText ⟨['/'], place⟩)

/-! ## Reading the disk -/

def addPlace (tree : FileTree) (place : FileTree.Place) : IO FileTree := do
  let here ← IO.currentDir
  let mut known := tree
  for beginning in FileTree.beginnings place do
    let path := here / diskName beginning
    if ← path.isDir then
      known := { known with folders := known.folders ++ [beginning] }
    else if ← path.pathExists then
      known := known.put beginning (← IO.FS.readBinFile path).toList
  return known

def addPath (directory : Path) (tree : FileTree) (path : Path) : IO FileTree :=
  addPlace tree (Path.resolve directory path).parts

/-- Adds a folder and everything below it. A link to a folder is taken for an empty one. -/
partial def addFolder (tree : FileTree) (place : FileTree.Place) : IO FileTree := do
  let here ← IO.currentDir
  let mut known := { tree with folders := tree.folders ++ [place] }
  for item in ← (here / diskName place).readDir do
    let inner := place ++ [item.fileName.toList]
    match (← item.path.symlinkMetadata).type with
    | .dir => known ← addFolder known inner
    | _ => known ← addPlace known inner
  return known

def pathsBeside (invocation : Invocation) (settings : Option Settings) : List Path :=
  let asked := match invocation.command with
    | .build output _ => output.toList
    | _ => []
  let set := match settings with
    | some settings => settings.symbols.toList ++ settings.output.toList
    | none => []
  (invocation.logFile.bind id).toList ++ asked ++ set

/-- What is at a path and, if that is a project, all that its settings can lead to. -/
def readTree (directory : Path) (invocation : Invocation) (path : Path) : IO FileTree := do
  let start ← addPath directory (← addPlace .empty directory.parts) path
  let project ← match Settings.fileFor start directory path with
    | .ok file =>
      if start.isFolder file.parent.parts then addFolder start file.parent.parts
      else pure start
    | .error _ => pure start
  let settings := (Settings.load Yaml.read project directory path).toOption
  (pathsBeside invocation settings).foldlM (addPath directory) project

/-! ## Homes -/

def homesOf (accounts : Text) : List (Text × Path) :=
  (Text.lines accounts).filterMap fun line =>
    let fields := Text.splitOn ':' line
    fields.head?.bind fun name => fields[5]?.map fun home => (name, .ofText home)

def readHomes : IO (Text → Option Path) := do
  let own := (← IO.getEnv "HOME").map fun home => Path.ofText home.toList
  let accounts ← try IO.FS.readFile "/etc/passwd" catch _ => pure ""
  let homes := homesOf accounts.toList
  return fun owner => if owner.isEmpty then own else homes.lookup owner

/-! ## Writing -/

def writeChanges (before after : FileTree) : IO Unit := do
  let here ← IO.currentDir
  for folder in after.folders do
    unless before.isFolder folder do
      IO.FS.createDirAll (here / diskName folder)
  for (place, content) in after.files do
    unless before.file? place == some content do
      IO.FS.writeBinFile (here / diskName place) ⟨content.toArray⟩

/-! ## Serving -/

def answerText : Except Failure Service.Response → Text
  | .ok response =>
    Text.unwords (Text.natText response.status :: (response.body.map (Json.print 0)).toList)
  | .error failure => Text.unwords [Text.natText 500, failure.message]

partial def serve (built : Except Failure Model) (state : Service.State) : IO Unit := do
  let line ← (← IO.getStdin).getLine
  if line.isEmpty then return
  let request := Service.Request.ofWords (Text.splitOn '\t' (Text.trimNewlines line.toList))
  let (answer, next) := Service.handle .byPath built state request
  IO.println (String.ofList (answerText answer))
  serve built next

/-! ## A run on the disk -/

def finish (outcome : Outcome) : IO UInt32 := do
  IO.print (String.ofList outcome.printed)
  IO.eprint (String.ofList outcome.reported)
  match outcome.ending with
  | .finished status => return status.toUInt32
  | .refused .help => return 0
  | .refused .usage => return 2
  | .serving settings _ _ =>
    serve (Project.build Yaml.read outcome.tree settings).model .start
    return 0
  | .failed failure =>
    IO.eprintln (String.ofList failure.message)
    return 1

def runOnDisk (arguments : List Text) : IO UInt32 := do
  let directory := Path.ofText (← IO.currentDir).toString.toList
  let homes ← readHomes
  let tree ← match Invocation.ofArguments arguments with
    | .ok invocation =>
      let path := (Settings.atHome homes invocation.path).toOption.getD invocation.path
      readTree directory invocation path
    | .error _ => pure .empty
  let outcome := run Yaml.read tree homes directory arguments
  writeChanges tree outcome.tree
  finish outcome

end DocAtlas.Program

def main (arguments : List String) : IO UInt32 :=
  DocAtlas.Program.runOnDisk (arguments.map (·.toList))
