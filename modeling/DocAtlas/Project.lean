import DocAtlas.Settings.File
import DocAtlas.Symbol.File

/-!
# Projects

A project is a folder with settings: its source files are those that the settings'
patterns select and its exclusions leave, in the order of the patterns, each file once.
A file that is not readable as a text is skipped with a warning.
-/

namespace DocAtlas

namespace Project

/-! ## Selecting the sources -/

/-- Whether a pattern excludes a path: it matches the whole path, or it names a folder
around it. -/
def excludedBy (path pattern : Text) : Bool :=
  Wildcard.matchesText pattern path ||
    Text.startsWith (Text.dropEndWhile (· == '/') pattern ++ ['/']) path

def isExcluded (patterns : List Text) (path : Text) : Bool := patterns.any (excludedBy path)

def selectOne (tree : FileTree) (root : List Text) (pattern : Text) :
    Except Failure (List (List Text)) := do
  let glob ← (Glob.ofText pattern).mapError .pattern
  (Glob.select tree root glob).mapError .tree

/-- The names that lead to the files that some patterns select, in order, and the failure
of the first text that is no pattern or cannot be followed; the patterns behind that select
nothing. -/
def selectFrom (tree : FileTree) (root : List Text) (seen : List (List Text)) :
    List Text → List (List Text) × Option Failure
  | [] => ([], none)
  | pattern :: rest =>
    match selectOne tree root pattern with
    | .error failure => ([], some failure)
    | .ok selected =>
      let found := selected.filter fun names =>
        tree.isFileAt (root ++ names) && !seen.contains names
      let (later, failure) := selectFrom tree root (seen ++ found) rest
      (found ++ later, failure)

structure SourceFile where
  path : Text
  text : Except FileTree.TextFault Text

namespace SourceFile

def source? (file : SourceFile) : Option Source :=
  match file.text with
  | .ok text => some ⟨file.path, text⟩
  | .error _ => none

def warning? (root : Path) (file : SourceFile) : Option Log.Record :=
  match file.text with
  | .ok _ => none
  | .error fault =>
    some
      { stage := "pipeline"
        level := .warning
        message := Text.join ["Skipping unreadable source ", file.path, ": ",
          fault.message (root.appendText file.path).toText] }

end SourceFile

structure Selection where
  files : List SourceFile
  failure : Option Failure

def select (tree : FileTree) (settings : Settings) : Selection :=
  let root := settings.root.parts
  let (found, failure) := selectFrom tree root [] settings.sources
  let kept := found.filter fun names =>
    !isExcluded settings.exclusions (Path.slashJoined names)
  ⟨kept.map fun names => ⟨Path.slashJoined names, tree.readText (root ++ names)⟩, failure⟩

namespace Selection

def sources (selection : Selection) : Except Failure (List Source) :=
  match selection.failure with
  | some failure => .error failure
  | none => .ok (selection.files.filterMap (·.source?))

def log (root : Path) (selection : Selection) : List Log.Record :=
  selection.files.filterMap (·.warning? root)

end Selection

/-! ## Building -/

structure Attempt where
  log : List Log.Record
  model : Except Failure Model

/-- Builds the model of a project. The symbols are looked at before the sources. -/
def build (parse : Yaml.Loader) (tree : FileTree) (settings : Settings) : Attempt :=
  match settings.symbols with
  | none => ⟨[], .error (.build (.contract .noTableConfigured))⟩
  | some path =>
    match Symbol.load parse tree path with
    | .error failure => ⟨[], .error failure⟩
    | .ok symbols =>
      let selection := select tree settings
      let log := Symbol.loadLog path symbols ++ selection.log settings.root
      match selection.sources,
        Builder.ofSettings settings.markers settings.linkPartners settings.workers with
      | .error failure, _ => ⟨log, .error failure⟩
      | .ok _, .error error => ⟨log, .error (.setup error)⟩
      | .ok sources, .ok builder =>
        let run := Run.ofSources builder sources (.ofList symbols)
        ⟨log ++ run.log, run.model.mapError .build⟩

end Project

end DocAtlas
