import DocAtlas.CommandLine.Arguments
import DocAtlas.Entry.Terminal
import DocAtlas.Model.Export
import DocAtlas.Project

/-!
# Running commands

A run of the program on a file tree: what it prints, what it reports, how it ends, and
the tree as it leaves it. Whatever is wrong with the settings, the symbols or the input
is reported in one line; other failures end the run as they are.
-/

namespace DocAtlas

namespace Failure

def report? (command : Text) : Failure → Option Text
  | settings error => some error.message
  | symbols error => some (Text.join ["qdocgen ", command, " failed: ", error.message])
  | build (.contract error) => some (Text.join ["qdocgen ", command, " failed: ", error.message])
  | _ => none

end Failure

namespace CommandLine

/-- How a run ends. A service goes on by itself. -/
inductive Ending where
  | finished (status : Nat)
  | refused (refusal : Refusal)
  | serving (settings : Settings) (host : Option Text) (portNumber : Option Int)
  | failed (failure : Failure)

/-- `printed` is for the caller, `reported` is what else there was to say. -/
structure Outcome where
  ending : Ending
  printed : Text
  reported : Text
  tree : FileTree

def line (parts : List Text) : Text := Text.join parts ++ [Text.newline]

/-! ## Files that are written -/

def inFolders (tree : FileTree) (directory path : Path)
    (change : FileTree → List Text → Except FileTree.Fault FileTree) :
    Except FileTree.Fault FileTree := do
  let around ← tree.makeFolders (directory.append path.parent).parts
  change around (directory.append path).parts

def writeText (tree : FileTree) (directory path : Path) (text : Text) :
    Except FileTree.Fault FileTree :=
  inFolders tree directory path fun tree names => tree.write names (Utf8.encode text)

def shownPath (directory path : Path) : Text :=
  match (Path.resolve directory path).relativeTo? directory with
  | some names => (Path.mk [] names).toText
  | none => path.toText

/-! ## The log of a run -/

structure Session where
  directory : Path
  setup : Log.Setup
  logFile : Option Path

namespace Session

def ofInvocation (directory : Path) (invocation : Invocation) : Session :=
  let logFile := invocation.logFile.bind id
  { directory := directory
    setup := .ofOptions invocation.verbose (logFile.map (·.toText)) none
    logFile := logFile }

/-- The tree with the log file in it, to be written to. A log file that is asked for has to
have a path. -/
def openLog (session : Session) (invocation : Invocation) (tree : FileTree) :
    Except Failure FileTree :=
  match invocation.logFile with
  | none => .ok tree
  | some none => .error .noLogPath
  | some (some path) =>
    (inFolders tree session.directory path fun tree names => tree.append names []).mapError
      .tree

def keepLog (session : Session) (log : List Log.Record) (tree : FileTree) : FileTree :=
  match session.logFile with
  | none => tree
  | some path =>
    let lines := log.filterMap session.setup.fileLine?
    let names := (session.directory.append path).parts
    match tree.append names (Utf8.encode (lines.flatMap fun text => line [text])) with
    | .ok kept => kept
    | .error _ => tree

def consoleText (session : Session) (log : List Log.Record) : Text :=
  (log.filterMap session.setup.consoleLine?).flatMap fun text => line [text]

end Session

/-! ## Commands on a model -/

def showEntry (tree : FileTree) (model : Model) (symbol : Text) (scope : Option Text) : Outcome :=
  match model.lookup? symbol scope with
  | some entry => ⟨.finished 0, line [entry.terminalText], [], tree⟩
  | none => ⟨.finished 1, [], line ["No documentation for ", symbol], tree⟩

def summaryLine (model : Model) : Text :=
  line ["Documented ", Text.natText model.size, " symbols (",
    Text.natText model.diagnostics.length, " diagnostics)"]

def writeModel (tree : FileTree) (directory : Path) (model : Model) (output : Option Path) :
    Except FileTree.Fault (FileTree × Text) :=
  match output with
  | none => .ok (tree, [])
  | some path => do
    let written ← writeText tree directory path (line [model.dump])
    return (written, line ["Model written to ", shownPath directory path])

def buildModel (tree : FileTree) (directory : Path) (model : Model) (output : Option Path)
    (strict : Bool) : Outcome :=
  let diagnostics := model.diagnostics.flatMap fun diagnostic => line [diagnostic.describe]
  match writeModel tree directory model output with
  | .error fault => ⟨.failed (.tree fault), [], diagnostics, tree⟩
  | .ok (written, note) =>
    let printed := note ++ summaryLine model
    if strict ∧ model.diagnostics ≠ [] then
      ⟨.finished 1, printed, diagnostics ++ line ["Diagnostics reported in --strict mode"], written⟩
    else ⟨.finished 0, printed, diagnostics, written⟩

/-! ## Runs -/

section

variable (parse : Yaml.Loader)

def Outcome.ofFailure (tree : FileTree) (command : CommandName) (failure : Failure) : Outcome :=
  match failure.report? command.label with
  | some report => ⟨.finished 1, [], line [report], tree⟩
  | none => ⟨.failed failure, [], [], tree⟩

def withModel (tree : FileTree) (settings : Settings) (command : CommandName)
    (logged : List Log.Record → FileTree) (use : FileTree → Model → Outcome) :
    List Log.Record × Outcome :=
  let attempt := Project.build parse tree settings
  let kept := logged attempt.log
  (attempt.log,
    match attempt.model with
    | .error failure => .ofFailure kept command failure
    | .ok model => use kept model)

/-- The settings of the project that is asked for. -/
def loadSettings (tree : FileTree) (homes : Text → Option Path) (directory : Path)
    (invocation : Invocation) : Except Failure Settings := do
  Settings.load parse tree directory (← Settings.atHome homes invocation.path)

/-- What is logged in the course of a command, and what comes of it. The tree already
has the log file, and `logged` is the tree with some records in that file. -/
def perform (tree : FileTree) (homes : Text → Option Path) (directory : Path)
    (invocation : Invocation) (logged : List Log.Record → FileTree) :
    List Log.Record × Outcome :=
  match loadSettings parse tree homes directory invocation with
  | .error failure => ([], .ofFailure (logged []) invocation.command.name failure)
  | .ok settings =>
    match invocation.command with
    | .serve host portNumber => ([], ⟨.serving settings host portNumber, [], [], logged []⟩)
    | .show symbol scope =>
      withModel parse tree settings .show logged fun kept model => showEntry kept model symbol scope
    | .build output strict =>
      withModel parse tree settings .build logged fun kept model =>
        buildModel kept directory model (output.or settings.output) strict

/-- A run of the program with some arguments in a directory of a file tree. `homes` tells
the homes of those who have one, and one's own under no name. -/
def run (tree : FileTree) (homes : Text → Option Path) (directory : Path)
    (arguments : List Text) : Outcome :=
  match Invocation.ofArguments arguments with
  | .error refusal => ⟨.refused refusal, [], [], tree⟩
  | .ok invocation =>
    let session := Session.ofInvocation directory invocation
    match session.openLog invocation tree with
    | .error failure => ⟨.failed failure, [], [], tree⟩
    | .ok opened =>
      let announcement := session.setup.announcement
      let (log, outcome) := perform parse opened homes directory invocation fun log =>
        session.keepLog (announcement :: log) opened
      { outcome with
        reported := session.consoleText (announcement :: log) ++ outcome.reported }

end

end CommandLine

end DocAtlas
