import DocAtlas.Failure

/-!
# Settings files

Where the settings of a project are found: in the folder that a path names, or next to
the file that it names. Without a settings file the defaults hold.
-/

namespace DocAtlas

/-- An integer that is too long is no matter of settings. -/
def SettingsError.failure : SettingsError → Failure
  | longInteger => .longInteger
  | error => .settings error

namespace Settings

def settled (directory path : Path) : Except FileTree.Fault Path :=
  if path.parts.any Path.hasNull then .error .nullCharacter
  else .ok (Path.resolve directory path)

def fileFor (tree : FileTree) (directory path : Path) : Except FileTree.Fault Path := do
  if ← tree.findsFolder (directory.append path).parts then
    settled directory (path.appendText fileName)
  else if path.name = fileName then settled directory path
  else settled directory (path.parent.appendText fileName)

def ofText (parse : Yaml.Loader) (root : Path) (text : Text) : Except Failure Settings :=
  if text.all Text.isBlank then .ok (defaults root)
  else
    match parse text with
    | .error .malformed => .error (.settings .unparsable)
    | .error fault => .error (.document fault)
    | .ok contents => (ofValue root contents).mapError SettingsError.failure

def load (parse : Yaml.Loader) (tree : FileTree) (directory path : Path) :
    Except Failure Settings := do
  let file ← (fileFor tree directory path).mapError .tree
  let found ← (tree.find? file.parts).mapError .tree
  if found.isSome then
    ofText parse file.parent (← (tree.readText file.parts).mapError (·.failure))
  else return defaults file.parent

def atHome (homes : Text → Option Path) (path : Path) : Except Failure Path :=
  match path.homeOwner? with
  | none => .ok path
  | some owner =>
    if Path.hasNull owner then .error (.tree .nullCharacter)
    else
      match homes owner with
      | some home => .ok (path.withHome home)
      | none => .error .noHome

end Settings

end DocAtlas
