import DocAtlas.FileTree
import DocAtlas.Path.Wildcard

/-!
# Path patterns

A path pattern selects files and folders below a folder. Between its slashes stand
names, wildcards for names, and two stars alone for any depth of folders. A slash at the
end leaves only folders.
-/

namespace DocAtlas

namespace Glob

inductive Step where
  | named (name : Text)
  | wildcard (pattern : Wildcard.Pattern)
  | anyDepth
deriving DecidableEq, Repr

inductive Fault where
  | blank
  | absolute
  | mixedDepth
  | noStep
  | onlySlash
deriving DecidableEq, Repr

namespace Fault

def message : Fault → Text
  | blank => "Unacceptable pattern: ''"
  | absolute => "Non-relative patterns are unsupported"
  | mixedDepth => "Invalid pattern: '**' can only be an entire path component"
  | noStep => "tuple index out of range"
  | onlySlash => "Unacceptable pattern: './'"

end Fault

def anyDepthMark : Text := ['*', '*']

def hasTwoStars : Text → Bool
  | [] => false
  | c :: rest => Text.startsWith anyDepthMark (c :: rest) || hasTwoStars rest

def Step.ofPart (part : Text) : Except Fault Step :=
  if part = anyDepthMark then .ok .anyDepth
  else if hasTwoStars part then .error .mixedDepth
  else if Wildcard.isWildcard part then .ok (.wildcard (Wildcard.ofText part))
  else .ok (.named part)

end Glob

structure Glob where
  steps : List Glob.Step
  onlyFolders : Bool
deriving DecidableEq, Repr

namespace Glob

def ofText (text : Text) : Except Fault Glob :=
  let path := Path.ofText text
  let onlyFolders := text.getLast? == some '/'
  if text = [] then .error .blank
  else if path.isAbsolute then .error .absolute
  else if path.parts = [] then .error (if onlyFolders then .onlySlash else .noStep)
  else do return ⟨← path.parts.mapM Step.ofPart, onlyFolders⟩

/-- What a step leads to from the folder at some names below a root. Only a name that the
pattern itself spells can be too long to look for. -/
def Step.targets (tree : FileTree) (root : List Text) (names : List Text) : Step →
    Except FileTree.Fault (List (List Text))
  | .named name => do
    let found ← tree.find? (root ++ names ++ [name])
    return if found.isSome then [names ++ [name]] else []
  | .wildcard pattern =>
    match tree.walk (root ++ names) with
    | .ok place =>
      .ok (((tree.children place).filter (Wildcard.accepts pattern)).map fun name =>
        names ++ [name])
    | .error _ => .ok []
  | .anyDepth =>
    match tree.walk (root ++ names) with
    | .ok place => .ok ((tree.foldersBelow place).map (names ++ ·))
    | .error _ => .ok []

/-- What some steps lead to from the folder at some names; every step but the last one
has to lead to a folder. -/
def follow (tree : FileTree) (root : List Text) : List Step → List Text →
    Except FileTree.Fault (List (List Text))
  | [], names => .ok [names]
  | step :: rest, names => do
    let targets ← step.targets tree root names
    let passable := targets.filter fun target => rest.isEmpty || tree.isFolderAt (root ++ target)
    return (← passable.mapM (follow tree root rest)).flatten

def select (tree : FileTree) (root : List Text) (glob : Glob) :
    Except FileTree.Fault (List (List Text)) := do
  if tree.isFolderAt root then
    let found ← follow tree root glob.steps []
    let kept := found.filter fun names =>
      !glob.onlyFolders || tree.isFolderAt (root ++ names)
    return kept.eraseDups.mergeSort Path.partsLe
  else return []

end Glob

end DocAtlas
