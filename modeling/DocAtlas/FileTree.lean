import DocAtlas.Path
import DocAtlas.Text.Quoted
import DocAtlas.Text.Utf8

/-!
# File trees

The files and folders below a root, each under the names that lead to it. A file's
folders are there with it; empty folders are listed on their own. Two dots lead from a
folder to the one around it, so a path is walked name by name, and every name before
the last has to be a folder's. Names have a greatest length, and so have paths; a path with
a null character in it leads nowhere and cannot even be tried.
-/

namespace DocAtlas

/-- The names that lead from the root to a file or folder, without dots. -/
abbrev FileTree.Place := List Text

structure FileTree where
  files : List (FileTree.Place × List UInt8)
  folders : List FileTree.Place
deriving DecidableEq, Repr

namespace FileTree

inductive Fault where
  | missing
  | occupied
  | notAFolder
  | isAFolder
  | longName
  | nullCharacter
deriving DecidableEq, Repr

namespace Fault

def number? : Fault → Option Nat
  | missing => some 2
  | occupied => some 17
  | notAFolder => some 20
  | isAFolder => some 21
  | longName => some 36
  | nullCharacter => none

def summary : Fault → Text
  | missing => "No such file or directory"
  | occupied => "File exists"
  | notAFolder => "Not a directory"
  | isAFolder => "Is a directory"
  | longName => "File name too long"
  | nullCharacter => "embedded null byte"

def message (fault : Fault) (path : Text) : Text :=
  match fault.number? with
  | some number =>
    Text.join ["[Errno ", Text.natText number, "] ", fault.summary, ": ", Text.quoted path]
  | none => fault.summary

end Fault

def empty : FileTree := ⟨[], []⟩

/-! ## What is at a place -/

def file? (tree : FileTree) (place : Place) : Option (List UInt8) := tree.files.lookup place

def below? (place other : Place) : Option (List Text) :=
  if place.isPrefixOf other then some (other.drop place.length) else none

def routes (tree : FileTree) (place : Place) : List (List Text) :=
  (tree.files.map (·.1) ++ tree.folders).filterMap (below? place)

def isFolder (tree : FileTree) (place : Place) : Bool :=
  place.isEmpty || (tree.folders.any fun folder => place.isPrefixOf folder) ||
    tree.files.any fun file => place.isPrefixOf file.1 && place != file.1

def isFile (tree : FileTree) (place : Place) : Bool := (tree.file? place).isSome

def contains (tree : FileTree) (place : Place) : Bool := tree.isFile place || tree.isFolder place

def children (tree : FileTree) (place : Place) : List Text :=
  ((tree.routes place).filterMap (·.head?)).eraseDups

def beginnings : List Text → List (List Text)
  | [] => [[]]
  | name :: rest => [] :: (beginnings rest).map (name :: ·)

def foldersBelow (tree : FileTree) (place : Place) : List (List Text) :=
  (((tree.routes place).flatMap beginnings).filter fun names =>
    tree.isFolder (place ++ names)).eraseDups

/-! ## Walking a path -/

def maxNameSize : Nat := 255

def maxPathSize : Nat := 4096

def nameSize (name : Text) : Nat := (Utf8.encode name).length

def step (tree : FileTree) (place : Place) (name : Text) : Except Fault Place :=
  if tree.isFolder place then
    if maxNameSize < nameSize name then .error .longName
    else .ok (if name = Path.parentName then place.dropLast else place ++ [name])
  else if tree.isFile place then .error .notAFolder
  else .error .missing

/-- The place that a path leads to; only its last name may lead nowhere. -/
def walk (tree : FileTree) (names : List Text) : Except Fault Place :=
  if names.any Path.hasNull then .error .nullCharacter
  else if maxPathSize ≤ names.foldl (fun size name => size + nameSize name + 1) 0 then
    .error .longName
  else names.foldlM tree.step []

/-- The place at the end of a path, if the path leads anywhere. Names that are too long are
not looked for. -/
def find? (tree : FileTree) (names : List Text) : Except Fault (Option Place) :=
  match tree.walk names with
  | .ok place => .ok (if tree.contains place then some place else none)
  | .error .longName => .error .longName
  | .error _ => .ok none

def findsFolder (tree : FileTree) (names : List Text) : Except Fault Bool :=
  (tree.find? names).map fun place => place.any tree.isFolder

def isFolderAt (tree : FileTree) (names : List Text) : Bool :=
  match tree.walk names with
  | .ok place => tree.isFolder place
  | .error _ => false

def isFileAt (tree : FileTree) (names : List Text) : Bool :=
  match tree.walk names with
  | .ok place => tree.isFile place
  | .error _ => false

def read (tree : FileTree) (names : List Text) : Except Fault (List UInt8) := do
  let place ← tree.walk names
  if tree.isFolder place then throw .isAFolder
  match tree.file? place with
  | some content => return content
  | none => throw .missing

/-! ## Changes -/

/-- The files with new content at a place; a file that is there keeps its position. -/
def putFile (place : Place) (content : List UInt8) :
    List (Place × List UInt8) → List (Place × List UInt8)
  | [] => [(place, content)]
  | (other, old) :: rest =>
    if other = place then (place, content) :: rest else (other, old) :: putFile place content rest

def put (tree : FileTree) (place : Place) (content : List UInt8) : FileTree :=
  { tree with files := putFile place content tree.files }

def write (tree : FileTree) (names : List Text) (content : List UInt8) :
    Except Fault FileTree := do
  let place ← tree.walk names
  if tree.isFolder place then throw .isAFolder
  return tree.put place content

def append (tree : FileTree) (names : List Text) (content : List UInt8) :
    Except Fault FileTree := do
  let place ← tree.walk names
  if tree.isFolder place then throw .isAFolder
  return tree.put place ((tree.file? place).getD [] ++ content)

/-- Makes a folder inside one that is there; it may be there already. -/
def makeFolder (tree : FileTree) (names : List Text) : Except Fault FileTree := do
  let place ← tree.walk names
  if tree.isFolder place then return tree
  if tree.isFile place then throw .occupied
  return { tree with folders := tree.folders ++ [place] }

/-- Makes a folder and those around it that are missing. The names are given from the
innermost to the outermost. -/
def makeFoldersInward (tree : FileTree) : List Text → Except Fault FileTree
  | [] => .ok tree
  | name :: around =>
    match tree.makeFolder (name :: around).reverse with
    | .error .missing => do
      let outer ← tree.makeFoldersInward around
      outer.makeFolder (name :: around).reverse
    | outcome => outcome

def makeFolders (tree : FileTree) (names : List Text) : Except Fault FileTree :=
  tree.makeFoldersInward names.reverse

end FileTree

end DocAtlas
