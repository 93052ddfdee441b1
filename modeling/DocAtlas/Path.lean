import DocAtlas.Text.Order

/-!
# Paths

A path is the names between its slashes. Empty names and lone dots say nothing and are
left out; two dots are kept, since what they lead to depends on the directory before
them. `root` holds the slashes that an absolute path begins with: exactly two are kept
apart from one.
-/

namespace DocAtlas

structure Path where
  root : Text
  parts : List Text
deriving DecidableEq, Repr

namespace Path

def parentName : Text := ['.', '.']

def isPart (name : Text) : Bool := !name.isEmpty && name != ['.']

def rootOf (text : Text) : Text :=
  match text.takeWhile (· == '/') with
  | [] => []
  | ['/', '/'] => ['/', '/']
  | _ => ['/']

def ofText (text : Text) : Path := ⟨rootOf text, (Text.splitOn '/' text).filter isPart⟩

def isAbsolute (path : Path) : Bool := path.root != []

def hasNull (name : Text) : Bool := name.any fun c => c.toNat == 0

def slashJoined (parts : List Text) : Text := ['/'].intercalate parts

def toText (path : Path) : Text :=
  if path.root = [] ∧ path.parts = [] then ['.'] else path.root ++ slashJoined path.parts

/-- The second path as it is seen from the first: an absolute one stays itself. -/
def append (first second : Path) : Path :=
  if second.isAbsolute then second else ⟨first.root, first.parts ++ second.parts⟩

def appendText (path : Path) (text : Text) : Path := path.append (ofText text)

def name (path : Path) : Text := path.parts.getLast?.getD []

def parent (path : Path) : Path := ⟨path.root, path.parts.dropLast⟩

def collapse (parts : List Text) : List Text :=
  parts.foldl (fun kept part => if part = parentName then kept.dropLast else kept ++ [part]) []

def resolve (directory path : Path) : Path :=
  ⟨['/'], collapse (directory.append path).parts⟩

/-- Whose home a path begins at: that of the one named behind the tilde, or one's own. -/
def homeOwner? (path : Path) : Option Text :=
  match path.root, path.parts with
  | [], ('~' :: owner) :: _ => some owner
  | _, _ => none

def withHome (home path : Path) : Path := ⟨home.root, home.parts ++ path.parts.drop 1⟩

def relativeTo? (path directory : Path) : Option (List Text) :=
  if path.root = directory.root ∧ directory.parts.isPrefixOf path.parts then
    some (path.parts.drop directory.parts.length)
  else none

def partsLe : List Text → List Text → Bool
  | [], _ => true
  | _ :: _, [] => false
  | first :: rest, second :: others =>
    if first = second then partsLe rest others else Text.le first second

end Path

end DocAtlas
