import DocAtlas.Text.Basic

/-!
# Cross-references

A directed edge from a documented symbol to a name written in its documentation. A
reference is settled once: it is resolved to a key, or it is found to be dangling.
-/

namespace DocAtlas

inductive ReferenceOrigin where
  | inline
  | seeAlso
  | implicit
deriving DecidableEq, Repr

namespace ReferenceOrigin

def label : ReferenceOrigin → Text
  | inline => "inline"
  | seeAlso => "see-also"
  | implicit => "implicit"

def all : List ReferenceOrigin := [inline, seeAlso, implicit]

def ofLabel? (label : Text) : Option ReferenceOrigin :=
  all.find? fun origin => origin.label == label

end ReferenceOrigin

/-- A resolved reference knows the key of its target and, where there is one, the link
to it. -/
inductive ReferenceState where
  | unresolved
  | resolved (key : Text) (href : Option Text)
  | dangling
deriving DecidableEq, Repr

namespace ReferenceState

def label : ReferenceState → Text
  | unresolved => "unresolved"
  | resolved _ _ => "resolved"
  | dangling => "dangling"

def key? : ReferenceState → Option Text
  | resolved key _ => some key
  | _ => none

def href? : ReferenceState → Option Text
  | resolved _ href => href
  | _ => none

end ReferenceState

structure CrossReference where
  source : Text
  target : Text
  origin : ReferenceOrigin
  file : Option Text
  line : Option Int
  state : ReferenceState
deriving DecidableEq, Repr

structure AlreadySettled where
  reference : CrossReference
deriving DecidableEq, Repr

namespace AlreadySettled

def message (error : AlreadySettled) : Text :=
  Text.join ["Reference ", error.reference.source, " -> ", error.reference.target, " already ",
    error.reference.state.label]

end AlreadySettled

namespace CrossReference

def settle (reference : CrossReference) (state : ReferenceState) :
    Except AlreadySettled CrossReference :=
  if reference.state = .unresolved then .ok { reference with state := state }
  else .error ⟨reference⟩

def resolve (reference : CrossReference) (key : Text) (href : Option Text) :
    Except AlreadySettled CrossReference :=
  reference.settle (.resolved key href)

def markDangling (reference : CrossReference) : Except AlreadySettled CrossReference :=
  reference.settle .dangling

end CrossReference

end DocAtlas
