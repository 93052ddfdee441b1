import DocAtlas.Comment
import DocAtlas.Reference
import DocAtlas.Symbol
import DocAtlas.Tag

/-!
# Entries

The documentation of one symbol: a brief, sections, references to other symbols and
flags, with the comments and the tags that it was made from.
-/

namespace DocAtlas

inductive Section where
  | prose (body : List Segment)
  | heading (title : Option Text) (level : Nat) (body : List Segment)
  | since (version : Text)
  | module (name : Text)
  | seeAlso (targets : List Text)
  | brief (body : List Segment)
  | note (body : List Segment)
  | warning (body : List Segment)
  | code (body : List Segment)
  | unknown (command : Text) (body : List Segment)
deriving DecidableEq, Repr

namespace Section

def label : Section → Text
  | prose _ => "text"
  | heading _ _ _ => "heading"
  | since _ => "since"
  | module _ => "module"
  | seeAlso _ => "see-also"
  | brief _ => "brief"
  | note _ => "note"
  | warning _ => "warning"
  | code _ => "code"
  | unknown _ _ => "opaque"

def body : Section → List Segment
  | prose body | heading _ _ body | brief body | note body | warning body | code body
  | unknown _ body => body
  | since _ | module _ | seeAlso _ => []

def title? : Section → Option Text
  | heading title _ _ => title
  | unknown command _ => some command
  | _ => none

def value? : Section → Option Text
  | since version => some version
  | module name => some name
  | _ => none

def targets : Section → List Text
  | seeAlso targets => targets
  | _ => []

def level : Section → Nat
  | heading _ level _ => level
  | _ => 0

end Section

structure Flags where
  deprecated : Bool
  internal : Bool
deriving DecidableEq, Repr

namespace Flags

def none : Flags := ⟨false, false⟩

def labels (flags : Flags) : List Text :=
  (if flags.deprecated then ["deprecated".toList] else []) ++
    (if flags.internal then ["internal".toList] else [])

end Flags

structure Entry where
  key : Text
  kind : SymbolKind
  brief : List Segment
  sections : List Section
  references : List CrossReference
  anchor : Text
  page : Text
  flags : Flags
  spans : List Span
  tags : List Tag
deriving DecidableEq, Repr

namespace Entry

def summary (entry : Entry) : Text := Segment.plainText entry.brief

def since? (entry : Entry) : Option Text :=
  entry.sections.findSome? fun
    | .since version => some version
    | _ => none

def module? (entry : Entry) : Option Text :=
  entry.sections.findSome? fun
    | .module name => some name
    | _ => none

def scope? (entry : Entry) : Option Text :=
  if entry.kind.isScope then some entry.key else Name.owner? entry.key

def href (entry : Entry) : Text := entry.page ++ '#' :: entry.anchor

end Entry

end DocAtlas
