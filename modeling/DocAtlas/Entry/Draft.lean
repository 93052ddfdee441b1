import DocAtlas.Entry
import DocAtlas.Tag.Parse

/-!
# Drafts of entries

An entry grows comment by comment. Each tag becomes the brief, a section, a flag or
nothing but references. Where no brief is written, the prose that the first comment
opens with serves as one; being the first section, it is taken from the front when the
draft is finished.
-/

namespace DocAtlas

namespace Tag

/-- What an unknown command is shown as: the command itself, then its paragraph. -/
def unknownBody (tag : Tag) : List Segment :=
  let command := Segment.text ('\\' :: tag.marker)
  if tag.body = [] then [command] else command :: .text [' '] :: tag.body

def section? (tag : Tag) : Option Section :=
  match tag.kind with
  | .prose => some (.prose tag.body)
  | .brief => if tag.body = [] then none else some (.brief tag.body)
  | .since => tag.argument.map .since
  | .module => tag.argument.map .module
  | .seeAlso => if tag.targets = [] then none else some (.seeAlso tag.targets)
  | .heading => some (.heading tag.argument tag.headingLevel tag.body)
  | .note => some (.note tag.body)
  | .warning => some (.warning tag.body)
  | .code => some (.code tag.body)
  | .unknown => some (.unknown tag.marker tag.unknownBody)
  | _ => none

/-- The references that a tag makes: those inside its body, then its see-also names. -/
def references (source : Text) (tag : Tag) : List CrossReference :=
  let refer (origin : ReferenceOrigin) (target : Text) : CrossReference :=
    { source := source, target := target, origin := origin, file := some tag.file,
      line := some tag.line, state := .unresolved }
  (Segment.targets tag.body).map (refer .inline) ++
    (if tag.kind = .seeAlso then tag.targets.map (refer .seeAlso) else [])

end Tag

namespace Flags

def add (flags : Flags) (kind : TagKind) : Flags :=
  match kind with
  | .deprecated => { flags with deprecated := true }
  | .internal => { flags with internal := true }
  | _ => flags

end Flags

/-- `leads` says that the first section is prose that the first comment opens with. -/
structure Draft where
  symbol : Symbol
  brief : Option (List Segment)
  leads : Bool
  sections : List Section
  references : List CrossReference
  flags : Flags
  spans : List Span
  tags : List Tag

namespace Draft

def start (symbol : Symbol) : Draft :=
  { symbol := symbol, brief := none, leads := false, sections := [], references := [],
    flags := .none, spans := [], tags := [] }

/-- Takes one tag. `leading` says that it may still serve as the brief. -/
def takeTag (leading : Bool) (draft : Draft) (tag : Tag) : Draft :=
  let isBrief := tag.kind = .brief ∧ tag.body ≠ [] ∧ draft.brief = none
  { draft with
    brief := if isBrief then some tag.body else draft.brief
    leads := draft.leads || (leading && decide (tag.kind = .prose))
    sections := if isBrief then draft.sections else draft.sections ++ tag.section?.toList
    references := draft.references ++ tag.references draft.symbol.name
    flags := draft.flags.add tag.kind
    tags := draft.tags ++ [tag] }

def staysLeading (tag : Tag) : Bool := tag.kind.isTopic || decide (tag.kind = .prose)

def takeTags (leading : Bool) (draft : Draft) : List Tag → Draft
  | [] => draft
  | tag :: rest => takeTags (leading && staysLeading tag) (draft.takeTag leading tag) rest

/-- Takes one comment. Only the first one can lead. -/
def take (draft : Draft) (parsed : ParsedComment) : Draft :=
  let taken := draft.takeTags draft.spans.isEmpty parsed.tags
  { taken with spans := taken.spans ++ [parsed.comment.span] }

def headAndSections (draft : Draft) : List Segment × List Section :=
  match draft.brief, draft.leads, draft.sections with
  | some brief, _, sections => (brief, sections)
  | none, true, first :: rest => (first.body, rest)
  | none, _, sections => ([], sections)

def finish (draft : Draft) : Entry :=
  { key := draft.symbol.name
    kind := draft.symbol.kind
    brief := draft.headAndSections.1
    sections := draft.headAndSections.2
    references := draft.references
    anchor := draft.symbol.anchor
    page := draft.symbol.page
    flags := draft.flags
    spans := draft.spans
    tags := draft.tags }

end Draft

def Entry.ofComments (symbol : Symbol) (comments : List ParsedComment) : Entry :=
  (comments.foldl Draft.take (.start symbol)).finish

end DocAtlas
