import DocAtlas.Diagnostic
import DocAtlas.Entry.Draft
import DocAtlas.Symbol.Table
import DocAtlas.Text.Order

/-!
# Binding comments to symbols

A comment is about the symbol that its first naming topic tag names, or, if it has no
such tag, about the symbol declared on the line of code behind it. The comments are
taken in the order of the files, and within a file in the order of their places, so
that the result does not depend on the order in which they arrive.
-/

namespace DocAtlas

/-- The place of a comment among all others. Files are compared by rank, and files of
one rank by name. -/
structure Place where
  rank : Nat
  file : Text
  startLine : Nat
  offset : Nat
deriving DecidableEq, Repr

namespace Place

def le (first second : Place) : Bool :=
  first.rank < second.rank || (first.rank == second.rank &&
    (if first.file = second.file then
      first.startLine < second.startLine || (first.startLine == second.startLine &&
        first.offset ≤ second.offset)
    else Text.le first.file second.file))

end Place

def fileRanks (files : List Text) : List (Text × Nat) := files.zipIdx

/-- The rank of a file; one that is not listed comes behind as many ranks as there are
different files in the list. -/
def fileRank (files : List Text) (file : Text) : Nat :=
  match (fileRanks files).reverse.lookup file with
  | some rank => rank
  | none => files.eraseDups.length

structure Candidate where
  parsed : ParsedComment
  place : Place
  explicit : Option Tag
  adjacent : Option Text
deriving DecidableEq, Repr

namespace Candidate

def ofParsed (table : SymbolTable) (files : List Text) (parsed : ParsedComment) : Candidate :=
  let span := parsed.comment.span
  { parsed := parsed
    place := ⟨fileRank files span.file, span.file, span.startLine, parsed.comment.offset⟩
    explicit := parsed.explicitTopic?
    adjacent :=
      (parsed.comment.nextCodeLine.bind fun line => table.at? span.file line).map (·.name) }

def collect (table : SymbolTable) (files : List Text) (comments : List ParsedComment) :
    List Candidate :=
  (comments.map (ofParsed table files)).mergeSort fun first second => first.place.le second.place

def unknownTarget (candidate : Candidate) (topic : Tag) (name : Text) : Diagnostic :=
  { kind := .unknownSymbolReference
    message := Text.join ["\\", topic.marker, " names unknown symbol ", name]
    file := some candidate.parsed.comment.span.file
    line := some topic.line
    symbol := some name
    tags := candidate.parsed.tags }

def orphaned (candidate : Candidate) : Diagnostic :=
  { kind := .orphanedDocumentation
    message := "documentation block has no explicit target and no adjacent declaration"
    file := some candidate.parsed.comment.span.file
    line := some candidate.parsed.comment.span.startLine
    symbol := none
    tags := candidate.parsed.tags }

/-- The symbol that a comment is about, or why there is none. A topic that names an
unknown symbol does not fall back to the declaration behind the comment. -/
def choose (table : SymbolTable) (candidate : Candidate) : Except Diagnostic Symbol :=
  match candidate.explicit with
  | some topic =>
    let name := topic.target.getD []
    match table.get? name with
    | some symbol => .ok symbol
    | none => .error (candidate.unknownTarget topic name)
  | none =>
    match candidate.adjacent.bind table.get? with
    | some symbol => .ok symbol
    | none => .error candidate.orphaned

def chosen? (table : SymbolTable) (candidate : Candidate) : Option Text :=
  match candidate.choose table with
  | .ok symbol => some symbol.name
  | .error _ => none

def rejection? (table : SymbolTable) (candidate : Candidate) : Option Diagnostic :=
  match candidate.choose table with
  | .ok _ => none
  | .error diagnostic => some diagnostic

end Candidate

/-- What binding comes to: entries in the order of their first comments, and a
diagnostic for every comment that is about no symbol. -/
structure Binding where
  entries : List Entry
  diagnostics : List Diagnostic

namespace Binding

def keys (table : SymbolTable) (candidates : List Candidate) : List Text :=
  (candidates.filterMap (·.chosen? table)).eraseDups

def commentsOf (table : SymbolTable) (candidates : List Candidate) (key : Text) :
    List ParsedComment :=
  (candidates.filter fun candidate => candidate.chosen? table == some key).map (·.parsed)

def entryOf? (table : SymbolTable) (candidates : List Candidate) (key : Text) : Option Entry :=
  (table.get? key).map fun symbol =>
    Entry.ofComments symbol (commentsOf table candidates key)

def ofCandidates (table : SymbolTable) (candidates : List Candidate) : Binding :=
  { entries := (keys table candidates).filterMap (entryOf? table candidates)
    diagnostics := candidates.filterMap (·.rejection? table) }

end Binding

end DocAtlas
