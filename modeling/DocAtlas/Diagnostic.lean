import DocAtlas.Tag
import DocAtlas.Text.Quoted

/-!
# Diagnostics

A recoverable anomaly of the documented sources. It carries the tags that it accounts
for: those of a comment that reaches no entry, or the one tag that is malformed.
-/

namespace DocAtlas

inductive DiagnosticKind where
  | unterminatedComment
  | unknownSymbolReference
  | orphanedDocumentation
  | danglingCrossReference
  | malformedTagArgument
deriving DecidableEq, Repr

namespace DiagnosticKind

def label : DiagnosticKind → Text
  | unterminatedComment => "unterminated-comment"
  | unknownSymbolReference => "unknown-symbol-reference"
  | orphanedDocumentation => "orphaned-documentation"
  | danglingCrossReference => "dangling-cross-reference"
  | malformedTagArgument => "malformed-tag-argument"

def all : List DiagnosticKind :=
  [unterminatedComment, unknownSymbolReference, orphanedDocumentation, danglingCrossReference,
    malformedTagArgument]

def ofLabel? (label : Text) : Option DiagnosticKind := all.find? fun kind => kind.label == label

theorem ofLabel?_label (kind : DiagnosticKind) : ofLabel? kind.label = some kind := by
  cases kind <;> rfl

end DiagnosticKind

structure Diagnostic where
  kind : DiagnosticKind
  message : Text
  file : Option Text
  line : Option Int
  symbol : Option Text
  tags : List Tag
deriving DecidableEq, Repr

namespace Diagnostic

def location (diagnostic : Diagnostic) : Text :=
  match diagnostic.file, diagnostic.line with
  | none, _ => "<unknown>"
  | some file, none => file
  | some file, some line => Text.join [file, ":", Text.intText line]

def describe (diagnostic : Diagnostic) : Text :=
  Text.join [diagnostic.location, ": ", diagnostic.kind.label, ": ", diagnostic.message]

end Diagnostic

namespace TagFault

def message (fault : TagFault) (tag : Tag) : Text :=
  match fault with
  | missingArgument => Text.join ["\\", tag.marker, " requires an argument"]
  | namesNoSymbol =>
    Text.join ["\\", tag.marker, " does not name a symbol: ", Text.quoted (tag.argument.getD [])]
  | noText => Text.join ["\\", tag.marker, " has no text"]
  | notClosed => Text.join ["\\", tag.marker, " is not closed by \\", Vocabulary.codeEnd]

def diagnostic (fault : TagFault) (tag : Tag) : Diagnostic :=
  { kind := .malformedTagArgument
    message := fault.message tag
    file := some tag.file
    line := some tag.line
    symbol := none
    tags := [tag] }

end TagFault

end DocAtlas
