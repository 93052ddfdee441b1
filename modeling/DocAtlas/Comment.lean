import DocAtlas.Text.Digit

/-!
# Documentation comments

A documentation comment as it was found in a source file, its decoration removed.
Lines and offsets are those of the file: lines count from one, characters from zero.
-/

namespace DocAtlas

structure Span where
  file : Text
  startLine : Nat
  endLine : Nat
deriving DecidableEq, Repr

namespace Span

def label (span : Span) : Text :=
  Text.join [span.file, ":", Text.natText span.startLine, "-", Text.natText span.endLine]

end Span

/-- `nextCodeLine` is the first line with code after the comment, unless another
documentation comment or the end of the file comes first. -/
structure Comment where
  span : Span
  text : Text
  nextCodeLine : Option Nat
  terminated : Bool
  offset : Nat
deriving DecidableEq, Repr

end DocAtlas
