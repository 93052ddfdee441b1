import DocAtlas.Segment
import DocAtlas.Vocabulary
import DocAtlas.Text.Digit

/-!
# Tags

What one command of a comment, or one paragraph of prose between commands, came to.
The argument is what stood behind the command on its line; a topic names its target
symbol there, and a see-also list its targets. Prose has an empty marker.
-/

namespace DocAtlas

structure Tag where
  kind : TagKind
  marker : Text
  file : Text
  line : Nat
  argument : Option Text
  target : Option Text
  targets : List Text
  body : List Segment
deriving DecidableEq, Repr

namespace Tag

def headingLevel (tag : Tag) : Nat :=
  if tag.kind = .heading then ((tag.marker.getLast?).bind Text.digitValue?).getD 0 else 0

end Tag

inductive TagFault where
  | missingArgument
  | namesNoSymbol
  | noText
  | notClosed
deriving DecidableEq, Repr

end DocAtlas
