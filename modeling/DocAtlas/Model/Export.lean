import DocAtlas.Model
import DocAtlas.Value.Json

/-!
# Exporting a model

The plain data of each part of a model, in which it is answered to a query, and the
text of a whole model. Parts that say nothing are left out of segments and sections.
-/

namespace DocAtlas

namespace Segment

def toValue (segment : Segment) : Value :=
  .record
    ([("kind".toList, .text segment.label), ("text".toList, .text segment.content)] ++
      (segment.target?.map fun target => ("target".toList, Value.text target)).toList)

def listValue (segments : List Segment) : Value := .list (segments.map toValue)

end Segment

namespace Section

def toValue (part : Section) : Value :=
  .record
    ([("kind".toList, .text part.label), ("body".toList, Segment.listValue part.body)] ++
      (part.title?.map fun title => ("title".toList, Value.text title)).toList ++
      (part.value?.map fun value => ("value".toList, Value.text value)).toList ++
      (if part.targets = [] then [] else [("targets".toList, .texts part.targets)]) ++
      (if part.level = 0 then [] else [("level".toList, .integer part.level)]))

end Section

namespace CrossReference

def toValue (reference : CrossReference) : Value :=
  .record
    [("target", .text reference.target),
     ("origin", .text reference.origin.label),
     ("state", .text reference.state.label),
     ("resolved_key", .ofOption .text reference.state.key?),
     ("href", .ofOption .text reference.state.href?)]

end CrossReference

namespace Entry

def toValue (entry : Entry) : Value :=
  .record
    [("key", .text entry.key),
     ("kind", .text entry.kind.label),
     ("summary", .text entry.summary),
     ("brief", Segment.listValue entry.brief),
     ("sections", .list (entry.sections.map (·.toValue))),
     ("references", .list (entry.references.map (·.toValue))),
     ("anchor", .text entry.anchor),
     ("page", .text entry.page),
     ("flags", .texts entry.flags.labels),
     ("sources", .texts (entry.spans.map (·.label)))]

end Entry

namespace Diagnostic

def toValue (diagnostic : Diagnostic) : Value :=
  .record
    [("kind", .text diagnostic.kind.label),
     ("message", .text diagnostic.message),
     ("file", .ofOption .text diagnostic.file),
     ("line", .ofOption .integer diagnostic.line),
     ("symbol", .ofOption .text diagnostic.symbol)]

end Diagnostic

namespace Model

def exportVersion : Int := 1

def toValue (model : Model) : Value :=
  .record
    [("version", .integer exportVersion),
     ("vocabulary", .text Vocabulary.version),
     ("entries", .record (model.entries.map fun entry => (entry.key, entry.toValue))),
     ("diagnostics", .list (model.diagnostics.map (·.toValue)))]

def dump (model : Model) : Text := Json.print 0 model.toValue

end Model

end DocAtlas
