import DocAtlas.Entry

/-!
# Entries on a terminal

An entry as lines of plain text: its key and link, its summary, its version and module,
its sections, and the names it refers to, marked where they lead nowhere.
-/

namespace DocAtlas.Entry

def setOff (part : Text) : List Text := if part = [] then [] else [[], part]

def detail (label : Text) (value : Option Text) : List Text :=
  match value with
  | none | some [] => []
  | some value => [Text.join [label, ": ", value]]

def sectionLines (part : Section) : List Text :=
  setOff (part.title?.getD []) ++ setOff (Segment.plainText part.body)

def referenceLine (reference : CrossReference) : Text :=
  Text.join ["  ", reference.target,
    match reference.state with
    | .resolved _ _ => []
    | _ => " (unresolved)".toList]

def referenceLines (references : List CrossReference) : List Text :=
  if references.isEmpty then [] else [] :: "References:".toList :: references.map referenceLine

def terminalText (entry : Entry) : Text :=
  Text.unlines
    ([Text.join [entry.key, " (", entry.kind.label, ")"], Text.join ["  ", entry.href]] ++
      setOff entry.summary ++ detail "Since" entry.since? ++ detail "Module" entry.module? ++
      entry.sections.flatMap sectionLines ++ referenceLines entry.references)

end DocAtlas.Entry
