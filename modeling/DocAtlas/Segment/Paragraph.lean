import DocAtlas.Segment.Inline

/-!
# Paragraphs

Lines of prose fall into paragraphs, the longest runs of lines that are not blank.
The segments of two paragraphs are kept apart by one break.
-/

namespace DocAtlas

open Text (trim)

/-- The maximal runs of lines that are not blank, each line trimmed. -/
def paragraphs : List Text → List (List Text)
  | [] => []
  | line :: rest =>
    if trim line = [] then paragraphs rest
    else
      match rest, paragraphs rest with
      | next :: _, first :: others =>
        if trim next = [] then [trim line] :: first :: others
        else (trim line :: first) :: others
      | _, others => [trim line] :: others

namespace Segment

def ofParagraph (lines : List Text) : List Segment := ofProse (Text.unwords lines)

/-- Puts a paragraph behind the segments that are there, and a break between them if any are. -/
def addParagraph (segments : List Segment) (lines : List Text) : List Segment :=
  (if segments = [] then [] else segments ++ [paragraphBreak]) ++ ofParagraph lines

def ofParagraphs (paragraphs : List (List Text)) : List Segment := paragraphs.foldl addParagraph []

def ofLines (lines : List Text) : List Segment := ofParagraphs (paragraphs lines)

end Segment

end DocAtlas
