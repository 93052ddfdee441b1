import DocAtlas.Text.Blank

/-!
# Indentation

The margin of some lines is the longest run of spaces and tabs that all lines
with anything else on them begin with. Removing it keeps the lines' relative
indentation; a line of spaces and tabs alone becomes empty.
-/

namespace DocAtlas.Text

def isIndent (c : Char) : Bool := c == ' ' || c == '\t'

def commonStart : Text → Text → Text
  | c :: first, d :: second => if c = d then c :: commonStart first second else []
  | _, _ => []

def indentOf (line : Text) : Text := line.takeWhile isIndent

/-- The common indentation of the lines that hold more than spaces and tabs. -/
def margin (lines : List Text) : Text :=
  match (lines.filter fun line => !line.all isIndent).map indentOf with
  | [] => []
  | first :: others => others.foldl commonStart first

/-- The lines without their margin; those of spaces and tabs alone are emptied. -/
def dedent (lines : List Text) : List Text :=
  let width := (margin lines).length
  lines.map fun line => if line.all isIndent then [] else line.drop width

example : dedent ["  a".toList, " \t ".toList, "    b".toList] =
    ["a".toList, [], "  b".toList] := rfl

end DocAtlas.Text
