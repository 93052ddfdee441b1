import DocAtlas.Text.Indent

/-!
# The layout of a comment

What is between the marker and the end of a comment is laid out over lines. The first
line is trimmed. The others may be decorated, that is, all of them that say anything
begin with a star; then the star and one space after it are dropped. After that their
common indentation is removed, and blanks at the ends of lines.
-/

namespace DocAtlas.Comment

open Text (isBlank trim trimEnd dedent)

def dropStar? (line : Text) : Option Text :=
  match line.dropWhile isBlank with
  | '*' :: '/' :: _ => none
  | '*' :: ' ' :: rest => some rest
  | '*' :: rest => some rest
  | _ => none

def saysSomething (line : Text) : Bool := trim line != [] && trim line != ['*']

def isDecorated (lines : List Text) : Bool :=
  lines.any saysSomething &&
    (lines.filter saysSomething).all fun line => (dropStar? line).isSome

def undecorate (lines : List Text) : List Text :=
  if isDecorated lines then lines.map fun line => (dropStar? line).getD line else lines

def layoutLines : List Text → List Text
  | [] => []
  | first :: others => trim first :: (dedent (undecorate others)).map trimEnd

def layout (body : Text) : Text := Text.unlines (layoutLines (Text.lines body))

example : layout "\n * a\n *   b\n ".toList = "\na\n  b\n".toList := rfl

end DocAtlas.Comment
