import DocAtlas.Comment
import DocAtlas.Comment.Layout
import DocAtlas.Comment.Lexeme

/-!
# The documentation comments of a source text

The comments are read off the lexemes from left to right. A terminated comment also
looks ahead, past blanks and ordinary comments, for the line of the code that it
stands before.
-/

namespace DocAtlas

open Text (newline isBlank)

namespace Comment

def newlines (text : Text) : Nat := text.count newline

def opensOrdinary (c : Char) (rest : Text) : Bool :=
  c == '/' && (rest.head? == some '/' || rest.head? == some '*')

def nextCodeLine? (markers : Markers) (line : Nat) : Text → Option Nat
  | [] => none
  | c :: rest =>
    if isBlank c then nextCodeLine? markers (line + newlines [c]) rest
    else if (markers.opening? (c :: rest)).isSome then none
    else if opensOrdinary c rest then
      have := Lexeme.length_ordinary c rest
      nextCodeLine? markers (line + newlines (Lexeme.ordinary c rest).1.text)
        (Lexeme.ordinary c rest).2
    else some line
termination_by text => text.length

def ofLexeme? (markers : Markers) (file : Text) (offset line : Nat) (lexeme : Lexeme)
    (after : Text) : Option Comment :=
  match lexeme with
  | .documentation _ body terminated =>
    some
      { span := ⟨file, line, line + newlines lexeme.text.dropLast⟩
        text := layout body
        nextCodeLine :=
          if terminated then nextCodeLine? markers (line + newlines lexeme.text) after else none
        terminated := terminated
        offset := offset }
  | _ => none

def scanFrom (markers : Markers) (file : Text) (offset line : Nat) (text : Text) :
    List Comment :=
  match read : Lexeme.next? markers text with
  | none => []
  | some (lexeme, rest) =>
    have := Lexeme.length_next? read
    (ofLexeme? markers file offset line lexeme rest).toList ++
      scanFrom markers file (offset + lexeme.text.length) (line + newlines lexeme.text) rest
termination_by text.length

/-- The documentation comments of a file, in the order of the source. -/
def scan (markers : Markers) (path text : Text) : List Comment :=
  scanFrom markers (Text.slashed path) 0 1 text

end Comment

end DocAtlas
