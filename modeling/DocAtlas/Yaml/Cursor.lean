import DocAtlas.Text.Digit
import DocAtlas.Yaml.Fault
import DocAtlas.Yaml.Kind

/-!
# Places in a document

A cursor is what is left of a document, with the line and the column where that begins.
Lines end at newlines and at the Unicode line breaks; a byte order mark takes no column.
-/

namespace DocAtlas.Yaml

def isBreak (c : Char) : Bool :=
  c == '\n' || c.toNat == 0x85 || c.toNat == 0x2028 || c.toNat == 0x2029

def byteOrderMark : Char := Char.ofNat 0xfeff

/-- How a line break counts as text: the old next-line control is a newline. -/
def breakText (c : Char) : Text := if c.toNat = 0x85 then ['\n'] else [c]

structure Cursor where
  rest : Text
  index : Nat
  line : Nat
  column : Nat
deriving DecidableEq, Repr

namespace Cursor

def start (text : Text) : Cursor := ⟨text, 0, 0, 0⟩

def peek? (cursor : Cursor) : Option Char := cursor.rest.head?

def peekAt? (cursor : Cursor) (n : Nat) : Option Char := cursor.rest[n]?

def step (cursor : Cursor) : Cursor :=
  match cursor.rest with
  | [] => cursor
  | c :: rest =>
    if isBreak c then ⟨rest, cursor.index + 1, cursor.line + 1, 0⟩
    else
      ⟨rest, cursor.index + 1, cursor.line,
        if c = byteOrderMark then cursor.column else cursor.column + 1⟩

def advance : Nat → Cursor → Cursor
  | 0, cursor => cursor
  | n + 1, cursor => advance n cursor.step

def takeWhile (test : Char → Bool) (cursor : Cursor) : Text × Cursor :=
  let taken := cursor.rest.takeWhile test
  (taken, cursor.advance taken.length)

def skipWhile (test : Char → Bool) (cursor : Cursor) : Cursor := (cursor.takeWhile test).2

def atBreak (cursor : Cursor) : Bool := cursor.peek?.any isBreak

end Cursor

def isGap : Option Char → Bool
  | none => true
  | some c => c == ' ' || c == '\t' || isBreak c

namespace Cursor

/-- Whether three equal characters stand here alone: the mark between documents. -/
def atMark (c : Char) (cursor : Cursor) : Bool :=
  Text.startsWith [c, c, c] cursor.rest && isGap (cursor.peekAt? 3)

def atDocumentMark (cursor : Cursor) : Bool := cursor.atMark '-' || cursor.atMark '.'

end Cursor

end DocAtlas.Yaml
