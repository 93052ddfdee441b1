import DocAtlas.Text.Utf8
import DocAtlas.Yaml.Cursor

/-!
# Tags and directives

How a tag is written: in full between angle brackets, or as a handle and a name behind it.
Directives in front of a document say its version and what handles stand for. Characters of
tags may be written as the bytes of their UTF-8 form, each a percent sign and two digits.
-/

namespace DocAtlas.Yaml

def isNamePart (c : Char) : Bool := c.isAlphanum || c == '-' || c == '_'

def endsWord (c : Option Char) : Bool := c.all fun c => c == ' ' || isBreak c

/-! ## Names of tags -/

namespace TagName

def isPlain (c : Char) : Bool :=
  c.isAlphanum || "-;/?:@&=+$,_.!~*()[]".toList.contains c || c == Char.ofNat 0x27

def escapeMark : Char := '%'

def escapedBytes : Nat → Cursor → Except Fault (List UInt8 × Cursor)
  | 0, cursor => .ok ([], cursor)
  | steps + 1, cursor =>
    if cursor.peek? = some escapeMark then do
      let digits := cursor.step.rest.take 2
      if digits.length < 2 ∨ ¬ digits.all Kind.isHexDigit then throw .malformed
      let byte := Text.ofDigits 16 (digits.filterMap Text.numeral?)
      let (bytes, behind) ← escapedBytes steps (cursor.advance 3)
      return (UInt8.ofNat byte :: bytes, behind)
    else .ok ([], cursor)

def escaped (cursor : Cursor) : Except Fault (Text × Cursor) := do
  let (bytes, behind) ← escapedBytes (cursor.rest.length + 1) cursor
  match Utf8.decode bytes with
  | .ok text => return (text, behind)
  | .error _ => throw .malformed

def readParts : Nat → Cursor → Except Fault (Text × Cursor)
  | 0, cursor => .ok ([], cursor)
  | steps + 1, cursor => do
    let (plain, cursor) := cursor.takeWhile isPlain
    if cursor.peek? = some escapeMark then
      let (text, cursor) ← escaped cursor
      let (others, behind) ← readParts steps cursor
      return (plain ++ text ++ others, behind)
    else return (plain, cursor)

def read (cursor : Cursor) : Except Fault (Text × Cursor) :=
  if cursor.peek?.any fun c => isPlain c || c == escapeMark then
    readParts (cursor.rest.length + 1) cursor
  else .error .malformed

end TagName

/-! ## Handles -/

namespace Handle

def mark : Char := '!'

def read (cursor : Cursor) : Except Fault (Text × Cursor) :=
  if cursor.peek? ≠ some mark then .error .malformed
  else if cursor.peekAt? 1 = some ' ' then .ok ([mark], cursor.step)
  else
    let (name, behind) := cursor.step.takeWhile isNamePart
    if behind.peek? = some mark then .ok ([mark] ++ name ++ [mark], behind.step)
    else .error .malformed

end Handle

/-! ## Tags -/

/-- A tag as it is written: without a handle it is written in full. -/
structure WrittenTag where
  handle : Option Text
  name : Text
deriving DecidableEq, Repr

namespace WrittenTag

/-- A mark alone leaves it to the form of a scalar what that is. -/
def unspecific : WrittenTag := ⟨none, [Handle.mark]⟩

def readFull (cursor : Cursor) : Except Fault (WrittenTag × Cursor) := do
  let (name, cursor) ← TagName.read cursor
  if cursor.peek? = some '>' then return (⟨none, name⟩, cursor.step) else throw .malformed

/-- Reads a handle and a name. A single mark is the handle unless there is a second one. -/
def readShort (cursor : Cursor) : Except Fault (WrittenTag × Cursor) := do
  let word := cursor.step.rest.takeWhile fun c => !endsWord (some c)
  let (handle, cursor) ←
    if word.contains Handle.mark then Handle.read cursor
    else pure ([Handle.mark], cursor.step)
  let (name, cursor) ← TagName.read cursor
  return (⟨some handle, name⟩, cursor)

def read (cursor : Cursor) : Except Fault (WrittenTag × Cursor) := do
  let next := cursor.peekAt? 1
  let (tag, cursor) ←
    if next = some '<' then readFull (cursor.advance 2)
    else if isGap next then pure (unspecific, cursor.step)
    else readShort cursor
  if endsWord cursor.peek? then return (tag, cursor) else throw .malformed

end WrittenTag

/-! ## Directives -/

inductive Directive where
  | version (major : Int)
  | handle (handle start : Text)
  | other
deriving DecidableEq, Repr

namespace Directive

def skipSpaces (cursor : Cursor) : Cursor := cursor.skipWhile (· == ' ')

def readNumber (cursor : Cursor) : Except Fault (Int × Cursor) := do
  let (digits, cursor) := cursor.takeWhile Char.isDigit
  if digits.isEmpty then throw .malformed
  match Text.integerIn 10 digits with
  | .ok number => return (number, cursor)
  | .error fault => throw (.ofInteger 10 digits fault)

def readVersion (cursor : Cursor) : Except Fault (Directive × Cursor) := do
  let (major, cursor) ← readNumber (skipSpaces cursor)
  if cursor.peek? ≠ some '.' then throw .malformed
  let (_, cursor) ← readNumber cursor.step
  if endsWord cursor.peek? then return (version major, cursor) else throw .malformed

def readHandle (cursor : Cursor) : Except Fault (Directive × Cursor) := do
  let (word, cursor) ← Handle.read (skipSpaces cursor)
  if cursor.peek? ≠ some ' ' then throw .malformed
  let (start, cursor) ← TagName.read (skipSpaces cursor)
  if endsWord cursor.peek? then return (handle word start, cursor) else throw .malformed

def readLineEnd (cursor : Cursor) : Except Fault Cursor :=
  let cursor := skipSpaces cursor
  let cursor := if cursor.peek? = some '#' then cursor.skipWhile (!isBreak ·) else cursor
  if cursor.peek?.all isBreak then .ok cursor.step else .error .malformed

def read (cursor : Cursor) : Except Fault (Directive × Cursor) := do
  let (name, cursor) := cursor.takeWhile isNamePart
  if name.isEmpty || !endsWord cursor.peek? then throw .malformed
  let (directive, cursor) ←
    if name = "YAML".toList then readVersion cursor
    else if name = "TAG".toList then readHandle cursor
    else pure (other, cursor.skipWhile (!isBreak ·))
  return (directive, ← readLineEnd cursor)

end Directive

end DocAtlas.Yaml
