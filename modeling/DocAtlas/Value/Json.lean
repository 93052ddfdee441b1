import DocAtlas.Value.Literal
import DocAtlas.Text.Order

/-!
# Exported values

The text in which a value is exported: JSON in ASCII, with the keys of every object
in ascending order and two spaces for every level.
-/

namespace DocAtlas.Json

def unitEscape (unit : Nat) : Text := '\\' :: 'u' :: Text.hexDigits 4 unit

/-- One character between quotes. Characters past the first plane take two units. -/
def quotedChar (c : Char) : Text :=
  if c = Text.doubleQuote ∨ c = '\\' then ['\\', c]
  else if c = '\n' then ['\\', 'n']
  else if c = '\r' then ['\\', 'r']
  else if c = '\t' then ['\\', 't']
  else if c.toNat = 8 then ['\\', 'b']
  else if c.toNat = 12 then ['\\', 'f']
  else if c.toNat < 32 then unitEscape c.toNat
  else if c.toNat < 127 then [c]
  else if c.toNat < 0x10000 then unitEscape c.toNat
  else
    let offset := c.toNat - 0x10000
    unitEscape (0xd800 + offset / 0x400) ++ unitEscape (0xdc00 + offset % 0x400)

def quoted (text : Text) : Text :=
  [Text.doubleQuote] ++ text.flatMap quotedChar ++ [Text.doubleQuote]

def realText (number : Float) : Text :=
  if number.isNaN then "NaN"
  else if number.isInf then if number < 0 then "-Infinity" else "Infinity"
  else Decimal.ofFloat number

def scalar : Value → Text
  | .null => "null"
  | .truth value => if value then "true" else "false"
  | .integer value => Text.intText value
  | .real value => realText value
  | .text value => quoted value
  | .bytes value => quoted (Text.quotedBytes value)
  | .date value => quoted value.literal
  | .moment value => quoted value.literal
  | _ => "null"

def keyText : Value → Text
  | .text value => value
  | other => scalar other

def lineBreak (depth : Nat) : Text := '\n' :: List.replicate (2 * depth) ' '

def block (opening closing : Char) (depth : Nat) (parts : List Text) : Text :=
  if parts.isEmpty then [opening, closing]
  else
    let separator := ',' :: lineBreak (depth + 1)
    [opening] ++ lineBreak (depth + 1) ++ separator.intercalate parts ++
      lineBreak depth ++ [closing]

def sortedFields (fields : List (Text × Text)) : List (Text × Text) :=
  fields.mergeSort fun first second => Text.le first.1 second.1

mutual
/-- Lists, pairs and sets are arrays; where a container holds itself there is nothing. -/
def print (depth : Nat) : Value → Text
  | .list items => block '[' ']' depth (printItems (depth + 1) items)
  | .pair first second =>
    block '[' ']' depth [print (depth + 1) first, print (depth + 1) second]
  | .set items => block '[' ']' depth (printItems (depth + 1) items)
  | .knot _ container => print depth container
  | .mapping entries =>
    block '{' '}' depth ((sortedFields (printFields (depth + 1) entries)).map fun field =>
      Text.join [quoted field.1, ": ", field.2])
  | other => scalar other

def printItems (depth : Nat) : List Value → List Text
  | [] => []
  | item :: rest => print depth item :: printItems depth rest

def printFields (depth : Nat) : List (Value × Value) → List (Text × Text)
  | [] => []
  | (key, value) :: rest => (keyText key, print depth value) :: printFields depth rest
end

end DocAtlas.Json
