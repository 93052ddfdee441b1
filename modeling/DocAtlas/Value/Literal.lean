import DocAtlas.Value
import DocAtlas.Text.Quoted

/-!
# Spelled values

How a value is spelled inside a message: texts quoted, containers in brackets, dates by
their parts. A container inside itself is spelled by its brackets alone.
-/

namespace DocAtlas

namespace Value

open Text (intText)
open Calendar (commaSeparated)

def truthText (value : Bool) : Text := if value then "True" else "False"

def longIntegerMessage : Text :=
  Text.join ["Exceeds the limit (", Text.natText Text.maxDigits,
    " digits) for integer string conversion; use sys.set_int_max_str_digits() to increase ",
    "the limit"]

def bracketed (opening closing : Char) (parts : List Text) : Text :=
  [opening] ++ commaSeparated parts ++ [closing]

def listLiteral (parts : List Text) : Text := bracketed '[' ']' parts

def mappingLiteral (parts : List Text) : Text := bracketed '{' '}' parts

def pairLiteral (parts : List Text) : Text := bracketed '(' ')' parts

/-- A set without items has a name; its brackets alone would be a mapping's. -/
def setLiteral (parts : List Text) : Text :=
  if parts.isEmpty then "set()" else mappingLiteral parts

def ellipsis : Value → Text
  | .mapping _ => mappingLiteral ["..."]
  | _ => listLiteral ["..."]

mutual
/-- Spells a value inside knots of which it is known what stands for them. -/
def literalIn (knots : List (Nat × Text)) : Value → Text
  | .null => "None"
  | .truth value => truthText value
  | .integer value => intText value
  | .real value => Decimal.ofFloat value
  | .text value => Text.quoted value
  | .bytes value => Text.quotedBytes value
  | .date value => value.literal
  | .moment value => value.literal
  | .list items => listLiteral (literalsIn knots items)
  | .pair first second => pairLiteral [literalIn knots first, literalIn knots second]
  | .set items => setLiteral (literalsIn knots items)
  | .mapping entries => mappingLiteral (entryLiteralsIn knots entries)
  | .knot label container =>
    match knots.lookup label with
    | some short => short
    | none => literalIn ((label, container.ellipsis) :: knots) container
  | .loop label => (knots.lookup label).getD (listLiteral ["..."])

def literalsIn (knots : List (Nat × Text)) : List Value → List Text
  | [] => []
  | item :: rest => literalIn knots item :: literalsIn knots rest

def entryLiteralsIn (knots : List (Nat × Text)) : List (Value × Value) → List Text
  | [] => []
  | (key, value) :: rest =>
    Text.join [literalIn knots key, ": ", literalIn knots value] :: entryLiteralsIn knots rest
end

def literal (value : Value) : Text := literalIn [] value

def scalarText? : Value → Option Text
  | .text value => some value
  | .integer value => some (intText value)
  | .real value => some (Decimal.ofFloat value)
  | .truth value => some (truthText value)
  | _ => none

end Value

end DocAtlas
