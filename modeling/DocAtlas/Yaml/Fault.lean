import DocAtlas.Calendar
import DocAtlas.Text.Quoted
import DocAtlas.Value

/-!
# Reading documents

A loader gives the value that a text holds, or why it holds none: the text is no
document, or a scalar in it is tagged or formed as something that it does not write. The files
of a project are read with whatever loader there is.
-/

namespace DocAtlas.Yaml

inductive Fault where
  /-- It breaks the grammar, or a node has a tag that does not fit. -/
  | malformed
  /-- It writes no integer in the base that it is read in. -/
  | integer (base : Nat) (text : Text)
  | longInteger (digits : Nat)
  /-- It writes no number. -/
  | real (text : Text)
  /-- The sixties of a number are past the range of numbers. -/
  | hugeReal
  /-- A number without a digit or a sign. -/
  | blankNumber
  /-- It is no word for true or false. -/
  | truth
  /-- It has not the form of a date or a time. -/
  | moment
  /-- A mapping stands for a date or a time. -/
  | momentOfMapping
  | calendar (fault : Calendar.Fault)
  /-- An escape stands for a code that no character has. -/
  | character (code : Nat)
deriving DecidableEq, Repr

namespace Fault

def ofInteger (base : Nat) (text : Text) : Text.IntegerFault → Fault
  | .unreadable => integer base text
  | .tooLong digits => longInteger digits

def quotedLength : Nat := 200

/-- Codes that fit into 31 bits are told from the larger ones. -/
def characterMessage (code : Nat) : Text :=
  if code < Nat.pow 2 31 then "chr() arg not in range(0x110000)"
  else "Python int too large to convert to C int"

def message : Fault → Text
  | malformed => "malformed document"
  | integer base text =>
    Text.join ["invalid literal for int() with base ", Text.natText base, ": ",
      (Text.quoted text).take quotedLength]
  | longInteger digits =>
    Text.join ["Exceeds the limit (", Text.natText Text.maxDigits,
      " digits) for integer string conversion: value has ", Text.natText digits,
      " digits; use sys.set_int_max_str_digits() to increase the limit"]
  | real text => Text.join ["could not convert string to float: ", Text.quoted text]
  | hugeReal => "int too large to convert to float"
  | blankNumber => "string index out of range"
  | truth => "not a truth value"
  | moment => "not a date or a time"
  | momentOfMapping => "not a text"
  | calendar fault => fault.message
  | character code => characterMessage code

end Fault

abbrev Loader := Text → Except Fault Value

end DocAtlas.Yaml
