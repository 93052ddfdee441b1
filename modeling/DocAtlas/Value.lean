import DocAtlas.Calendar
import DocAtlas.Decimal.Reading

/-!
# Values

The data that a settings file or a symbol file holds: scalars, lists, sets, pairs, and
mappings that keep the order in which their keys were written. A container may hold
itself: then it is a knot with a label, and the loops inside that carry the label stand
for the knot. `opened` unties a knot once, so that whoever looks into a container finds
whole values in it.
-/

namespace DocAtlas

inductive Value where
  | null
  | truth (value : Bool)
  | integer (value : Int)
  | real (value : Float)
  | text (value : Text)
  | bytes (value : List UInt8)
  | date (value : Date)
  | moment (value : Moment)
  | list (items : List Value)
  | pair (first second : Value)
  | set (items : List Value)
  | mapping (entries : List (Value × Value))
  | knot (label : Nat) (container : Value)
  | loop (label : Nat)

namespace Value

def record (fields : List (Text × Value)) : Value :=
  .mapping (fields.map fun field => (.text field.1, field.2))

def texts (items : List Text) : Value := .list (items.map .text)

def ofOption (present : α → Value) : Option α → Value
  | none => .null
  | some value => present value

/-! ## Knots -/

mutual
def fill (label : Nat) (whole : Value) : Value → Value
  | .list items => .list (fillItems label whole items)
  | .pair first second => .pair (fill label whole first) (fill label whole second)
  | .set items => .set (fillItems label whole items)
  | .mapping entries => .mapping (fillEntries label whole entries)
  | .knot other container =>
    if other = label then .knot other container else .knot other (fill label whole container)
  | .loop other => if other = label then whole else .loop other
  | scalar => scalar

def fillItems (label : Nat) (whole : Value) : List Value → List Value
  | [] => []
  | item :: rest => fill label whole item :: fillItems label whole rest

def fillEntries (label : Nat) (whole : Value) : List (Value × Value) → List (Value × Value)
  | [] => []
  | (key, value) :: rest =>
    (fill label whole key, fill label whole value) :: fillEntries label whole rest
end

/-- The container of a knot with the knot itself in place of its loops. -/
def opened : Value → Value
  | .knot label container => fill label (.knot label container) container
  | value => value

example : opened (.knot 0 (.list [.null, .loop 0])) =
    .list [.null, .knot 0 (.list [.null, .loop 0])] := by
  simp [opened, fill, fillItems]

/-! ## Looking into containers -/

def items? (value : Value) : Option (List Value) :=
  match value.opened with
  | .list items => some items
  | _ => none

def entries? (value : Value) : Option (List (Value × Value)) :=
  match value.opened with
  | .mapping entries => some entries
  | _ => none

def isText (expected : Text) : Value → Bool
  | .text value => value == expected
  | _ => false

/-- What a mapping holds under a text; the last of several entries counts. -/
def lookup? (key : Text) (entries : List (Value × Value)) : Option Value :=
  (entries.reverse.find? fun entry => entry.1.isText key).map (·.2)

def field? (key : Text) (value : Value) : Option Value := value.entries?.bind (lookup? key)

def isEmpty : Value → Bool
  | .null => true
  | .truth value => !value
  | .integer value => value == 0
  | .real value => value == 0.0
  | .text value => value.isEmpty
  | .bytes value => value.isEmpty
  | .list items => items.isEmpty
  | .set items => items.isEmpty
  | .mapping entries => entries.isEmpty
  | _ => false

/-! ## Keys -/

def asInteger? : Value → Option Int
  | .truth value => some (if value then 1 else 0)
  | .integer value => some value
  | .real value => Decimal.integer? value
  | _ => none

/-- Whether two scalars are one key: numbers if they are equal, a truth value as zero or
one. -/
def sameKey (first second : Value) : Bool :=
  match first, second with
  | .null, .null => true
  | .text a, .text b => a == b
  | .bytes a, .bytes b => a == b
  | .date a, .date b => a == b
  | .moment a, .moment b => a.same b
  | .real a, .real b => a == b
  | a, b =>
    match a.asInteger?, b.asInteger? with
    | some a, some b => a == b
    | _, _ => false

/-! ## Long integers -/

def isLongInteger : Value → Bool
  | .integer value => Text.isTooLong value
  | _ => false

mutual
def hasLongInteger : Value → Bool
  | .list items => anyLongInteger items
  | .pair first second => hasLongInteger first || hasLongInteger second
  | .set items => anyLongInteger items
  | .mapping entries => anyLongEntry entries
  | .knot _ container => hasLongInteger container
  | scalar => scalar.isLongInteger

def anyLongInteger : List Value → Bool
  | [] => false
  | item :: rest => hasLongInteger item || anyLongInteger rest

def anyLongEntry : List (Value × Value) → Bool
  | [] => false
  | (key, value) :: rest => hasLongInteger key || hasLongInteger value || anyLongEntry rest
end

end Value

end DocAtlas
