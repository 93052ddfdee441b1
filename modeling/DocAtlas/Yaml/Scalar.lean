import DocAtlas.Text.Base64
import DocAtlas.Text.Lowercase
import DocAtlas.Value
import DocAtlas.Yaml.Fault
import DocAtlas.Yaml.Kind

/-!
# Scalars

The value that the text of a scalar writes, once it is known what kind of value that is.
A tag may demand any kind of any text, so more is read here than the forms of plain
scalars allow, and more can go wrong.
-/

namespace DocAtlas.Yaml.Scalar

def dropGaps (text : Text) : Text := text.filter (· != '_')

def cutSign (text : Text) : Except Fault (Bool × Text) :=
  if text.isEmpty then .error .blankNumber else .ok (Text.cutSign text)

/-! ## Integers -/

def integerIn (base : Nat) (text : Text) : Except Fault Int :=
  (Text.integerIn base text).mapError (Fault.ofInteger base text)

def sixties (parts : List Int) : Int := parts.foldl (fun value part => value * 60 + part) 0

def unsignedInteger (text : Text) : Except Fault Int :=
  match text with
  | [] => .error .blankNumber
  | ['0'] => .ok 0
  | '0' :: 'b' :: digits => integerIn 2 digits
  | '0' :: 'x' :: digits => integerIn 16 digits
  | '0' :: _ => integerIn 8 text
  | _ =>
    if text.contains ':' then (Text.splitOn ':' text |>.mapM (integerIn 10)).map sixties
    else integerIn 10 text

def integer (text : Text) : Except Fault Int := do
  let (negative, body) ← cutSign (dropGaps text)
  let value ← unsignedInteger body
  return if negative then -value else value

/-! ## Numbers -/

def notANumberWord : Text := ".nan"

def decimal (text : Text) : Except Fault Float :=
  match Decimal.real? text with
  | some number => .ok number
  | none => .error (.real text)

def addSixties : Float → Nat → List Float → Except Fault Float
  | sum, _, [] => .ok sum
  | sum, unit, part :: earlier =>
    let scale := Decimal.toFloat unit 0
    if scale.isInf then .error .hugeReal
    else addSixties (sum + part * scale) (unit * 60) earlier

def unsignedReal (text : Text) : Except Fault Float :=
  if text == ".inf".toList then .ok Decimal.infinity
  else if text == notANumberWord then .ok Decimal.notANumber
  else if text.contains ':' then do
    let parts ← (Text.splitOn ':' text).mapM decimal
    addSixties 0.0 1 parts.reverse
  else decimal text

def real (text : Text) : Except Fault Float := do
  let (negative, body) ← cutSign (Text.lower (dropGaps text))
  return Decimal.negateIf negative (← unsignedReal body)

def isNotANumberWord (text : Text) : Bool :=
  (Text.cutSign (Text.lower (dropGaps text))).2 == notANumberWord

/-! ## Truth values and bytes -/

def truth (text : Text) : Except Fault Bool :=
  let word := Text.lower text
  if Kind.trueWords.contains word then .ok true
  else if Kind.falseWords.contains word then .ok false
  else .error .truth

def bytes (text : Text) : Except Fault (List UInt8) :=
  match if text.all fun c => c.toNat < 128 then Text.Base64.decode? text else none with
  | some bytes => .ok bytes
  | none => .error .malformed

/-! ## Dates and times -/

def digitsValue (digits : Text) : Nat := Text.ofDigits 10 (digits.map fun c => c.toNat - '0'.toNat)

def cutDigits (least most : Nat) (text : Text) : Option (Nat × Text) :=
  (Kind.dropDigits? least most text).map fun rest =>
    (digitsValue (text.take (text.length - rest.length)), rest)

def microseconds (text : Text) : Nat :=
  match text with
  | '.' :: rest =>
    let counted := (rest.takeWhile Char.isDigit).take 6
    digitsValue (counted ++ List.replicate (6 - counted.length) '0')
  | _ => 0

def zone? (text : Text) : Option (Option Int) :=
  if !Kind.isZone text then none
  else
    match text.dropWhile Kind.isSpaceOrTab with
    | [] => some none
    | sign :: rest =>
      let (hours, rest) := (cutDigits 1 2 rest).getD (0, [])
      let (minutes, _) := (cutDigits 2 2 (rest.drop 1)).getD (0, [])
      let distance : Int := hours * 60 + minutes
      some (some (if sign == '-' then -distance else distance))

def time? (date : Date) (text : Text) : Option Moment := do
  let (hour, rest) ← cutDigits 1 2 (← Kind.dropDateEnd? text)
  let (minute, rest) ← cutDigits 2 2 (← Text.dropStart? [':'] rest)
  let (second, rest) ← cutDigits 2 2 (← Text.dropStart? [':'] rest)
  let zone ← zone? (Kind.dropFraction rest)
  return ⟨date, hour, minute, second, microseconds rest, zone⟩

/-- A date, or a date and a time; the digits of the date's parts may be fewer. -/
def moment? (text : Text) : Option (Date ⊕ Moment) := do
  let (year, rest) ← cutDigits 4 4 text
  let (month, rest) ← cutDigits 1 2 (← Text.dropStart? ['-'] rest)
  let (day, rest) ← cutDigits 1 2 (← Text.dropStart? ['-'] rest)
  let date : Date := ⟨year, month, day⟩
  if rest.isEmpty then return .inl date else return .inr (← time? date rest)

def moment (text : Text) : Except Fault Value :=
  match moment? (Kind.dropLastBreak text) with
  | some (.inl date) => (date.check.map .date).mapError .calendar
  | some (.inr moment) => (moment.check.map .moment).mapError .calendar
  | none => .error .moment

/-! ## All together -/

def value (kind : Kind) (text : Text) : Except Fault Value :=
  match kind with
  | .null => .ok .null
  | .truth => (truth text).map .truth
  | .integer => (integer text).map .integer
  | .real => (real text).map .real
  | .text => .ok (.text text)
  | .bytes => (bytes text).map .bytes
  | .moment => moment text
  | _ => .error .malformed

end DocAtlas.Yaml.Scalar
