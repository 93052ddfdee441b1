import DocAtlas.Text.Digit

/-!
# Kinds of nodes

What a node is. Its tag says so; an untagged plain scalar is what its form says, by the
rules of YAML 1.1: truth values under many spellings, integers in four bases and in
sexagesimal notation, numbers with a point, dates and times, the null value, and texts for
all the rest. An exponent needs a point before it and a sign to make a number. A line break
at the end does not change the form.
-/

namespace DocAtlas.Yaml

inductive Kind where
  | null
  | truth
  | integer
  | real
  | text
  | bytes
  | moment
  | sequence
  | mapping
  | set
  | pairs
  | merge
  | stated
  | unknown
deriving DecidableEq, Repr

namespace Kind

/-! ## Tags -/

def standardTag (name : Text) : Text := "tag:yaml.org,2002:".toList ++ name

/-- The names of the standard tags. `stated` is the kind of the key under which a mapping
that stands for a scalar states it. -/
def names : List (Text × Kind) :=
  [("null", .null), ("bool", .truth), ("int", .integer), ("float", .real), ("str", .text),
    ("binary", .bytes), ("timestamp", .moment), ("seq", .sequence), ("map", .mapping),
    ("set", .set), ("omap", .pairs), ("pairs", .pairs), ("merge", .merge), ("value", .stated)]

def ofTag (tag : Text) : Kind :=
  match Text.dropStart? (standardTag []) tag with
  | some name => (names.lookup name).getD .unknown
  | none => .unknown

def isContainer : Kind → Bool
  | sequence | mapping | set | pairs => true
  | _ => false

/-! ## Forms of words -/

def spellings (word : Text) : List Text :=
  match word with
  | [] => [[]]
  | c :: rest => [word, c.toUpper :: rest, word.map Char.toUpper]

def trueWords : List Text := ["yes", "true", "on"]

def falseWords : List Text := ["no", "false", "off"]

def isTruth (text : Text) : Bool := ((trueWords ++ falseWords).flatMap spellings).contains text

def isNull (text : Text) : Bool :=
  text.isEmpty || text == ['~'] || (spellings "null").contains text

/-! ## Forms of numbers -/

def isDigitOrGap (c : Char) : Bool := c.isDigit || c == '_'

def isHexDigit (c : Char) : Bool :=
  c.isDigit || ('a' ≤ c && c ≤ 'f') || ('A' ≤ c && c ≤ 'F')

def isRun (isDigit : Char → Bool) (text : Text) : Bool :=
  !text.isEmpty && text.all fun c => isDigit c || c == '_'

def isSixtieth : Text → Bool
  | [c] => c.isDigit
  | [c, d] => '0' ≤ c && c ≤ '5' && d.isDigit
  | _ => false

def isWhole : Text → Bool
  | [] => false
  | c :: rest => c.isDigit && rest.all isDigitOrGap

/-- A whole part and, behind colons, at least as many sixtieths as wanted. -/
def isSexagesimal (least : Nat) (text : Text) : Bool :=
  match Text.splitOn ':' text with
  | whole :: sixtieths =>
    isWhole whole && sixtieths.all isSixtieth && least ≤ sixtieths.length
  | [] => false

def isUnsignedInteger (text : Text) : Bool :=
  match text with
  | ['0'] => true
  | '0' :: 'b' :: digits => isRun (fun c => c == '0' || c == '1') digits
  | '0' :: 'x' :: digits => isRun isHexDigit digits
  | '0' :: digits => isRun (fun c => '0' ≤ c && c ≤ '7') digits
  | other => isSexagesimal 0 other

def isInteger (text : Text) : Bool := isUnsignedInteger (Text.cutSign text).2

def isExponent : Text → Bool
  | [] => true
  | letter :: sign :: digits =>
    (letter == 'e' || letter == 'E') && (sign == '+' || sign == '-') && !digits.isEmpty &&
      digits.all Char.isDigit
  | _ => false

def infinityForms : List Text := [".inf", ".Inf", ".INF"]

def notANumberForms : List Text := [".nan", ".NaN", ".NAN"]

/-- A number with a point. Without digits before the point there is no sign, and behind
sexagesimal digits no exponent. -/
def isReal (text : Text) : Bool :=
  let body := (Text.cutSign text).2
  let whole := body.takeWhile (· != '.')
  let behind := (body.dropWhile (· != '.')).drop 1
  let fraction := behind.takeWhile isDigitOrGap
  let tail := behind.dropWhile isDigitOrGap
  body.contains '.' &&
    (infinityForms.contains body || notANumberForms.contains text ||
      (whole.isEmpty && text == body && isWhole fraction && isExponent tail) ||
      (isWhole whole && isExponent tail) || (isSexagesimal 1 whole && tail.isEmpty))

/-! ## Forms of dates and times -/

def dropDigits? (least most : Nat) (text : Text) : Option Text :=
  let count := ((text.take most).takeWhile Char.isDigit).length
  if least ≤ count then some (text.drop count) else none

def isSpaceOrTab (c : Char) : Bool := c == ' ' || c == '\t'

def dropDateEnd? (text : Text) : Option Text :=
  match text with
  | 'T' :: rest | 't' :: rest => some rest
  | c :: rest => if isSpaceOrTab c then some (rest.dropWhile isSpaceOrTab) else none
  | [] => none

def dropFraction : Text → Text
  | '.' :: rest => rest.dropWhile Char.isDigit
  | other => other

def isZone (text : Text) : Bool :=
  match text.dropWhile isSpaceOrTab with
  | [] => text.isEmpty
  | ['Z'] => true
  | sign :: rest =>
    (sign == '+' || sign == '-') &&
      match dropDigits? 1 2 rest with
      | some [] => true
      | some (':' :: minutes) => dropDigits? 2 2 minutes == some []
      | _ => false

def dropDate? (least : Nat) (text : Text) : Option Text := do
  let rest ← Text.dropStart? ['-'] (← dropDigits? 4 4 text)
  let rest ← Text.dropStart? ['-'] (← dropDigits? least 2 rest)
  dropDigits? least 2 rest

def dropTime? (text : Text) : Option Text := do
  let rest ← Text.dropStart? [':'] (← dropDigits? 1 2 (← dropDateEnd? text))
  let rest ← Text.dropStart? [':'] (← dropDigits? 2 2 rest)
  return dropFraction (← dropDigits? 2 2 rest)

/-- A date alone has all its digits; before a time they may be fewer. -/
def isMoment (text : Text) : Bool :=
  dropDate? 2 text == some [] || (((dropDate? 1 text).bind dropTime?).any isZone)

/-! ## All together -/

def dropLastBreak (text : Text) : Text :=
  if text.length != 1 && text.getLast? == some Text.newline then text.dropLast else text

/-- The marks that begin properties and aliases, alone, are of no known kind. -/
def isReserved (text : Text) : Bool := [['!'], ['&'], ['*']].contains text

def ofForm (text : Text) : Kind :=
  let form := dropLastBreak text
  if isTruth form then .truth
  else if isReal form then .real
  else if isInteger form then .integer
  else if form == ['<', '<'] then .merge
  else if isNull form then .null
  else if isMoment form then .moment
  else if form == ['='] then .stated
  else if isReserved form then .unknown
  else .text

end Kind

end DocAtlas.Yaml
