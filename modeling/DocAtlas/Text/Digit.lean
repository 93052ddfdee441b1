import DocAtlas.Text.Blank

/-!
# Digits and integers

A decimal digit of any script stands for its value, and the letters of the Latin alphabet
go on from ten. An integer is written with an optional sign and digits of a base, single
underscores between digits, blanks around; the base may be named in front of the digits.
-/

namespace DocAtlas.Text

def digitZeros : List Nat :=
  [0x30, 0x660, 0x6f0, 0x7c0, 0x966, 0x9e6, 0xa66, 0xae6, 0xb66, 0xbe6, 0xc66, 0xce6, 0xd66,
    0xde6, 0xe50, 0xed0, 0xf20, 0x1040, 0x1090, 0x17e0, 0x1810, 0x1946, 0x19d0, 0x1a80, 0x1a90,
    0x1b50, 0x1bb0, 0x1c40, 0x1c50, 0xa620, 0xa8d0, 0xa900, 0xa9d0, 0xa9f0, 0xaa50, 0xabf0,
    0xff10, 0x104a0, 0x10d30, 0x11066, 0x110f0, 0x11136, 0x111d0, 0x112f0, 0x11450, 0x114d0,
    0x11650, 0x116c0, 0x11730, 0x118e0, 0x11950, 0x11c50, 0x11d50, 0x11da0, 0x16a60, 0x16ac0,
    0x16b50, 0x1d7ce, 0x1d7d8, 0x1d7e2, 0x1d7ec, 0x1d7f6, 0x1e140, 0x1e2f0, 0x1e950, 0x1fbf0]

def digitValue? (c : Char) : Option Nat :=
  (digitZeros.find? fun first => first ≤ c.toNat && c.toNat < first + 10).map (c.toNat - ·)

def numeral? (c : Char) : Option Nat :=
  if 'a' ≤ c && c ≤ 'z' then some (c.toNat - 'a'.toNat + 10)
  else if 'A' ≤ c && c ≤ 'Z' then some (c.toNat - 'A'.toNat + 10)
  else digitValue? c

def digitIn? (base : Nat) (c : Char) : Option Nat :=
  (numeral? c).filter fun value => value < base

/-- The digits of an unsigned integer, most significant first: at least one digit,
and between two digits at most one underscore. -/
def digits? (base : Nat) : Text → Option (List Nat)
  | [] => none
  | [c] => (digitIn? base c).map ([·])
  | c :: '_' :: d :: rest => do
    let first ← digitIn? base c
    let others ← digits? base (d :: rest)
    return first :: others
  | c :: d :: rest => do
    let first ← digitIn? base c
    let others ← digits? base (d :: rest)
    return first :: others

def ofDigits (base : Nat) (digits : List Nat) : Nat :=
  digits.foldl (fun value digit => value * base + digit) 0

/-! ## Integers -/

/-- The longest run of decimal digits that is read as one integer, or written as one. -/
def maxDigits : Nat := 4300

inductive IntegerFault where
  | unreadable
  | tooLong (digits : Nat)
deriving DecidableEq, Repr

/-- The information separators are no blanks around a number. -/
def isNumberBlank (c : Char) : Bool := isBlank c && !(0x1c ≤ c.toNat && c.toNat ≤ 0x1f)

def isBaseLetter (base : Nat) (c : Char) : Bool :=
  (base == 2 && (c == 'b' || c == 'B')) || (base == 8 && (c == 'o' || c == 'O')) ||
    (base == 16 && (c == 'x' || c == 'X'))

def dropBase (base : Nat) (text : Text) : Text :=
  match text with
  | '0' :: letter :: '_' :: rest => if isBaseLetter base letter then rest else text
  | '0' :: letter :: rest => if isBaseLetter base letter then rest else text
  | _ => text

/-- Reads the digits at the beginning of a text, behind which only blanks may stand. -/
def naturalIn (base : Nat) (text : Text) : Except IntegerFault Nat :=
  let run := text.takeWhile fun c => c == '_' || (digitIn? base c).isSome
  match digits? base run with
  | none => .error .unreadable
  | some digits =>
    if base == 10 && maxDigits < digits.length then .error (.tooLong digits.length)
    else if (text.drop run.length).all isNumberBlank then .ok (ofDigits base digits)
    else .error .unreadable

def cutSign : Text → Bool × Text
  | '-' :: rest => (true, rest)
  | '+' :: rest => (false, rest)
  | text => (false, text)

def integerIn (base : Nat) (text : Text) : Except IntegerFault Int :=
  let (negative, body) := cutSign (text.dropWhile isNumberBlank)
  (naturalIn base (dropBase base body)).map fun magnitude =>
    if negative then -(magnitude : Int) else magnitude

def integer? (text : Text) : Option Int := (integerIn 10 text).toOption

example : integer? " -1_0 ".toList = some (-10) := by decide

example : integer? "1__0".toList = none := by decide

example : (integerIn 16 "0x_Ff".toList).toOption = some 255 := by decide

def natText (n : Nat) : Text := Nat.toDigits 10 n

def intText : Int → Text
  | .ofNat n => natText n
  | .negSucc n => '-' :: natText (n + 1)

def isTooLong (n : Int) : Bool := Nat.pow 10 maxDigits ≤ n.natAbs

end DocAtlas.Text
