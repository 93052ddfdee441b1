import DocAtlas.Decimal.Shortest

/-!
# Reading decimal numbers

The 64-bit binary floating-point number that is nearest to a decimal one, found in exact
arithmetic: of two equally near ones the one with the even last bit. What is too large
becomes infinite.
-/

namespace DocAtlas.Decimal

/-! ## Rounding -/

/-- The integer nearest to a quotient; of two equally near ones the even one. -/
def roundedQuotient (numerator denominator : Nat) : Nat :=
  let below := numerator / denominator
  let twice := 2 * (numerator % denominator)
  if denominator < twice ∨ (twice = denominator ∧ below % 2 = 1) then below + 1 else below

example : [roundedQuotient 5 2, roundedQuotient 7 2, roundedQuotient 8 3] = [2, 4, 3] := rfl

def binaryMagnitude (numerator denominator : Nat) : Int :=
  let guess : Int := numerator.log2 - denominator.log2
  if numerator * twos (-guess) < denominator * twos guess then guess - 1 else guess

def infiniteBits : Nat := 2047 * twos 52

/-- The bits of the number nearest to a positive quotient. The smallest numbers are all
multiples of one unit; a mantissa that is rounded up to a power of two carries into the
exponent. -/
def nearestBits (numerator denominator : Nat) : Nat :=
  let unit := max (binaryMagnitude numerator denominator - 52) (-1074)
  let mantissa := roundedQuotient (numerator * twos (-unit)) (denominator * twos unit)
  min infiniteBits ((unit + 1074).toNat * twos 52 + mantissa)

/-- The bits of the number nearest to `digits * 10 ^ scale`. Far outside of the range of
exponents the powers of ten are not computed. -/
def bitsOf (digits : Nat) (scale : Int) : Nat :=
  let magnitude := ((digits.log2 : Int) * 30103).fdiv 100000 + scale
  if digits = 0 ∨ magnitude < -400 then 0
  else if 400 < magnitude then infiniteBits
  else nearestBits (digits * tens scale) (tens (-scale))

def toFloat (digits : Nat) (scale : Int) : Float := Float.ofBits (bitsOf digits scale).toUInt64

example : bitsOf 1 0 = 1023 * twos 52 := by decide

example : bitsOf 17976931348623159 292 = infiniteBits := by decide +kernel

/-! ## Numbers in a text -/

def isDigit (c : Char) : Bool := (Text.digitValue? c).isSome

def naturalOf (digits : Text) : Nat := Text.ofDigits 10 (digits.filterMap Text.digitValue?)

def negateIf (negative : Bool) (number : Float) : Float := if negative then -number else number

def infinity : Float := 1.0 / 0.0

def notANumber : Float := 0.0 / 0.0

def exponent? : Text → Option Int
  | [] => some 0
  | letter :: rest =>
    let (negative, digits) := Text.cutSign rest
    if letter == 'e' && digits != [] && digits.all isDigit then
      some (if negative then -(naturalOf digits : Int) else naturalOf digits)
    else none

/-- Digits with a point before, between or behind them and perhaps an exponent. -/
def unsigned? (text : Text) : Option Float :=
  let whole := text.takeWhile isDigit
  let (fraction, tail) : Text × Text :=
    match text.dropWhile isDigit with
    | '.' :: rest => (rest.takeWhile isDigit, rest.dropWhile isDigit)
    | rest => ([], rest)
  if whole ++ fraction = [] then none
  else (exponent? tail).map fun exponent =>
    toFloat (naturalOf (whole ++ fraction)) (exponent - fraction.length)

/-- The number that a text in lower case writes: with a sign or none, in digits or as a
word, blanks around. -/
def real? (text : Text) : Option Float :=
  let blankless := Text.dropEndWhile Text.isNumberBlank (text.dropWhile Text.isNumberBlank)
  let (negative, body) := Text.cutSign blankless
  let magnitude :=
    if ["inf".toList, "infinity".toList].contains body then some infinity
    else if body == "nan".toList then some notANumber
    else unsigned? body
  magnitude.map (negateIf negative)

/-! ## Whole numbers -/

def integer? (number : Float) : Option Int :=
  if number.isNaN || number.isInf then none
  else
    let bits := number.toBits.toNat
    let parts := Binary.ofBits bits
    let divisor := twos (-parts.exponent)
    if parts.mantissa % divisor = 0 then
      let magnitude := parts.mantissa * twos parts.exponent / divisor
      some (if bits / twos 63 % 2 = 1 then -(magnitude : Int) else magnitude)
    else none

end DocAtlas.Decimal
