import DocAtlas.Text.Digit

/-!
# Shortest decimal text of a binary number

A 64-bit binary floating-point number stands for every real number that rounds to
it. Its text has the fewest digits that still lie among those, and of two such
candidates the nearer one. Exponents from -4 to 15 are written positionally, others
with a sign and at least two exponent digits; a point is always followed by a digit.
-/

namespace DocAtlas.Decimal

/-- A power of two; below the zeroth it counts as one. -/
def twos (power : Int) : Nat := Nat.pow 2 power.toNat

def tens (power : Int) : Nat := Nat.pow 10 power.toNat

/-- A positive finite number `mantissa * 2 ^ exponent`; `narrow` says that the
number below is only half as far away as the number above. -/
structure Binary where
  mantissa : Nat
  exponent : Int
  narrow : Bool

def Binary.ofBits (bits : Nat) : Binary :=
  let fraction := bits % twos 52
  let biased := bits / twos 52 % twos 11
  if biased = 0 then ⟨fraction, -1074, false⟩
  else ⟨twos 52 + fraction, (biased : Int) - 1075, fraction == 0 && biased != 1⟩

/-- The quarters of `2 ^ exponent` in the number and in the ends of the interval of
reals that round to it, all over one denominator. -/
structure Interval where
  low : Nat
  value : Nat
  high : Nat
  denominator : Nat
  closed : Bool

def Binary.interval (number : Binary) : Interval :=
  let up := twos number.exponent
  let down := 4 * twos (-number.exponent)
  let quarters := 4 * number.mantissa
  { low := (quarters - if number.narrow then 1 else 2) * up
    value := quarters * up
    high := (quarters + 2) * up
    denominator := down
    closed := number.mantissa % 2 == 0 }

def Interval.contains (interval : Interval) (digits : Nat) (scale : Int) : Bool :=
  let candidate := digits * tens scale * interval.denominator
  let unit := tens (-scale)
  if interval.closed then
    interval.low * unit ≤ candidate && candidate ≤ interval.high * unit
  else interval.low * unit < candidate && candidate < interval.high * unit

/-- The nearer of the value's two neighbours on the grid of `10 ^ scale` that lie in
the interval; a tie goes to the even one. -/
def Interval.neighbour? (interval : Interval) (scale : Int) : Option Nat :=
  let numerator := interval.value * tens (-scale)
  let divisor := interval.denominator * tens scale
  let below := numerator / divisor
  let twice := 2 * (numerator % divisor)
  let nearer :=
    if twice < divisor ∨ (twice = divisor ∧ below % 2 = 0) then [below, below + 1]
    else [below + 1, below]
  nearer.find? fun digits => interval.contains digits scale

def Interval.magnitude (interval : Interval) : Nat → Int → Int
  | 0, guess => guess
  | steps + 1, guess =>
    if interval.denominator * tens guess ≤ interval.value * tens (-guess) then guess
    else interval.magnitude steps (guess - 1)

def Interval.digits (interval : Interval) (first : Int) : Nat → Int → Nat × Int
  | 0, scale => (interval.value * tens (-scale) / interval.denominator, scale)
  | tries + 1, scale =>
    match interval.neighbour? scale with
    | some digits => (digits, scale)
    | none => interval.digits first tries (scale - 1)

/-- The shortest digits of a positive number and the power of ten they count. -/
def Binary.shortest (number : Binary) : Nat × Int :=
  let interval := number.interval
  let guess := ((number.mantissa.log2 + number.exponent) * 30103).fdiv 100000 + 1
  let first := interval.magnitude 8 guess
  interval.digits first 17 first

def layout (digits : Text) (exponent : Int) : Text :=
  let digits := match Text.dropEndWhile (· == '0') digits with
    | [] => ['0']
    | kept => kept
  if -4 ≤ exponent ∧ exponent < 16 then
    if exponent < 0 then "0.".toList ++ List.replicate (-exponent - 1).toNat '0' ++ digits
    else
      let whole := exponent.toNat + 1
      let fraction := digits.drop whole
      digits.take whole ++ List.replicate (whole - digits.length) '0' ++ ['.'] ++
        (if fraction = [] then ['0'] else fraction)
  else
    let power := Text.natText exponent.natAbs
    digits.take 1 ++ (if digits.length = 1 then [] else '.' :: digits.drop 1) ++
      ['e', if exponent < 0 then '-' else '+'] ++
      (if power.length < 2 then '0' :: power else power)

def positiveText (bits : Nat) : Text :=
  let (digits, scale) := (Binary.ofBits bits).shortest
  let text := Text.natText digits
  layout text (scale + text.length - 1)

def ofBits (bits : Nat) : Text :=
  let positive := bits % twos 63
  let sign : Text := if bits / twos 63 % 2 = 1 then ['-'] else []
  if positive / twos 52 = 2047 then
    if positive % twos 52 = 0 then sign ++ "inf" else "nan".toList
  else if positive = 0 then sign ++ "0.0"
  else sign ++ positiveText positive

def ofFloat (number : Float) : Text := ofBits number.toBits.toNat

end DocAtlas.Decimal
