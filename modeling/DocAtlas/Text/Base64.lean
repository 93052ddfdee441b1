import DocAtlas.Text.Basic

/-!
# Base 64

Bytes written in digits of six bits, four digits for three bytes. What is no digit is
skipped. The last bytes may take fewer digits, and then equals signs fill up the four;
behind those nothing is read.
-/

namespace DocAtlas.Text.Base64

def digit? (c : Char) : Option Nat :=
  if 'A' ≤ c && c ≤ 'Z' then some (c.toNat - 'A'.toNat)
  else if 'a' ≤ c && c ≤ 'z' then some (c.toNat - 'a'.toNat + 26)
  else if c.isDigit then some (c.toNat - '0'.toNat + 52)
  else if c = '+' then some 62
  else if c = '/' then some 63
  else none

/-- The place of the next digit among its four, the bits left of the digit before it, and
the number of equals signs since. -/
structure Quad where
  place : Nat
  bits : Nat
  signs : Nat

def start : Quad := ⟨0, 0, 0⟩

def Quad.next (quad : Quad) (digit : Nat) : List UInt8 × Quad :=
  match quad.place with
  | 0 => ([], ⟨1, digit, 0⟩)
  | 1 => ([UInt8.ofNat (quad.bits * 4 + digit / 16)], ⟨2, digit % 16, 0⟩)
  | 2 => ([UInt8.ofNat (quad.bits * 16 + digit / 4)], ⟨3, digit % 4, 0⟩)
  | _ => ([UInt8.ofNat (quad.bits * 64 + digit)], start)

/-- Reads digits from within a quad on. A quad that is neither full nor filled up by equals
signs is refused. -/
def decodeFrom (quad : Quad) : Text → Option (List UInt8)
  | [] => if quad.place = 0 then some [] else none
  | c :: rest =>
    if c = '=' then
      if quad.place < 2 then decodeFrom quad rest
      else if quad.place + quad.signs < 3 then
        decodeFrom { quad with signs := quad.signs + 1 } rest
      else some []
    else
      match digit? c with
      | none => decodeFrom quad rest
      | some digit =>
        let (bytes, quad) := quad.next digit
        (decodeFrom quad rest).map (bytes ++ ·)

def decode? (text : Text) : Option (List UInt8) := decodeFrom start text

example : decode? "aGk=".toList = some [104, 105] := by decide

example : decode? "aGk".toList = none := by decide

end DocAtlas.Text.Base64
