import DocAtlas.Text.Digit
import DocAtlas.Text.Quoted

/-!
# Texts as bytes

Decoding of UTF-8. A character past ASCII is begun by a byte that says how many more
follow and in which range the first of those lies; shorter and longer spellings of one
character, surrogates and codes past the last plane are refused. A fault tells which
bytes could not be decoded.
-/

namespace DocAtlas.Utf8

inductive Reason where
  | invalidStart
  | invalidContinuation
  | unexpectedEnd
deriving DecidableEq, Repr

/-- The bytes from `start` up to `stop` begin no character; `lead` is their first. -/
structure Fault where
  reason : Reason
  lead : UInt8
  start : Nat
  stop : Nat
deriving DecidableEq, Repr

namespace Reason

def message : Reason → Text
  | invalidStart => "invalid start byte"
  | invalidContinuation => "invalid continuation byte"
  | unexpectedEnd => "unexpected end of data"

end Reason

namespace Fault

def place (fault : Fault) : Text :=
  if fault.stop = fault.start + 1 then
    Text.join ["byte 0x", Text.hexDigits 2 fault.lead.toNat, " in position ",
      Text.natText fault.start]
  else
    Text.join ["bytes in position ", Text.natText fault.start, "-",
      Text.natText (fault.stop - 1)]

def message (fault : Fault) : Text :=
  Text.join ["'utf-8' codec can't decode ", fault.place, ": ", fault.reason.message]

end Fault

/-- A character that is not complete: where and how it began, how many bytes are missing,
the range of the next one, and the bits so far. -/
structure Pending where
  start : Nat
  lead : UInt8
  missing : Nat
  low : UInt8
  high : UInt8
  bits : Nat
deriving DecidableEq, Repr

def begin? (position : Nat) (byte : UInt8) : Option Pending :=
  let code := byte.toNat
  let pending (missing : Nat) (low high : UInt8) (bits : Nat) : Option Pending :=
    some ⟨position, byte, missing, low, high, bits⟩
  if code < 0xc2 then none
  else if code < 0xe0 then pending 1 0x80 0xbf (code - 0xc0)
  else if code = 0xe0 then pending 2 0xa0 0xbf 0
  else if code = 0xed then pending 2 0x80 0x9f 13
  else if code < 0xf0 then pending 2 0x80 0xbf (code - 0xe0)
  else if code = 0xf0 then pending 3 0x90 0xbf 0
  else if code < 0xf4 then pending 3 0x80 0xbf (code - 0xf0)
  else if code = 0xf4 then pending 3 0x80 0x8f 4
  else none

def decodeFrom (position : Nat) (pending : Option Pending) : List UInt8 → Except Fault Text
  | [] =>
    match pending with
    | none => .ok []
    | some part => .error ⟨.unexpectedEnd, part.lead, part.start, position⟩
  | byte :: rest =>
    match pending with
    | none =>
      if byte < 0x80 then
        (decodeFrom (position + 1) none rest).map (Char.ofNat byte.toNat :: ·)
      else
        match begin? position byte with
        | none => .error ⟨.invalidStart, byte, position, position + 1⟩
        | some part => decodeFrom (position + 1) (some part) rest
    | some part =>
      if part.low ≤ byte ∧ byte ≤ part.high then
        let bits := part.bits * 64 + byte.toNat % 64
        if part.missing = 1 then
          (decodeFrom (position + 1) none rest).map (Char.ofNat bits :: ·)
        else
          decodeFrom (position + 1)
            (some { part with missing := part.missing - 1, low := 0x80, high := 0xbf,
                              bits := bits }) rest
      else .error ⟨.invalidContinuation, part.lead, part.start, position⟩

def decode (bytes : List UInt8) : Except Fault Text := decodeFrom 0 none bytes

def encode (text : Text) : List UInt8 := (String.ofList text).toUTF8.toList

def unifyLineEnds : Text → Text
  | [] => []
  | '\r' :: '\n' :: rest => '\n' :: unifyLineEnds rest
  | '\r' :: rest => '\n' :: unifyLineEnds rest
  | c :: rest => c :: unifyLineEnds rest

end DocAtlas.Utf8
