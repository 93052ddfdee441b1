import DocAtlas.Text.Printable

/-!
# Quoted text

A text inside quotes, with everything that is not visible written as an escape.
Single quotes are used unless they would have to be escaped and double ones would
not.
-/

namespace DocAtlas.Text

def hexDigit (n : Nat) : Char := Nat.digitChar (n % 16)

def hexDigits : Nat → Nat → Text
  | 0, _ => []
  | width + 1, n => hexDigits width (n / 16) ++ [hexDigit n]

def singleQuote : Char := '\x27'

def doubleQuote : Char := '\x22'

def quotedChar (quote c : Char) : Text :=
  if c = quote ∨ c = '\\' then ['\\', c]
  else if c = '\n' then ['\\', 'n']
  else if c = '\r' then ['\\', 'r']
  else if c = '\t' then ['\\', 't']
  else if isPrintable c then [c]
  else if c.toNat < 0x100 then '\\' :: 'x' :: hexDigits 2 c.toNat
  else if c.toNat < 0x10000 then '\\' :: 'u' :: hexDigits 4 c.toNat
  else '\\' :: 'U' :: hexDigits 8 c.toNat

def quoteFor (text : Text) : Char :=
  if singleQuote ∈ text ∧ doubleQuote ∉ text then doubleQuote else singleQuote

def quoted (text : Text) : Text :=
  let quote := quoteFor text
  [quote] ++ text.flatMap (quotedChar quote) ++ [quote]

def quotedBytes (bytes : List UInt8) : Text :=
  let characters : Text := bytes.map fun byte => Char.ofNat byte.toNat
  let quote := quoteFor characters
  let spelled (c : Char) : Text :=
    if c.toNat < 0x7f then quotedChar quote c else '\\' :: 'x' :: hexDigits 2 c.toNat
  ['b', quote] ++ characters.flatMap spelled ++ [quote]

example : quoted "it\x27s".toList = "\"it's\"".toList := by decide

end DocAtlas.Text
