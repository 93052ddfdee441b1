import DocAtlas.Text.Basic

/-!
# Blank characters

A character is blank if it only separates: the ASCII white space, the four
information separators, and the Unicode spaces and line breaks. The zero-width
space and the byte order mark are not blank.
-/

namespace DocAtlas.Text

def isBlank (c : Char) : Bool :=
  let code := c.toNat
  (9 ≤ code && code ≤ 13) || (28 ≤ code && code ≤ 32) || code == 0x85 || code == 0xa0 ||
    code == 0x1680 || (0x2000 ≤ code && code ≤ 0x200a) || code == 0x2028 || code == 0x2029 ||
    code == 0x202f || code == 0x205f || code == 0x3000

def trimStart (text : Text) : Text := text.dropWhile isBlank

def trimEnd (text : Text) : Text := dropEndWhile isBlank text

def trim (text : Text) : Text := trimEnd (trimStart text)

example : trim " \t a b\n".toList = "a b".toList := rfl

end DocAtlas.Text
