/-!
# Text

A text is a list of characters, so that everything said about reading it is
said by recursion on it. String literals become texts where one is expected.

`lines` and `unlines` are inverse to each other on the texts that `lines` can
meet: cutting at every newline and joining again gives the text back.
-/

namespace DocAtlas

abbrev Text := List Char

instance : Coe String Text := ⟨String.toList⟩

namespace Text

def newline : Char := '\n'

def cutAt (separator : Char) : Text → Text × List Text
  | [] => ([], [])
  | c :: rest =>
    let (first, others) := cutAt separator rest
    if c = separator then ([], first :: others) else (c :: first, others)

def splitOn (separator : Char) (text : Text) : List Text :=
  (cutAt separator text).1 :: (cutAt separator text).2

def lines (text : Text) : List Text := splitOn newline text

def unlines (lines : List Text) : Text := [newline].intercalate lines

def unwords (words : List Text) : Text := [' '].intercalate words

def join (parts : List Text) : Text := parts.flatten

example : lines "a\n\nb".toList = [['a'], [], ['b']] := rfl

example : lines [] = [[]] := rfl

theorem splitOn_ne_nil (separator : Char) (text : Text) :
    splitOn separator text ≠ [] := by
  simp [splitOn]

theorem intercalate_splitOn (separator : Char) (text : Text) :
    [separator].intercalate (splitOn separator text) = text := by
  induction text with
  | nil => rfl
  | cons c rest induction =>
    simp only [splitOn, cutAt] at induction ⊢
    by_cases equal : c = separator
    · simp_all [List.intercalate]
    · cases parts : (cutAt separator rest).2 <;>
        simp_all [List.intercalate]

theorem unlines_lines (text : Text) : unlines (lines text) = text :=
  intercalate_splitOn newline text

def dropStart? : Text → Text → Option Text
  | [], text => some text
  | _ :: _, [] => none
  | c :: start, d :: text => if c = d then dropStart? start text else none

theorem dropStart?_eq_some {start text rest : Text} :
    dropStart? start text = some rest ↔ text = start ++ rest := by
  induction start generalizing text with
  | nil => simp [dropStart?, eq_comm]
  | cons c start induction =>
    cases text with
    | nil => simp [dropStart?]
    | cons d text =>
      by_cases equal : c = d
      · simp [dropStart?, equal, induction]
      · simp [dropStart?, equal, Ne.symm equal]

def startsWith (start text : Text) : Bool := start.isPrefixOf text

def endsWith (finish text : Text) : Bool := finish.isSuffixOf text

def dropEndWhile (test : Char → Bool) : Text → Text
  | [] => []
  | c :: rest =>
    match dropEndWhile test rest with
    | [] => if test c then [] else [c]
    | kept => c :: kept

def replaceChar (old new : Char) (text : Text) : Text :=
  text.map fun c => if c = old then new else c

/-- The text of a path in which backslashes count as slashes. -/
def slashed (path : Text) : Text := replaceChar '\\' '/' path

def trimNewlines (text : Text) : Text :=
  dropEndWhile (· == newline) (text.dropWhile (· == newline))

end Text

end DocAtlas
