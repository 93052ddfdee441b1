import DocAtlas.Name.Spelling

/-!
# Lists of names

The argument of a see-also command lists names with commas between them. A comma
inside parentheses belongs to a parameter list. Each name may be written as a
reference command, in braces, or as a call.

Main statement: the parts with the commas between them are the argument.
-/

namespace DocAtlas.NameList

open Text (trim)

/-- The parenthesis depth behind a character; a closing one never goes below zero. -/
def depthAfter (depth : Nat) (c : Char) : Nat :=
  if c = '(' then depth + 1 else if c = ')' then depth - 1 else depth

def cutOutside (depth : Nat) : Text → Text × List Text
  | [] => ([], [])
  | c :: rest =>
    if c = ',' ∧ depth = 0 then ([], (cutOutside 0 rest).1 :: (cutOutside 0 rest).2)
    else (c :: (cutOutside (depthAfter depth c) rest).1, (cutOutside (depthAfter depth c) rest).2)

def splitOutside (argument : Text) : List Text :=
  (cutOutside 0 argument).1 :: (cutOutside 0 argument).2

theorem intercalate_cutOutside (depth : Nat) (text : Text) :
    [','].intercalate ((cutOutside depth text).1 :: (cutOutside depth text).2) = text := by
  induction text generalizing depth with
  | nil => rfl
  | cons c rest induction =>
    unfold cutOutside
    split
    · next comma =>
      have step := induction 0
      simp_all [List.intercalate]
    · have step := induction (depthAfter depth c)
      cases parts : (cutOutside (depthAfter depth c) rest).2 <;>
        simp_all [List.intercalate]

theorem intercalate_splitOutside (argument : Text) :
    [','].intercalate (splitOutside argument) = argument :=
  intercalate_cutOutside 0 argument

def trimStops (text : Text) : Text := Text.dropEndWhile (· == '.') text

def dropCommand (name : Text) : Text :=
  match name with
  | '\\' :: 'l' :: rest => trim rest
  | name => name

def dropBraces (name : Text) : Text :=
  match name with
  | '{' :: rest => if rest.getLast? = some '}' then trim rest.dropLast else name
  | name => name

def readPart (part : Text) : Text :=
  Name.ofReference (dropBraces (dropCommand (trim (trimStops (trim part)))))

def read (argument : Text) : List Text :=
  ((splitOutside argument).map readPart).filter fun name => !name.isEmpty

end DocAtlas.NameList
