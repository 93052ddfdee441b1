import DocAtlas.Text.Basic

/-!
# Wildcards

A wildcard pattern is matched by whole texts. A star stands for any characters, a
question mark for one, and brackets for one of a set. A set may hold ranges, and is
complemented by an exclamation mark; ranges that run backwards hold nothing. A bracket
without an end stands for itself.
-/

namespace DocAtlas.Wildcard

/-- A set of characters as closed ranges, or all others. -/
structure CharSet where
  complemented : Bool
  ranges : List (Char × Char)
deriving DecidableEq, Repr

inductive Item where
  | anything
  | single
  | set (members : CharSet)
  | exactly (c : Char)
deriving DecidableEq, Repr

abbrev Pattern := List Item

namespace CharSet

def contains (set : CharSet) (c : Char) : Bool :=
  (set.ranges.any fun range => range.1 ≤ c && c ≤ range.2) != set.complemented

/-! ## Reading the inside of brackets

Dashes cut the inside into chunks; a dash is a range sign only between two chunks, the
last character of one and the first of the next being its ends. The chunk that a range
ends in is read on behind that character before another dash counts. -/

def cutDash : Nat → Text → Option (Text × Text)
  | _, [] => none
  | 0, '-' :: rest => some ([], rest)
  | 0, c :: rest => (cutDash 0 rest).map fun parts => (c :: parts.1, parts.2)
  | passed + 1, c :: rest => (cutDash passed rest).map fun parts => (c :: parts.1, parts.2)

def laterChunks : Nat → Text → List Text
  | 0, inside => [inside]
  | steps + 1, inside =>
    match cutDash 2 inside with
    | none => [inside]
    | some (chunk, rest) => chunk :: laterChunks steps rest

/-- The chunks of an inside; a dash at its end belongs to the chunk before it. -/
def chunks (inside : Text) : List Text :=
  let passed := if inside.head? = some '!' then 2 else 1
  match cutDash passed inside with
  | none => [inside]
  | some (first, rest) =>
    let all := first :: laterChunks rest.length rest
    if all.getLast? = some [] then
      match all.dropLast.reverse with
      | last :: others => others.reverse ++ [last ++ ['-']]
      | [] => all
    else all

/-- Joins two chunks whose ends make a range that runs backwards, without those ends. -/
def dropBackwards : List Text → List Text
  | [] => []
  | chunk :: rest =>
    match dropBackwards rest with
    | [] => [chunk]
    | next :: others =>
      match chunk.getLast?, next.head? with
      | some low, some high =>
        if high < low then (chunk.dropLast ++ next.drop 1) :: others else chunk :: next :: others
      | _, _ => chunk :: next :: others

def singles (text : Text) : List (Char × Char) := text.map fun c => (c, c)

/-- The ranges of a chunk and those behind it: between two of them a range, inside them
single characters. A dash behind nothing is one of them. -/
def rangesFrom : Text → List Text → List (Char × Char)
  | chunk, [] => singles chunk
  | chunk, next :: rest =>
    match chunk.getLast?, next with
    | some low, high :: behind =>
      singles chunk.dropLast ++ (low, high) :: rangesFrom behind rest
    | _, _ => singles chunk ++ ('-', '-') :: rangesFrom next rest

def ofInside (inside : Text) : CharSet :=
  match dropBackwards (chunks inside) with
  | [] => ⟨false, []⟩
  | ('!' :: first) :: rest => ⟨true, rangesFrom first rest⟩
  | first :: rest => ⟨false, rangesFrom first rest⟩

end CharSet

/-- The inside of brackets and what follows them. A closing bracket that comes first, or
right behind an exclamation mark, belongs to the inside. -/
def cutBrackets (text : Text) : Option (Text × Text) :=
  let (mark, rest) : Text × Text := match text with
    | '!' :: rest => (['!'], rest)
    | text => ([], text)
  let (first, rest) : Text × Text := match rest with
    | ']' :: rest => ([']'], rest)
    | rest => ([], rest)
  match rest.dropWhile (· != ']') with
  | ']' :: after => some (mark ++ first ++ rest.takeWhile (· != ']'), after)
  | _ => none

def read : Nat → Text → Pattern
  | 0, _ => []
  | _, [] => []
  | steps + 1, c :: rest =>
    if c = '*' then .anything :: read steps rest
    else if c = '?' then .single :: read steps rest
    else if c = '[' then
      match cutBrackets rest with
      | some (inside, after) => .set (CharSet.ofInside inside) :: read steps after
      | none => .exactly c :: read steps rest
    else .exactly c :: read steps rest

def ofText (text : Text) : Pattern := read text.length text

namespace Item

def admits (item : Item) (c : Char) : Bool :=
  match item with
  | anything => false
  | single => true
  | set members => members.contains c
  | exactly d => c == d

end Item

def anyEnd (test : Text → Bool) : Text → Bool
  | [] => test []
  | c :: rest => test (c :: rest) || anyEnd test rest

def accepts : Pattern → Text → Bool
  | [], text => text.isEmpty
  | .anything :: pattern, text => anyEnd (accepts pattern) text
  | _ :: _, [] => false
  | item :: pattern, c :: rest => item.admits c && accepts pattern rest

def matchesText (pattern text : Text) : Bool := accepts (ofText pattern) text

example : matchesText "*.[ch]".toList "a.h".toList = true := by decide +kernel

example : matchesText "[!a-c]?".toList "b1".toList = false := by decide +kernel

def isWildcard (text : Text) : Bool := text.any fun c => c == '*' || c == '?' || c == '['

end DocAtlas.Wildcard
