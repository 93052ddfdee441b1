import DocAtlas.Yaml.Cursor

/-!
# Scalars over several lines

The text of scalars in their four written forms. Inside plain and quoted scalars a line
break stands for a space, and further breaks for themselves. Block scalars keep their
lines or fold them, without their indentation.
-/

namespace DocAtlas.Yaml

abbrev Reading (α : Type) := Except Fault (α × Cursor)

def hexValue (digits : Text) : Nat := Text.ofDigits 16 (digits.filterMap Text.numeral?)

/-- The text of a break followed by others: one alone is a space. -/
def foldedBreak (first : Char) (others : Text) : Text :=
  if breakText first ≠ ['\n'] then breakText first ++ others
  else if others = [] then [' ']
  else others

/-! ## Plain scalars -/

namespace Plain

def endsInFlow (c : Char) : Bool := c ∈ [',', '?', '[', ']', '{', '}']

def followsFlowKey (c : Char) : Bool := c ∈ [',', '[', ']', '{', '}']

def chunk (inFlow : Bool) : Text → Text
  | [] => []
  | c :: rest =>
    let endsKey := c == ':' && (isGap rest.head? || (inFlow && rest.head?.any followsFlowKey))
    if isGap (some c) || endsKey || (inFlow && endsInFlow c) then [] else c :: chunk inFlow rest

/-- The empty lines behind a break, unless a document mark follows one of them. -/
def breaks : Nat → Cursor → Option (Text × Cursor)
  | 0, _ => none
  | steps + 1, cursor =>
    match cursor.peek? with
    | some ' ' => breaks steps cursor.step
    | some c =>
      if isBreak c then
        if cursor.step.atDocumentMark then none
        else (breaks steps cursor.step).map fun found => (breakText c ++ found.1, found.2)
      else some ([], cursor)
    | none => some ([], cursor)

/-- What stands between two chunks: spaces or breaks. Nothing is found at a document
mark. The flag tells whether a line was ended. -/
def between (cursor : Cursor) : Option Text × Cursor × Bool :=
  let (spaces, cursor) := cursor.takeWhile (· == ' ')
  match cursor.peek? with
  | some c =>
    if isBreak c then
      let behind := cursor.step
      if behind.atDocumentMark then (none, behind, true)
      else
        match breaks (behind.rest.length + 1) behind with
        | none => (none, behind, true)
        | some (others, cursor) => (some (foldedBreak c others), cursor, true)
    else (if spaces = [] then none else some spaces, cursor, false)
  | none => (if spaces = [] then none else some spaces, cursor, false)

def read (inFlow : Bool) (indent : Nat) : Nat → Text → Cursor → Text × Cursor × Bool
  | 0, gap, cursor => (gap, cursor, false)
  | steps + 1, gap, cursor =>
    if cursor.peek? = some '#' then ([], cursor, false)
    else
      match chunk inFlow cursor.rest with
      | [] => ([], cursor, false)
      | found =>
        match between (cursor.advance found.length) with
        | (none, behind, ended) => (gap ++ found, behind, ended)
        | (some next, behind, ended) =>
          if behind.peek? = some '#' ∨ (!inFlow ∧ behind.column < indent) then
            (gap ++ found, behind, ended)
          else
            let (text, last, endedLast) := read inFlow indent steps next behind
            (gap ++ found ++ text, last,
              if (chunk inFlow behind.rest).isEmpty then ended else endedLast)

end Plain

/-! ## Quoted scalars -/

namespace Quoted

def replacements : List (Char × Nat) :=
  [('0', 0), ('a', 7), ('b', 8), ('t', 9), ('\t', 9), ('n', 10), ('v', 11), ('f', 12),
   ('r', 13), ('e', 27), (' ', 32), ('\x22', 34), ('\\', 92), ('/', 47), ('N', 0x85),
   ('_', 0xa0), ('L', 0x2028), ('P', 0x2029)]

def codeLengths : List (Char × Nat) := [('x', 2), ('u', 4), ('U', 8)]

def breaks : Nat → Cursor → Reading Text
  | 0, _ => .error .malformed
  | steps + 1, cursor =>
    if cursor.atDocumentMark then .error .malformed
    else
      let cursor := cursor.skipWhile Kind.isSpaceOrTab
      match cursor.peek? with
      | some c =>
        if isBreak c then
          (breaks steps cursor.step).map fun found => (breakText c ++ found.1, found.2)
        else .ok ([], cursor)
      | none => .ok ([], cursor)

def gap (cursor : Cursor) : Reading Text :=
  let (spaces, cursor) := cursor.takeWhile Kind.isSpaceOrTab
  match cursor.peek? with
  | none => .error .malformed
  | some c =>
    if isBreak c then
      (breaks (cursor.rest.length + 1) cursor.step).map fun found =>
        (foldedBreak c found.1, found.2)
    else .ok (spaces, cursor)

def readCode (length : Nat) (cursor : Cursor) : Except Fault (Nat × Cursor) :=
  let digits := (cursor.rest.take length).takeWhile Kind.isHexDigit
  if digits.length < length then .error .malformed
  else .ok (hexValue digits, cursor.advance length)

def isHighSurrogate (code : Nat) : Bool := 0xd800 ≤ code && code < 0xdc00

def isLowSurrogate (code : Nat) : Bool := 0xdc00 ≤ code && code < 0xe000

def lowSurrogate? (cursor : Cursor) : Option (Nat × Cursor) :=
  match cursor.rest with
  | '\\' :: 'u' :: _ =>
    match readCode 4 (cursor.advance 2) with
    | .ok (code, behind) => if isLowSurrogate code then some (code, behind) else none
    | .error _ => none
  | _ => none

/-- What stands for a surrogate on its own, which no text has. -/
def replacementCode : Nat := 0xfffd

def readCharacter (length : Nat) (cursor : Cursor) : Except Fault (Text × Cursor) := do
  let (code, cursor) ← readCode length cursor
  if 0x110000 ≤ code then throw (.character code)
  match if isHighSurrogate code then lowSurrogate? cursor else none with
  | some (low, behind) =>
    return ([Char.ofNat (0x10000 + (code - 0xd800) * 0x400 + (low - 0xdc00))], behind)
  | none =>
    let isLone := isHighSurrogate code || isLowSurrogate code
    return ([Char.ofNat (if isLone then replacementCode else code)], cursor)

def escape (cursor : Cursor) : Reading Text :=
  match cursor.peek? with
  | none => .error .malformed
  | some c =>
    match replacements.lookup c, codeLengths.lookup c with
    | some code, _ => .ok ([Char.ofNat code], cursor.step)
    | none, some length => readCharacter length cursor.step
    | none, none =>
      if isBreak c then breaks (cursor.rest.length + 1) cursor.step else .error .malformed

def isOrdinary (c : Char) : Bool :=
  c != Char.ofNat 0x27 && c != '\x22' && c != '\\' && !isGap (some c)

def read (isDouble : Bool) : Nat → Cursor → Reading Text
  | 0, _ => .error .malformed
  | steps + 1, cursor =>
    let quote : Char := if isDouble then '\x22' else Char.ofNat 0x27
    let (plain, cursor) := cursor.takeWhile isOrdinary
    let continued (part : Text) (cursor : Cursor) : Reading Text :=
      (read isDouble steps cursor).map fun found => (plain ++ part ++ found.1, found.2)
    match cursor.peek? with
    | none => .error .malformed
    | some c =>
      if c = quote then
        if !isDouble ∧ cursor.peekAt? 1 = some quote then continued [quote] (cursor.advance 2)
        else .ok (plain, cursor.step)
      else if isDouble ∧ c = '\\' then
        match escape cursor.step with
        | .ok (part, cursor) => continued part cursor
        | .error fault => .error fault
      else if isGap (some c) then
        match gap cursor with
        | .ok (part, cursor) => continued part cursor
        | .error fault => .error fault
      else continued [c] cursor.step

end Quoted

/-! ## Block scalars -/

namespace Block

inductive Chomping where
  | clip
  | strip
  | keep
deriving DecidableEq, Repr

def chomping? (c : Char) : Option Chomping :=
  if c = '+' then some .keep else if c = '-' then some .strip else none

def increment? (c : Char) : Option (Except Fault Nat) :=
  if c.isDigit then
    some (if c = '0' then .error .malformed else .ok (c.toNat - '0'.toNat))
  else none

/-- The header behind a block's indicator: chomping and increment in either order. -/
def header (cursor : Cursor) : Except Fault ((Chomping × Option Nat) × Cursor) := do
  let first := cursor.peek?
  let (chomping, increment, cursor) ←
    match first.bind chomping?, first.bind increment? with
    | some chomping, _ =>
      match cursor.step.peek?.bind increment? with
      | some increment => do pure (chomping, some (← increment), cursor.advance 2)
      | none => pure (chomping, none, cursor.step)
    | none, some increment => do
      let increment ← increment
      match cursor.step.peek?.bind chomping? with
      | some chomping => pure (chomping, some increment, cursor.advance 2)
      | none => pure (Chomping.clip, some increment, cursor.step)
    | none, none => pure (Chomping.clip, none, cursor)
  if cursor.peek?.all fun c => c == ' ' || isBreak c then .ok ((chomping, increment), cursor)
  else .error .malformed

def endLine (cursor : Cursor) : Except Fault Cursor :=
  let cursor := cursor.skipWhile (· == ' ')
  let cursor := if cursor.peek? = some '#' then cursor.skipWhile (!isBreak ·) else cursor
  match cursor.peek? with
  | none => .ok cursor
  | some c => if isBreak c then .ok cursor.step else .error .malformed

/-- The empty lines before a block whose indentation is not given, and the deepest column
reached in them. -/
def detect : Nat → Nat → Cursor → Text × Nat × Cursor
  | 0, deepest, cursor => ([], deepest, cursor)
  | steps + 1, deepest, cursor =>
    match cursor.peek? with
    | some ' ' => detect steps (max deepest cursor.step.column) cursor.step
    | some c =>
      if isBreak c then
        let (breaks, deepest, last) := detect steps deepest cursor.step
        (breakText c ++ breaks, deepest, last)
      else ([], deepest, cursor)
    | none => ([], deepest, cursor)

def indentTo (indent : Nat) : Nat → Cursor → Cursor
  | 0, cursor => cursor
  | steps + 1, cursor =>
    if cursor.column < indent ∧ cursor.peek? = some ' ' then indentTo indent steps cursor.step
    else cursor

def breaks (indent : Nat) : Nat → Cursor → Text × Cursor
  | 0, cursor => ([], cursor)
  | steps + 1, cursor =>
    let cursor := indentTo indent (cursor.rest.length + 1) cursor
    match cursor.peek? with
    | some c =>
      if isBreak c then
        let (others, last) := breaks indent steps cursor.step
        (breakText c ++ others, last)
      else ([], cursor)
    | none => ([], cursor)

def startsBlank (cursor : Cursor) : Bool := cursor.peek?.any Kind.isSpaceOrTab

/-- What stands between two lines of a block: when it is folded, and neither line begins
with a blank, a single break is a space. -/
def joint (folded blankBefore blankAfter : Bool) (lineBreak breaks : Text) : Text :=
  if folded && lineBreak == ['\n'] && !blankBefore && !blankAfter then
    if breaks = [] then [' '] else []
  else lineBreak

def lines (folded : Bool) (indent : Nat) :
    Nat → Text → Cursor → Text × Text × Text × Cursor
  | 0, leading, cursor => ([], [], leading, cursor)
  | steps + 1, leading, cursor =>
    if cursor.column = indent ∧ cursor.peek? ≠ none then
      let blank := startsBlank cursor
      let (line, cursor) := cursor.takeWhile (!isBreak ·)
      let lineBreak := (cursor.peek?.map breakText).getD []
      let (others, behind) := breaks indent (cursor.rest.length + 1) cursor.step
      if behind.column = indent ∧ behind.peek? ≠ none then
        let (text, last, trailing, final) := lines folded indent steps others behind
        (leading ++ line ++ joint folded blank (startsBlank behind) lineBreak others ++ text,
          last, trailing, final)
      else (leading ++ line, lineBreak, others, behind)
    else ([], [], leading, cursor)

def chomp (chomping : Chomping) (text last trailing : Text) : Text :=
  match chomping with
  | .strip => text
  | .clip => text ++ last
  | .keep => text ++ last ++ trailing

def read (folded : Bool) (least : Nat) (cursor : Cursor) : Except Fault (Text × Cursor) := do
  let ((chomping, increment), cursor) ← header cursor
  let cursor ← endLine cursor
  let size := cursor.rest.length + 1
  let (leading, indent, cursor) : Text × Nat × Cursor :=
    match increment with
    | some increment =>
      let indent := least + increment - 1
      let (leading, cursor) := breaks indent size cursor
      (leading, indent, cursor)
    | none =>
      let (leading, deepest, cursor) := detect size 0 cursor
      (leading, max least deepest, cursor)
  let (text, last, trailing, cursor) := lines folded indent size leading cursor
  return (chomp chomping text last trailing, cursor)

end Block

end DocAtlas.Yaml
