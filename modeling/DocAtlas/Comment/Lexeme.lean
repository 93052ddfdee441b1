import DocAtlas.Text.Quoted

/-!
# Lexemes of a source text

A source text is a sequence of documentation comments, ordinary comments, quoted
literals and single characters. A documentation comment is opened by one of some
markers; where several fit, the longest does. A marker ending in a star opens nothing
before a slash, so that an empty ordinary comment stays one.

Main statement: a lexeme and the rest are the text, and a lexeme is never empty.
-/

namespace DocAtlas

open Text (newline singleQuote doubleQuote)

/-- The markers of documentation comments, longest first, at least one. -/
structure Markers where
  byLength : List Text
  nonempty : byLength ≠ []

namespace Markers

def ofList? (markers : List Text) : Option Markers :=
  let byLength := markers.mergeSort fun first second => second.length ≤ first.length
  if nonempty : byLength = [] then none else some ⟨byLength, nonempty⟩

def at? (markers : Markers) (text : Text) : Option (Text × Text) :=
  markers.byLength.findSome? fun marker =>
    (Text.dropStart? marker text).map fun after => (marker, after)

/-- Whether a marker before this text would make an empty ordinary comment. -/
def vetoed (marker after : Text) : Bool :=
  Text.endsWith ['*'] marker && Text.startsWith ['/'] after

def opening? (markers : Markers) (text : Text) : Option (Text × Text) :=
  match markers.at? text with
  | none => none
  | some (marker, after) => if vetoed marker after then none else some (marker, after)

theorem at?_append {markers : Markers} {text marker after : Text}
    (found : markers.at? text = some (marker, after)) : text = marker ++ after := by
  obtain ⟨candidate, _, dropped⟩ := List.exists_of_findSome?_eq_some found
  rw [Option.map_eq_some_iff] at dropped
  obtain ⟨rest, dropped, equal⟩ := dropped
  simp only [Prod.mk.injEq] at equal
  obtain ⟨rfl, rfl⟩ := equal
  exact Text.dropStart?_eq_some.mp dropped

theorem opening?_append {markers : Markers} {text marker after : Text}
    (found : markers.opening? text = some (marker, after)) : text = marker ++ after := by
  unfold opening? at found
  split at found
  · simp at found
  · next first rest equal =>
    split at found
    · simp at found
    · simp only [Option.some.injEq, Prod.mk.injEq] at found
      obtain ⟨rfl, rfl⟩ := found
      exact at?_append equal

end Markers

inductive Lexeme where
  | documentation (marker body : Text) (terminated : Bool)
  | lineComment (text : Text)
  | blockComment (text : Text)
  | literal (text : Text)
  | character (c : Char)
deriving DecidableEq, Repr

namespace Lexeme

def closing : Text := ['*', '/']

def text : Lexeme → Text
  | documentation marker body terminated =>
    marker ++ body ++ (if terminated then closing else [])
  | lineComment text | blockComment text | literal text => text
  | character c => [c]

/-! ## Where a lexeme ends -/

def cutClosing : Text → Option (Text × Text)
  | [] => none
  | '*' :: '/' :: rest => some ([], rest)
  | c :: rest => (cutClosing rest).map fun parts => (c :: parts.1, parts.2)

def cutLine : Text → Text × Text
  | [] => ([], [])
  | c :: rest =>
    if c = newline then ([c], rest) else (c :: (cutLine rest).1, (cutLine rest).2)

/-- Cuts behind the end of a quoted literal: the quote or a newline, unless it stands
behind a backslash. -/
def cutLiteral (quote : Char) : Text → Text × Text
  | [] => ([], [])
  | ['\\'] => (['\\'], [])
  | '\\' :: c :: rest =>
    ('\\' :: c :: (cutLiteral quote rest).1, (cutLiteral quote rest).2)
  | c :: rest =>
    if c = quote ∨ c = newline then ([c], rest)
    else (c :: (cutLiteral quote rest).1, (cutLiteral quote rest).2)

theorem cutClosing_append {text body after : Text} (cut : cutClosing text = some (body, after)) :
    text = body ++ closing ++ after := by
  fun_induction cutClosing text generalizing body with
  | case1 => simp at cut
  | case2 rest => simp_all [closing]
  | case3 c rest _ induction =>
    rw [Option.map_eq_some_iff] at cut
    obtain ⟨⟨inner, innerAfter⟩, found, equal⟩ := cut
    simp only [Prod.mk.injEq] at equal
    obtain ⟨rfl, rfl⟩ := equal
    simp [induction found]

theorem cutLine_append (text : Text) : (cutLine text).1 ++ (cutLine text).2 = text := by
  fun_induction cutLine text <;> simp_all

theorem cutLiteral_append (quote : Char) (text : Text) :
    (cutLiteral quote text).1 ++ (cutLiteral quote text).2 = text := by
  fun_induction cutLiteral quote text <;> simp_all

/-! ## Reading a lexeme -/

def ofMarker (marker after : Text) : Lexeme × Text :=
  match cutClosing after with
  | some (body, rest) => (documentation marker body true, rest)
  | none => (documentation marker after false, [])

def ordinary (c : Char) (rest : Text) : Lexeme × Text :=
  match c, rest with
  | '/', '/' :: more =>
    (lineComment ('/' :: (cutLine ('/' :: more)).1), (cutLine ('/' :: more)).2)
  | '/', '*' :: more =>
    match cutClosing more with
    | some (body, after) => (blockComment ('/' :: '*' :: body ++ closing), after)
    | none => (blockComment ('/' :: '*' :: more), [])
  | c, rest =>
    if c = doubleQuote ∨ c = singleQuote then
      (literal (c :: (cutLiteral c rest).1), (cutLiteral c rest).2)
    else (character c, rest)

def next? (markers : Markers) : Text → Option (Lexeme × Text)
  | [] => none
  | c :: rest =>
    match markers.opening? (c :: rest) with
    | some (marker, after) => some (ofMarker marker after)
    | none => some (ordinary c rest)

theorem ofMarker_append (marker after : Text) :
    (ofMarker marker after).1.text ++ (ofMarker marker after).2 = marker ++ after := by
  unfold ofMarker
  split
  · next body rest cut => simp [text, cutClosing_append cut]
  · simp [text]

theorem ordinary_append (c : Char) (rest : Text) :
    (ordinary c rest).1.text ++ (ordinary c rest).2 = c :: rest := by
  unfold ordinary
  split
  · next more => simp [text, cutLine_append]
  · next more =>
    split
    · next body after cut => simp [text, cutClosing_append cut]
    · simp [text]
  · split
    · simp [text, cutLiteral_append]
    · simp [text]

theorem next?_append {markers : Markers} {source rest : Text} {lexeme : Lexeme}
    (read : next? markers source = some (lexeme, rest)) : source = lexeme.text ++ rest := by
  unfold next? at read
  split at read
  · simp at read
  · next c tail =>
    split at read
    · next marker after opened =>
      simp only [Option.some.injEq] at read
      have whole := ofMarker_append marker after
      rw [Markers.opening?_append opened]
      simpa [read] using whole.symm
    · simp only [Option.some.injEq] at read
      have whole := ordinary_append c tail
      simpa [read] using whole.symm

theorem length_ordinary (c : Char) (rest : Text) :
    (ordinary c rest).2.length ≤ rest.length := by
  have whole := congrArg List.length (ordinary_append c rest)
  have nonempty : 0 < (ordinary c rest).1.text.length := by
    unfold ordinary
    split
    · simp [text]
    · split <;> simp [text]
    · split <;> simp [text]
  rw [List.length_append, List.length_cons] at whole
  omega

theorem length_next? {markers : Markers} {source rest : Text} {lexeme : Lexeme}
    (read : next? markers source = some (lexeme, rest)) : rest.length < source.length := by
  unfold next? at read
  split at read
  · simp at read
  · next c tail =>
    split at read
    · next marker after opened =>
      have whole := congrArg List.length (Markers.opening?_append opened)
      unfold ofMarker at read
      split at read
      · next body innerRest cut =>
        simp only [Option.some.injEq, Prod.mk.injEq] at read
        have inner := congrArg List.length (cutClosing_append cut)
        simp only [List.length_append, List.length_cons, closing, List.length_nil] at whole inner ⊢
        rw [← read.2]
        omega
      · simp only [Option.some.injEq, Prod.mk.injEq] at read
        simp [← read.2]
    · simp only [Option.some.injEq] at read
      have shorter := length_ordinary c tail
      simp only [read] at shorter
      simp only [List.length_cons]
      omega

end Lexeme

end DocAtlas
