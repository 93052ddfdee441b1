import DocAtlas.Segment
import DocAtlas.Vocabulary
import DocAtlas.Name.Spelling

/-!
# Inline commands

Prose is cut into pieces. A piece is an inline command together with its argument,
which stands in braces or is the next word, or it is text that is kept as written.
Commands that are unknown or have nothing to mark up are kept as written.

Main statement: the pieces put together are the prose, so nothing is lost.
-/

namespace DocAtlas

open Text (isBlank trim)

/-! ## Occurrences of commands -/

inductive InlineArgument where
  | missing
  | braced (blanks content : Text)
  | word (blanks letters : Text)
deriving DecidableEq, Repr

namespace InlineArgument

def written : InlineArgument → Text
  | missing => []
  | braced blanks content => blanks ++ '{' :: content ++ ['}']
  | word blanks letters => blanks ++ letters

def isWordPart (c : Char) : Bool := !isBlank c && c != '{' && c != '}'

def isInside (c : Char) : Bool := c != '}'

/-- The argument that a text begins with: after any blanks braces, or after at least
one blank a word. -/
def read (text : Text) : InlineArgument × Text :=
  match text.takeWhile isBlank, text.dropWhile isBlank with
  | blanks, '{' :: inside =>
    match inside.dropWhile isInside with
    | '}' :: rest => (.braced blanks (inside.takeWhile isInside), rest)
    | _ => (.missing, text)
  | blanks, after =>
    if blanks = [] ∨ after.takeWhile isWordPart = [] then (.missing, text)
    else (.word blanks (after.takeWhile isWordPart), after.dropWhile isWordPart)

theorem read_written (text : Text) : (read text).1.written ++ (read text).2 = text := by
  have parts := List.takeWhile_append_dropWhile (p := isBlank) (l := text)
  unfold read
  split
  · next blanks inside equal =>
    have inner := List.takeWhile_append_dropWhile (p := isInside) (l := inside)
    split
    · next rest closing =>
      rw [closing] at inner
      rw [equal, ← inner] at parts
      simpa [written] using parts
    · simp [written]
  · split
    · simp [written]
    · have inner := List.takeWhile_append_dropWhile (p := isWordPart)
        (l := text.dropWhile isBlank)
      simp only [written]
      rw [List.append_assoc, inner, parts]

theorem length_read (text : Text) : (read text).2.length ≤ text.length := by
  have whole := congrArg List.length (read_written text)
  rw [List.length_append] at whole
  omega

end InlineArgument

/-! ## Words at the end of a sentence -/

def isPunctuation (c : Char) : Bool := c ∈ ['.', ',', ';', ':', '!', '?', ')']

/-- Drops sentence punctuation from the front of a reversed word. A parenthesis stays
while it closes one of the word. -/
def dropPunctuation : Text → Text
  | [] => []
  | c :: rest =>
    if isPunctuation c && !(c == ')' && (c :: rest).count ')' ≤ (c :: rest).count '(') then
      dropPunctuation rest
    else c :: rest

def trimPunctuation (word : Text) : Text := (dropPunctuation word.reverse).reverse

example : trimPunctuation "f(x).)".toList = "f(x)".toList := by decide

theorem dropPunctuation_suffix (reversed : Text) : dropPunctuation reversed <:+ reversed := by
  induction reversed with
  | nil => exact List.suffix_refl _
  | cons c rest induction =>
    unfold dropPunctuation
    split
    · exact induction.trans (List.suffix_cons c rest)
    · exact List.suffix_refl _

theorem trimPunctuation_append (word : Text) :
    trimPunctuation word ++ word.drop (trimPunctuation word).length = word := by
  have suffix := List.reverse_prefix.mpr (dropPunctuation_suffix word.reverse)
  rw [List.reverse_reverse] at suffix
  exact (List.prefix_iff_eq_append.mp suffix)

/-! ## Pieces of prose -/

inductive Piece where
  | kept (text : Text)
  | command (style : InlineStyle) (written value : Text)
deriving DecidableEq, Repr

namespace Piece

def written : Piece → Text
  | kept text => text
  | command _ written _ => written

def plain (name : Text) (argument : InlineArgument) : Piece :=
  kept ('\\' :: name ++ argument.written)

def ofCommand (name : Text) (argument : InlineArgument) : List Piece :=
  match Vocabulary.inlineStyle? name, argument with
  | some style, .braced blanks content =>
    if trim content = [] then [plain name (.braced blanks content)]
    else [command style ('\\' :: name ++ argument.written) (trim content)]
  | some style, .word blanks word =>
    if trimPunctuation word = [] then [plain name (.word blanks word)]
    else
      [command style ('\\' :: name ++ blanks ++ trimPunctuation word) (trimPunctuation word),
        kept (word.drop (trimPunctuation word).length)]
  | _, argument => [plain name argument]

theorem written_ofCommand (name : Text) (argument : InlineArgument) :
    (ofCommand name argument).flatMap written = '\\' :: name ++ argument.written := by
  unfold ofCommand
  split
  · split <;> simp [written, plain]
  · next style blanks word found =>
    have whole := trimPunctuation_append word
    split <;> simp [written, plain, InlineArgument.written, whole]
  · simp [written, plain]

/-- Reads prose from the left; a backslash before a letter begins a command, whose
name is the longest run of letters. -/
def ofProse : Text → List Piece
  | [] => []
  | c :: text =>
    match c, text.takeWhile Char.isAlpha with
    | '\\', d :: name =>
      have := InlineArgument.length_read (text.dropWhile Char.isAlpha)
      have := (List.dropWhile_sublist (l := text) Char.isAlpha).length_le
      ofCommand (d :: name) (InlineArgument.read (text.dropWhile Char.isAlpha)).1 ++
        ofProse (InlineArgument.read (text.dropWhile Char.isAlpha)).2
    | c, _ => kept [c] :: ofProse text
termination_by text => text.length

theorem written_ofProse (text : Text) : (ofProse text).flatMap written = text := by
  fun_induction ofProse text with
  | case1 => rfl
  | case2 text d name found _ _ induction =>
    have inner := InlineArgument.read_written (text.dropWhile Char.isAlpha)
    have letters := List.takeWhile_append_dropWhile (p := Char.isAlpha) (l := text)
    rw [List.flatMap_append, written_ofCommand, induction, List.append_assoc, inner, ← found,
      List.cons_append, letters]
  | case3 c text _ induction => simp [written, induction]

end Piece

/-! ## Segments of prose -/

namespace Segment

def ofStyle (style : InlineStyle) (value : Text) : Segment :=
  match style with
  | .code => code value
  | .emphasis => emphasis value
  | .bold => bold value
  | .reference => reference value (Name.ofReference value)

def prependText (front : Text) (segments : List Segment) : List Segment :=
  match front, segments with
  | [], segments => segments
  | front, text following :: rest => text (front ++ following) :: rest
  | front, segments => text front :: segments

def ofPieces : List Piece → List Segment
  | [] => []
  | .kept front :: rest => prependText front (ofPieces rest)
  | .command style _ value :: rest => ofStyle style value :: ofPieces rest

def ofProse (prose : Text) : List Segment := ofPieces (Piece.ofProse prose)

end Segment

end DocAtlas
