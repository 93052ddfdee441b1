import DocAtlas.Proofs.Segment.Inline

/-!
# Unknown commands in prose

An unknown command is text, and so is the argument behind it: prose is read on only where
the argument ends. Main statement: what stands behind an unknown command is read as it is
without the command exactly if that argument is plain, that is, if it can be cut off as text
from what follows it. An argument in which no command begins is plain; one that is itself a
command, or its name, is lost.
-/

namespace DocAtlas

open Text (isBlank trim)

/-! ## Plain text in front -/

namespace Segment

theorem prependText_cons (c : Char) (front : Text) (segments : List Segment) :
    prependText (c :: front) segments = prependText [c] (prependText front segments) := by
  cases front with
  | nil => rfl
  | cons d front =>
    cases segments with
    | nil => rfl
    | cons first rest => cases first <;> rfl

theorem prependText_append (front more : Text) (segments : List Segment) :
    prependText (front ++ more) segments = prependText front (prependText more segments) := by
  induction front with
  | nil => simp [prependText]
  | cons c front induction =>
    rw [List.cons_append, prependText_cons, induction, ← prependText_cons]

theorem exists_prependText {front : Text} (some : front ≠ []) {segments : List Segment}
    (full : ∀ segment ∈ segments, segment.content ≠ []) :
    ∃ following rest, prependText front segments = text (front ++ following) :: rest ∧
      segments = if following = [] then rest else text following :: rest := by
  rcases List.exists_cons_of_ne_nil some with ⟨c, letters, rfl⟩
  cases segments with
  | nil => exact ⟨[], [], by rw [List.append_nil]; rfl, rfl⟩
  | cons first rest =>
    cases first with
    | text following => exact ⟨following, rest, rfl, (if_neg (List.forall_mem_cons.mp full).1).symm⟩
    | _ => exact ⟨[], _, by rw [List.append_nil]; rfl, rfl⟩

theorem content_ne_nil_of_mem_prependText {front : Text} {segments : List Segment}
    (full : ∀ segment ∈ segments, segment.content ≠ []) :
    ∀ segment ∈ prependText front segments, segment.content ≠ [] := by
  by_cases some : front = []
  · subst some
    exact full
  · rcases exists_prependText some full with ⟨following, rest, leading, parts⟩
    have fullRest : ∀ segment ∈ rest, segment.content ≠ [] := by
      intro segment member
      apply full
      rw [parts]
      split
      · exact member
      · exact List.mem_cons_of_mem _ member
    rw [leading, List.forall_mem_cons]
    exact ⟨List.append_ne_nil_of_left_ne_nil some following, fullRest⟩

theorem prependText_cancel {front : Text} {first second : List Segment}
    (fullFirst : ∀ segment ∈ first, segment.content ≠ [])
    (fullSecond : ∀ segment ∈ second, segment.content ≠ [])
    (same : prependText front first = prependText front second) : first = second := by
  by_cases some : front = []
  · subst some
    exact same
  · rcases exists_prependText some fullFirst with ⟨following, rest, leading, firstParts⟩
    rcases exists_prependText some fullSecond with ⟨other, others, leadingOther, secondParts⟩
    rw [leading, leadingOther, List.cons.injEq, text.injEq, List.append_right_inj] at same
    rw [firstParts, secondParts, same.1, same.2]

end Segment

namespace Piece

theorem ofProse_cons {c : Char} {text : Text}
    (plain : c = '\\' → ∀ d ∈ text.head?, d.isAlpha = false) :
    ofProse (c :: text) = kept [c] :: ofProse text := by
  rw [ofProse]
  intro d name backslash found
  cases text with
  | nil => cases found
  | cons e rest =>
    rw [List.takeWhile_cons_of_neg (by simp [plain backslash e rfl])] at found
    cases found

theorem ofProse_command {name behind : Text} (full : name ≠ [])
    (letters : ∀ c ∈ name, c.isAlpha = true) (stops : ∀ c ∈ behind.head?, c.isAlpha = false) :
    ofProse ('\\' :: (name ++ behind)) =
      ofCommand name (InlineArgument.read behind).1 ++ ofProse (InlineArgument.read behind).2 := by
  have noMore : behind.takeWhile Char.isAlpha = [] ∧ behind.dropWhile Char.isAlpha = behind := by
    cases behind with
    | nil => exact ⟨rfl, rfl⟩
    | cons c rest => simp [stops c rfl]
  have taken : (name ++ behind).takeWhile Char.isAlpha = name := by
    rw [List.takeWhile_append_of_pos letters, noMore.1, List.append_nil]
  have left : (name ++ behind).dropWhile Char.isAlpha = behind := by
    rw [List.dropWhile_append_of_pos letters, noMore.2]
  rcases List.exists_cons_of_ne_nil full with ⟨d, others, rfl⟩
  rw [ofProse.eq_2 _ d others taken, left]

end Piece

namespace Segment

/-- A text in which no command begins, also where it meets what is behind it, is kept. -/
theorem ofProse_append {front behind : Text}
    (plain : ∀ before after, front = before ++ '\\' :: after →
      ∀ c ∈ (after ++ behind).head?, c.isAlpha = false) :
    ofProse (front ++ behind) = prependText front (ofProse behind) := by
  induction front with
  | nil => simp [prependText]
  | cons c front induction =>
    have rest := induction fun before after parts =>
      plain (c :: before) after (by rw [parts, List.cons_append])
    have first : c = '\\' → ∀ d ∈ (front ++ behind).head?, d.isAlpha = false := by
      rintro rfl
      exact plain [] front rfl
    rw [prependText_cons, ← rest, List.cons_append, ofProse, Piece.ofProse_cons first]
    rfl

theorem ofPieces_marked {style : InlineStyle} {name : Text} {argument : InlineArgument}
    (known : Vocabulary.inlineStyle? name = some style) (full : argument.marked ≠ [])
    (pieces : List Piece) :
    ofPieces (Piece.ofCommand name argument ++ pieces) =
      ofStyle style argument.marked :: prependText argument.shed (ofPieces pieces) := by
  cases argument with
  | missing => exact absurd rfl full
  | braced blanks content =>
    have something : trim content ≠ [] := full
    simp only [Piece.ofCommand, known, if_neg something]
    rfl
  | word blanks letters =>
    have something : trimPunctuation letters ≠ [] := full
    simp only [Piece.ofCommand, known, if_neg something]
    rfl

theorem ofPieces_unmarked {name : Text} {argument : InlineArgument}
    (idle : Vocabulary.inlineStyle? name = none ∨ argument.marked = []) (pieces : List Piece) :
    ofPieces (Piece.ofCommand name argument ++ pieces) =
      prependText ('\\' :: name ++ argument.written) (ofPieces pieces) := by
  have kept : Piece.ofCommand name argument = [Piece.plain name argument] := by
    unfold Piece.ofCommand
    split
    · next known => exact if_pos (idle.resolve_left (by simp [known]))
    · next known => exact if_pos (idle.resolve_left (by simp [known]))
    · rfl
  rw [kept]
  rfl

/-- A command that is unknown or has nothing to mark up is kept together with its argument. -/
theorem ofProse_unmarked {name behind : Text} (full : name ≠ [])
    (letters : ∀ c ∈ name, c.isAlpha = true) (stops : ∀ c ∈ behind.head?, c.isAlpha = false)
    (idle : Vocabulary.inlineStyle? name = none ∨ (InlineArgument.read behind).1.marked = []) :
    ofProse ('\\' :: (name ++ behind)) =
      prependText ('\\' :: name ++ (InlineArgument.read behind).1.written)
        (ofProse (InlineArgument.read behind).2) := by
  rw [ofProse, Piece.ofProse_command full letters stops, ofPieces_unmarked idle]
  rfl

end Segment

/-! ## What an unknown command takes -/

namespace InlineArgument

def taken (text : Text) : Text := (read (' ' :: text)).1.written.drop 1

def left (text : Text) : Text := text.drop (taken text).length

theorem taken_cases (text : Text) :
    (read (' ' :: text)).1.written = [] ∧ (read (' ' :: text)).2 = ' ' :: text ∧
        taken text = [] ∧ left text = text ∨
      (read (' ' :: text)).1.written = ' ' :: taken text ∧ (read (' ' :: text)).2 = left text ∧
        taken text ++ left text = text := by
  have whole := read_written (' ' :: text)
  cases written : (read (' ' :: text)).1.written with
  | nil =>
    rw [written] at whole
    refine .inl ⟨rfl, whole, ?_, ?_⟩ <;> simp [left, taken, written]
  | cons c argument =>
    rw [written, List.cons_append, List.cons.injEq] at whole
    have same : taken text = argument := by simp [taken, written]
    have remains : left text = (read (' ' :: text)).2 := by
      rw [left, same]
      conv => lhs; rw [← whole.2]
      exact List.drop_left
    exact .inr ⟨by rw [whole.1, same], remains.symm, by rw [same, remains, whole.2]⟩

theorem taken_append_left (text : Text) : taken text ++ left text = text := by
  rcases taken_cases text with ⟨_, _, nothing, all⟩ | ⟨_, _, parts⟩
  · rw [nothing, all, List.nil_append]
  · exact parts

theorem isWordPart_of_isPathPart {c : Char} (part : Name.isPathPart c = true) :
    isWordPart c = true := by
  have noBrace : c ≠ '{' ∧ c ≠ '}' := by
    constructor
    all_goals
      intro brace
      rw [brace] at part
      exact absurd part (by decide)
  simp [isWordPart, Name.isBlank_of_isPathPart part, noBrace]

theorem isWordPart_of_isAlpha {c : Char} (letter : c.isAlpha = true) : isWordPart c = true := by
  apply isWordPart_of_isPathPart
  apply Name.isPathPart_of_isIdentifierPart
  rw [Name.isIdentifierPart, Char.isAlphanum, letter, Bool.true_or, Bool.true_or]

theorem stops_behind_taken {text before : Text} (parts : taken text = before ++ ['\\']) :
    ∀ c ∈ (left text).head?, c.isAlpha = false := by
  rcases taken_cases text with ⟨_, _, nothing, _⟩ | ⟨written, rest, _⟩
  · rw [nothing] at parts
    exact absurd parts (by simp)
  · rw [← rest]
    rw [parts] at written
    cases found : read (' ' :: text) with
    | mk argument behind =>
      rw [found] at written
      cases argument with
      | missing => cases written
      | braced blanks content =>
        have ends : blanks ++ '{' :: content ++ ['}'] = ' ' :: before ++ ['\\'] := written
        exact absurd (List.append_inj' ends rfl).2 (by decide)
      | word blanks letters =>
        intro c first
        have stops := (of_read_word found).2.2.2 c first
        by_contra letter
        rw [Bool.not_eq_false] at letter
        rw [isWordPart_of_isAlpha letter] at stops
        cases stops

end InlineArgument

namespace Segment

open InlineArgument (taken left)

/-- A text is plain in front of another one if it is kept and changes nothing behind it. -/
def PlainBefore (front behind : Text) : Prop :=
  ofProse (front ++ behind) = prependText front (ofProse behind)

/-- No command begins in a text: no backslash in it stands before a letter. -/
def Commandless (text : Text) : Prop :=
  ∀ before after, text = before ++ '\\' :: after → ∀ c ∈ after.head?, c.isAlpha = false

theorem commandless_nil : Commandless [] := by
  intro before after parts
  exact absurd parts.symm (by simp)

theorem commandless_cons {c : Char} {text : Text}
    (first : c = '\\' → ∀ d ∈ text.head?, d.isAlpha = false) (rest : Commandless text) :
    Commandless (c :: text) := by
  intro before after parts
  cases before with
  | nil =>
    cases parts
    exact first rfl
  | cons b before =>
    cases parts
    exact rest before after rfl

theorem plainBefore_left_of_commandless {text : Text} (commandless : Commandless (taken text)) :
    PlainBefore (taken text) (left text) := by
  apply ofProse_append
  intro before after parts
  cases after with
  | nil => exact InlineArgument.stops_behind_taken parts
  | cons d rest => exact commandless before (d :: rest) parts

theorem ofProse_without_backslash {front : Text} (plain : '\\' ∉ front) (behind : Text) :
    ofProse (front ++ behind) = prependText front (ofProse behind) := by
  apply ofProse_append
  intro before after parts
  exact absurd (by simp [parts]) plain

/-- An unknown command is text up to the end of what it takes. -/
theorem ofProse_behind_unknown {name : Text} (full : name ≠ [])
    (letters : ∀ c ∈ name, c.isAlpha = true) (unknown : Vocabulary.inlineStyle? name = none)
    (text : Text) :
    ofProse ('\\' :: (name ++ ' ' :: text)) =
      prependText ('\\' :: name ++ ' ' :: taken text) (ofProse (left text)) := by
  have stops : ∀ c ∈ (' ' :: text).head?, c.isAlpha = false := by
    intro c first
    cases first
    decide
  rw [ofProse_unmarked full letters stops (.inl unknown)]
  rcases InlineArgument.taken_cases text with ⟨written, rest, nothing, all⟩ | ⟨written, rest, _⟩
  · have noBackslash : '\\' ∉ [' '] := by decide
    have blank : ofProse (' ' :: text) = prependText [' '] (ofProse text) :=
      ofProse_without_backslash noBackslash text
    rw [written, rest, nothing, all, blank, List.append_nil, prependText_append _ [' ']]
  · rw [written, rest]

/-- Behind an unknown command prose is read on where the command's argument ends. So it is
read as without the command exactly if the argument is plain, as it is if no command begins
in it. -/
theorem unknown_command_takes_argument {front name : Text} (plain : '\\' ∉ front)
    (full : name ≠ []) (letters : ∀ c ∈ name, c.isAlpha = true)
    (unknown : Vocabulary.inlineStyle? name = none) (text : Text) :
    let command := front ++ '\\' :: name ++ [' ']
    taken text ++ left text = text ∧
      ofProse (command ++ text) = prependText (command ++ taken text) (ofProse (left text)) ∧
      (ofProse (command ++ text) = prependText command (ofProse text) ↔
        PlainBefore (taken text) (left text)) ∧
      (Commandless (taken text) →
        ofProse (command ++ text) = prependText command (ofProse text)) := by
  intro command
  have parts := InlineArgument.taken_append_left text
  have kept : ofProse (command ++ text) =
      prependText (command ++ taken text) (ofProse (left text)) := by
    have written : command ++ text = front ++ '\\' :: (name ++ ' ' :: text) := by simp [command]
    have takenToo : command ++ taken text = front ++ ('\\' :: name ++ ' ' :: taken text) := by
      simp [command]
    rw [written, takenToo, ofProse_without_backslash plain,
      ofProse_behind_unknown full letters unknown]
    exact (prependText_append front _ _).symm
  have iff : ofProse (command ++ text) = prependText command (ofProse text) ↔
      PlainBefore (taken text) (left text) := by
    rw [kept, prependText_append, PlainBefore, parts]
    constructor
    · intro same
      apply prependText_cancel content_ne_nil_of_mem_ofProse _ same.symm
      exact content_ne_nil_of_mem_prependText content_ne_nil_of_mem_ofProse
    · intro same
      rw [same]
  exact ⟨parts, kept, iff, fun commandless =>
    iff.mpr (plainBefore_left_of_commandless commandless)⟩

/-- What is taken in braces here holds no command, and the one behind it is found. -/
theorem unknown_command_spares_what_follows :
    let front : Text := "See "
    let name : Text := "unknown"
    let text : Text := "\x7ba\\\x7d and \\l Foo::bar()."
    '\\' ∉ front ∧ name ≠ [] ∧ (∀ c ∈ name, c.isAlpha = true) ∧
      Vocabulary.inlineStyle? name = none ∧ Commandless (taken text) ∧
      ofProse (front ++ '\\' :: name ++ [' '] ++ text) =
        prependText (front ++ '\\' :: name ++ [' ']) (ofProse text) ∧
      ofProse text =
        [.text "\x7ba\\\x7d and ", .reference "Foo::bar()" "Foo::bar", .text "."] := by
  intro front name text
  have plain : '\\' ∉ front := by decide
  have full : name ≠ [] := by decide
  have letters : ∀ c ∈ name, c.isAlpha = true := List.all_eq_true.mp (by decide)
  have unknown : Vocabulary.inlineStyle? name = none := by decide
  have commandless : Commandless (taken text) := by
    have braces : taken text = ['{', 'a', '\\', '}'] := by decide +kernel
    rw [braces]
    refine commandless_cons (by decide) (commandless_cons (by decide) (commandless_cons ?_
      (commandless_cons (by decide) commandless_nil)))
    intro _ d next
    cases next
    decide
  exact ⟨plain, full, letters, unknown, commandless,
    (unknown_command_takes_argument plain full letters unknown text).2.2.2 commandless,
    by decide +kernel⟩

/-- The reference is taken for the argument of the unknown command in front of it. -/
theorem unknown_command_hides_reference :
    let name : Text := "foo"
    let text : Text := "\\l Bar"
    name ≠ [] ∧ (∀ c ∈ name, c.isAlpha = true) ∧ Vocabulary.inlineStyle? name = none ∧
      ofProse text = [.reference "Bar" "Bar"] ∧
      ofProse ('\\' :: name ++ [' '] ++ text) = [.text "\\foo \\l Bar"] ∧
      ofProse ('\\' :: name ++ [' '] ++ text) ≠
        prependText ('\\' :: name ++ [' ']) (ofProse text) := by
  intro name text
  have letters : ∀ c ∈ name, c.isAlpha = true := List.all_eq_true.mp (by decide)
  exact ⟨by decide, letters, by decide, by decide +kernel, by decide +kernel, by decide +kernel⟩

end Segment

end DocAtlas
