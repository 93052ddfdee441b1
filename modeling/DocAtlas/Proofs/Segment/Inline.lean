import DocAtlas.Proofs.Name.Spelling
import DocAtlas.Segment.Inline

/-!
# Prose and its segments

Prose falls into consecutive pieces: texts that are kept as written, and commands with what
they mark up, which stands in braces or is the next word without the punctuation of the
sentence. Main statement: the segments of any prose are those of such pieces, one for each,
where no kept text ends before it has to. So the segments together say what the prose says,
less the commands' names, the blanks behind them and the braces.
-/

namespace DocAtlas

open Text (isBlank trim Trimmed)

/-! ## Words at the end of a sentence -/

/-- A word keeps its value and sheds the punctuation at its end. A parenthesis is shed if
it closes none that the word opens, and only such a one can be the value's last sign. -/
structure Sheds (value shed : Text) : Prop where
  punctuation : ∀ c ∈ shed, isPunctuation c = true
  surplus : ∀ inside after, shed = inside ++ ')' :: after →
    (value ++ inside).count '(' ≤ (value ++ inside).count ')'
  finish : ∀ c ∈ value.getLast?, isPunctuation c = true →
    c = ')' ∧ value.count ')' ≤ value.count '('

theorem exists_sheds_dropPunctuation (reversed : Text) :
    ∃ shed, (dropPunctuation reversed).reverse ++ shed = reversed.reverse ∧
      Sheds (dropPunctuation reversed).reverse shed := by
  induction reversed with
  | nil => exact ⟨[], rfl, ⟨by simp, by simp, by simp [dropPunctuation]⟩⟩
  | cons c rest induction =>
    rcases induction with ⟨shed, parts, sheds⟩
    by_cases dropped : (isPunctuation c &&
        !(c == ')' && decide ((c :: rest).count ')' ≤ (c :: rest).count '('))) = true
    · rw [dropPunctuation, if_pos dropped, List.reverse_cons, ← parts]
      rw [Bool.and_eq_true] at dropped
      refine ⟨shed ++ [c], (List.append_assoc _ _ _).symm, ?_, ?_, sheds.finish⟩
      · rw [List.forall_mem_append, List.forall_mem_singleton]
        exact ⟨sheds.punctuation, dropped.1⟩
      · intro inside after split
        rcases List.eq_nil_or_concat after with rfl | ⟨before, last, rfl⟩
        · -- The parenthesis is the sign that is dropped now.
          rcases List.append_inj' split rfl with ⟨rfl, same⟩
          cases same
          have more := dropped.2
          rw [parts, List.count_reverse, List.count_reverse]
          simp only [beq_self_eq_true, Bool.true_and, Bool.not_eq_true', decide_eq_false_iff_not,
            List.count_cons_self] at more
          rw [List.count_cons_of_ne (by decide)] at more
          omega
        · rw [List.concat_eq_append, ← List.cons_append, ← List.append_assoc] at split
          exact sheds.surplus inside before (List.append_inj' split rfl).1
    · rw [dropPunctuation, if_neg dropped]
      refine ⟨[], List.append_nil _, by simp, by simp, ?_⟩
      intro last ends punctuation
      rw [List.getLast?_reverse, List.head?_cons, Option.mem_some_iff] at ends
      subst ends
      rw [List.count_reverse, List.count_reverse]
      simpa [punctuation] using dropped

theorem sheds_trimPunctuation (word : Text) :
    Sheds (trimPunctuation word) (word.drop (trimPunctuation word).length) := by
  rcases exists_sheds_dropPunctuation word.reverse with ⟨shed, parts, sheds⟩
  rw [List.reverse_reverse] at parts
  have same : trimPunctuation word ++ word.drop (trimPunctuation word).length =
      trimPunctuation word ++ shed := (trimPunctuation_append word).trans parts.symm
  rwa [List.append_cancel_left same]

/-! ## Arguments -/

namespace InlineArgument

theorem of_read_braced {text blanks content rest : Text}
    (found : read text = (.braced blanks content, rest)) :
    (∀ c ∈ blanks, isBlank c = true) ∧ '}' ∉ content := by
  unfold read at found
  split at found
  · split at found
    · cases found
      refine ⟨fun c => List.mem_takeWhile_imp, fun closing => ?_⟩
      exact absurd (List.mem_takeWhile_imp closing) (by decide)
    · cases found
  · split at found <;> cases found

theorem of_read_word {text blanks letters rest : Text}
    (found : read text = (.word blanks letters, rest)) :
    blanks ≠ [] ∧ (∀ c ∈ blanks, isBlank c = true) ∧ (∀ c ∈ letters, isWordPart c = true) ∧
      ∀ c ∈ rest.head?, isWordPart c = false := by
  unfold read at found
  split at found
  · split at found <;> cases found
  · split at found
    · cases found
    · next something =>
      cases found
      rw [not_or] at something
      refine ⟨something.1, fun c => List.mem_takeWhile_imp, fun c => List.mem_takeWhile_imp, ?_⟩
      intro c first
      have stopped := List.head?_dropWhile_not isWordPart (text.dropWhile isBlank)
      simpa [Option.mem_def.mp first] using stopped

/-- What is marked up of an argument: all of it, less the blanks in braces and the punctuation
at the end of a word. -/
def marked : InlineArgument → Text
  | missing => []
  | braced _ content => trim content
  | word _ letters => trimPunctuation letters

def shed : InlineArgument → Text
  | word _ letters => letters.drop (trimPunctuation letters).length
  | _ => []

end InlineArgument

/-! ## Pieces -/

namespace Piece

/-- How a command is written that marks up a value, and what may stand behind it. Braces
end at the first closing one; a word ends where it cannot go on. -/
inductive Occurs : InlineStyle → Text → Text → Text → Prop
  | braced {style : InlineStyle} {name blanks before value after behind : Text} :
      Vocabulary.inlineStyle? name = some style →
      (∀ c ∈ blanks ++ (before ++ after), isBlank c = true) →
      value ≠ [] → Trimmed value → '}' ∉ value →
      Occurs style ('\\' :: name ++ blanks ++ '{' :: (before ++ value ++ after) ++ ['}']) value
        behind
  | word {style : InlineStyle} {name blanks value shed behind : Text} :
      Vocabulary.inlineStyle? name = some style →
      blanks ≠ [] → (∀ c ∈ blanks, isBlank c = true) →
      value ≠ [] → (∀ c ∈ value ++ shed, InlineArgument.isWordPart c = true) →
      (∀ c ∈ behind.head?, InlineArgument.isWordPart c = false) → Sheds value shed →
      Occurs style ('\\' :: name ++ blanks ++ value) value (shed ++ behind)

theorem Occurs.value_ne_nil {style : InlineStyle} {written value behind : Text}
    (occurs : Occurs style written value behind) : value ≠ [] := by
  cases occurs with
  | braced _ _ full _ _ => exact full
  | word _ _ _ full _ _ _ => exact full

theorem Occurs.trimmed {style : InlineStyle} {written value behind : Text}
    (occurs : Occurs style written value behind) : Trimmed value := by
  cases occurs with
  | braced _ _ _ trimmed _ => exact trimmed
  | word _ _ _ _ letters _ _ =>
    apply Text.trimmed_of_not_blank
    intro c member
    have letter := letters c (List.mem_append_left _ member)
    rw [InlineArgument.isWordPart, Bool.and_eq_true, Bool.and_eq_true, Bool.not_eq_true'] at letter
    exact letter.1.1

/-- The ways to cut prose into pieces: nothing that is kept is empty or goes on in the next
piece, and every command occurs before the prose behind it. -/
inductive CutInto : Text → List Piece → Prop
  | nil : CutInto [] []
  | kept {text rest : Text} {pieces : List Piece} :
      text ≠ [] → (∀ next, pieces.head? ≠ some (.kept next)) → CutInto rest pieces →
      CutInto (text ++ rest) (.kept text :: pieces)
  | command {style : InlineStyle} {written value rest : Text} {pieces : List Piece} :
      Occurs style written value rest → CutInto rest pieces →
      CutInto (written ++ rest) (.command style written value :: pieces)

def shown : Piece → Text
  | kept text => text
  | command _ _ value => value

def segment : Piece → Segment
  | kept text => .text text
  | command style _ value => .ofStyle style value

theorem content_segment (piece : Piece) : piece.segment.content = piece.shown := by
  cases piece with
  | kept text => rfl
  | command style _ value => cases style <;> rfl

def keep (front : Text) (pieces : List Piece) : List Piece :=
  match front, pieces with
  | [], pieces => pieces
  | front, .kept following :: rest => .kept (front ++ following) :: rest
  | front, pieces => .kept front :: pieces

def joined : List Piece → List Piece
  | [] => []
  | .kept front :: rest => keep front (joined rest)
  | .command style written value :: rest => .command style written value :: joined rest

theorem segment_eq_text {piece : Piece} {text : Text} (same : piece.segment = .text text) :
    piece = .kept text := by
  cases piece with
  | kept other =>
    cases same
    rfl
  | command style _ value => cases style <;> cases same

theorem map_segment_keep (front : Text) (pieces : List Piece) :
    (keep front pieces).map segment = Segment.prependText front (pieces.map segment) := by
  cases front with
  | nil => simp [keep, Segment.prependText]
  | cons c front =>
    cases pieces with
    | nil => rfl
    | cons first rest =>
      cases first with
      | kept following => rfl
      | command style _ value => cases style <;> rfl

theorem flatMap_written_keep (front : Text) (pieces : List Piece) :
    (keep front pieces).flatMap written = front ++ pieces.flatMap written := by
  cases front with
  | nil => rfl
  | cons c front =>
    cases pieces with
    | nil => simp [keep, written]
    | cons first rest => cases first <;> simp [keep, written]

theorem flatMap_written_joined (pieces : List Piece) :
    (joined pieces).flatMap written = pieces.flatMap written := by
  induction pieces with
  | nil => rfl
  | cons piece rest induction =>
    cases piece with
    | kept front => rw [joined, flatMap_written_keep, induction, List.flatMap_cons, written]
    | command style written value => rw [joined, List.flatMap_cons, List.flatMap_cons, induction]

theorem ofPieces_eq (pieces : List Piece) :
    Segment.ofPieces pieces = (joined pieces).map segment := by
  induction pieces with
  | nil => rfl
  | cons piece rest induction =>
    cases piece with
    | kept front => rw [Segment.ofPieces, joined, map_segment_keep, induction]
    | command style written value =>
      rw [Segment.ofPieces, joined, List.map_cons, induction, segment]

theorem CutInto.keep {front rest : Text} {pieces : List Piece} (cut : CutInto rest pieces) :
    CutInto (front ++ rest) (keep front pieces) := by
  cases front with
  | nil => exact cut
  | cons c front =>
    cases cut with
    | nil => exact .kept (List.cons_ne_nil c front) (by simp) .nil
    | kept _ last cut =>
      rw [← List.append_assoc]
      exact .kept (by simp) last cut
    | command occurs cut => exact .kept (List.cons_ne_nil c front) (by simp) (.command occurs cut)

theorem occurs_braced {style : InlineStyle} {name text blanks content rest : Text}
    (named : Vocabulary.inlineStyle? name = some style)
    (read : InlineArgument.read text = (.braced blanks content, rest)) (full : trim content ≠ []) :
    Occurs style ('\\' :: name ++ InlineArgument.written (.braced blanks content)) (trim content)
      rest := by
  have argument := InlineArgument.of_read_braced read
  rcases Text.exists_blanks_around content with ⟨before, after, parts, around⟩
  have inside : '}' ∉ trim content := fun member =>
    argument.2 ((Text.trim_isInfix content).subset member)
  have written : '\\' :: name ++ InlineArgument.written (.braced blanks content) =
      '\\' :: name ++ blanks ++ '{' :: (before ++ trim content ++ after) ++ ['}'] := by
    simp [InlineArgument.written, parts]
  rw [written]
  exact .braced named (List.forall_mem_append.mpr ⟨argument.1, around⟩) full
    (Text.trimmed_trim content) inside

theorem occurs_word {style : InlineStyle} {name text blanks word rest : Text}
    (named : Vocabulary.inlineStyle? name = some style)
    (read : InlineArgument.read text = (.word blanks word, rest))
    (full : trimPunctuation word ≠ []) :
    Occurs style ('\\' :: name ++ blanks ++ trimPunctuation word) (trimPunctuation word)
      (word.drop (trimPunctuation word).length ++ rest) := by
  rcases InlineArgument.of_read_word read with ⟨some, allBlank, letters, stops⟩
  apply Occurs.word named some allBlank full _ stops (sheds_trimPunctuation word)
  rwa [trimPunctuation_append]

theorem cutInto_ofCommand {name text rest : Text} {argument : InlineArgument}
    {pieces : List Piece} (read : InlineArgument.read text = (argument, rest))
    (cut : CutInto rest (joined pieces)) :
    CutInto ('\\' :: name ++ argument.written ++ rest)
      (joined (ofCommand name argument ++ pieces)) := by
  unfold ofCommand
  split
  · next style blanks content named =>
    split
    · exact cut.keep
    · next full => exact .command (occurs_braced named read full) cut
  · next style blanks word named =>
    split
    · exact cut.keep
    · next full =>
      have written : '\\' :: name ++ InlineArgument.written (.word blanks word) ++ rest =
          '\\' :: name ++ blanks ++ trimPunctuation word ++
            (word.drop (trimPunctuation word).length ++ rest) := by
        conv => lhs; rw [InlineArgument.written, ← trimPunctuation_append word]
        simp
      rw [written]
      exact .command (occurs_word named read full) cut.keep
  · exact cut.keep

/-- The pieces that prose is read into, with what is kept put together. -/
theorem cutInto_ofProse (prose : Text) : CutInto prose (joined (ofProse prose)) := by
  fun_induction ofProse prose with
  | case1 => exact .nil
  | case2 text d name found _ _ induction =>
    have inner := InlineArgument.read_written (text.dropWhile Char.isAlpha)
    have letters := List.takeWhile_append_dropWhile (p := Char.isAlpha) (l := text)
    have whole : '\\' :: text = '\\' :: (d :: name) ++
        (InlineArgument.read (text.dropWhile Char.isAlpha)).1.written ++
          (InlineArgument.read (text.dropWhile Char.isAlpha)).2 := by
      rw [List.append_assoc, inner, ← found, List.cons_append, letters]
    rw [whole]
    exact cutInto_ofCommand (Prod.eta _).symm induction
  | case3 text c _ induction =>
    change CutInto ([c] ++ text) (keep [c] (joined (ofProse text)))
    exact induction.keep

theorem CutInto.shown_ne_nil {prose : Text} {pieces : List Piece} (cut : CutInto prose pieces) :
    ∀ piece ∈ pieces, piece.shown ≠ [] := by
  induction cut with
  | nil => simp
  | kept full _ _ induction => exact List.forall_mem_cons.mpr ⟨full, induction⟩
  | command occurs _ induction =>
    exact List.forall_mem_cons.mpr ⟨occurs.value_ne_nil, induction⟩

theorem CutInto.not_kept_twice {prose : Text} {pieces : List Piece} (cut : CutInto prose pieces)
    (first second : Text) : ¬[Piece.kept first, Piece.kept second] <:+: pieces := by
  induction cut with
  | nil => simp
  | kept _ last _ induction =>
    rw [List.infix_cons_iff, not_or]
    refine ⟨?_, induction⟩
    rw [List.cons_prefix_cons]
    rintro ⟨_, rest, behind⟩
    exact last second (by rw [← behind]; rfl)
  | command _ _ induction =>
    rw [List.infix_cons_iff, not_or]
    refine ⟨?_, induction⟩
    rw [List.cons_prefix_cons]
    rintro ⟨wrong, _⟩
    cases wrong

theorem CutInto.trimmed_command {prose : Text} {pieces : List Piece} (cut : CutInto prose pieces)
    {style : InlineStyle} {written value : Text} (member : .command style written value ∈ pieces) :
    Trimmed value := by
  induction cut with
  | nil => cases member
  | kept _ _ _ induction =>
    cases member with
    | tail _ later => exact induction later
  | command occurs _ induction =>
    cases member with
    | head => exact occurs.trimmed
    | tail _ later => exact induction later

end Piece

namespace Segment

theorem ofProse_eq_map (prose : Text) :
    ofProse prose = (Piece.joined (Piece.ofProse prose)).map Piece.segment :=
  Piece.ofPieces_eq _

theorem flatMap_written_ofProse (prose : Text) :
    (Piece.joined (Piece.ofProse prose)).flatMap Piece.written = prose :=
  (Piece.flatMap_written_joined _).trans (Piece.written_ofProse prose)

theorem content_ne_nil_of_mem_ofProse {prose : Text} :
    ∀ segment ∈ ofProse prose, segment.content ≠ [] := by
  rw [ofProse_eq_map, List.forall_mem_map]
  intro piece member
  rw [Piece.content_segment]
  exact (Piece.cutInto_ofProse prose).shown_ne_nil piece member

theorem not_text_twice (prose first second : Text) :
    ¬[text first, text second] <:+: ofProse prose := by
  intro adjacent
  rw [ofProse_eq_map] at adjacent
  rcases List.infix_map_iff.mp adjacent with ⟨pair, inside, same⟩
  rcases List.map_eq_cons_iff.mp same.symm with ⟨left, others, rfl, leftText, more⟩
  rcases List.map_eq_cons_iff.mp more with ⟨right, others, rfl, rightText, none⟩
  cases List.map_eq_nil_iff.mp none
  rw [Piece.segment_eq_text leftText, Piece.segment_eq_text rightText] at inside
  exact (Piece.cutInto_ofProse prose).not_kept_twice first second inside

theorem target_ne_nil_of_mem_ofProse {prose content target : Text}
    (member : reference content target ∈ ofProse prose) : target ≠ [] := by
  have cut := Piece.cutInto_ofProse prose
  rw [ofProse_eq_map] at member
  rcases List.mem_map.mp member with ⟨piece, inside, same⟩
  cases piece with
  | kept text => cases same
  | command style written value =>
    have trimmed := (cut.trimmed_command inside).trim_eq
    have full : value ≠ [] := cut.shown_ne_nil _ inside
    cases style <;> cases same
    exact Name.ofReference_ne_nil (by rwa [trimmed])

/-- Nothing of any prose is lost: it falls into pieces, and each of them is a segment. -/
theorem prose_is_kept (prose : Text) :
    ∃ pieces, Piece.CutInto prose pieces ∧ ofProse prose = pieces.map Piece.segment ∧
      pieces.flatMap Piece.written = prose ∧
      (ofProse prose).flatMap content = pieces.flatMap Piece.shown ∧
      (∀ segment ∈ ofProse prose, segment.content ≠ []) ∧
      (∀ first second, ¬[text first, text second] <:+: ofProse prose) ∧
      ∀ content target, reference content target ∈ ofProse prose → target ≠ [] := by
  have cut := Piece.cutInto_ofProse prose
  have contents : (ofProse prose).flatMap content =
      (Piece.joined (Piece.ofProse prose)).flatMap Piece.shown := by
    rw [ofProse_eq_map, List.flatMap_map]
    simp only [Piece.content_segment]
  exact ⟨_, cut, ofProse_eq_map prose, flatMap_written_ofProse prose, contents,
    content_ne_nil_of_mem_ofProse, not_text_twice prose,
    fun _ _ member => target_ne_nil_of_mem_ofProse member⟩

end Segment

end DocAtlas
