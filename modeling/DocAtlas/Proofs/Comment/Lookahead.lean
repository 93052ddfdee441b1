import DocAtlas.Proofs.Comment.Tiling

/-!
# Looking ahead of a comment

Behind a closed comment a second reader looks for the next code. It passes what the scan
passes, as long as that is blanks and ordinary comments, and stops where the scan finds
the next documentation comment, at the end of the text, or at code. This rests on every
marker beginning with a character that is not blank: a blank could open a comment
otherwise, which the look-ahead would step over.
-/

namespace DocAtlas

open Text (isBlank newline)

namespace Lexeme

def IsComment : Lexeme → Prop
  | lineComment _ | blockComment _ => True
  | _ => False

inductive Interlude : Text → Text → Prop
  | nil {after : Text} : Interlude [] after
  | blank {c : Char} {between after : Text} : isBlank c = true → Interlude between after →
      Interlude (c :: between) after
  | comment {lexeme : Lexeme} {between after : Text} : lexeme.IsComment →
      Ordinary lexeme (between ++ after) → Interlude between after →
      Interlude (lexeme.text ++ between) after

/-- A text begins with code: with something that is neither blank nor a comment. -/
structure Code (given : List Text) (source : Text) : Prop where
  visible : ∃ c rest, source = c :: rest ∧ isBlank c = false
  noComment : ¬OpensOrdinary source
  noDocumentation : ∀ marker after, ¬Opens given source marker after

def Visible (given : List Text) : Prop :=
  ∀ marker ∈ given, ∃ c rest, marker = c :: rest ∧ isBlank c = false

variable {given : List Text} {markers : Markers} {source between after rest : Text}

theorem Opens.not_blank (visible : Visible given) {c : Char} {marker : Text}
    (opens : Opens given (c :: rest) marker after) : isBlank c = false := by
  rcases visible marker opens.listed with ⟨d, more, rfl, noBlank⟩
  have fits := opens.fits
  simp only [List.cons_append, List.cons.injEq] at fits
  rw [fits.1]
  exact noBlank

theorem isBlank_slash : isBlank '/' = false := by decide

theorem opensOrdinary_iff {c : Char} :
    Comment.opensOrdinary c rest = true ↔ OpensOrdinary (c :: rest) := by
  cases rest with
  | nil => simp [Comment.opensOrdinary, OpensOrdinary]
  | cons d more =>
    simp only [Comment.opensOrdinary, OpensOrdinary, Bool.and_eq_true, Bool.or_eq_true,
      beq_iff_eq, List.head?_cons, Option.some.injEq, List.cons_prefix_cons, List.nil_prefix,
      and_true, ← and_or_left]
    simp only [eq_comm]

theorem OpensOrdinary.cons (opens : OpensOrdinary source) : ∃ more, source = '/' :: more := by
  rcases opens with ⟨more, rfl⟩ | ⟨more, rfl⟩
  · exact ⟨_, rfl⟩
  · exact ⟨_, rfl⟩

theorem ordinary_of_blank {c : Char} (blank : isBlank c = true) (rest : Text) :
    Ordinary (.character c) rest := by
  apply Ordinary.character
  · rintro (rfl | rfl) <;> revert blank <;> decide
  · intro opens
    rcases opens.cons with ⟨more, equal⟩
    cases equal
    simp [isBlank_slash] at blank

theorem Ordinary.opens {lexeme : Lexeme} (reads : Ordinary lexeme after)
    (comment : lexeme.IsComment) : OpensOrdinary (lexeme.text ++ after) := by
  cases reads with
  | @line body _ inside => exact .inl ⟨body ++ [newline] ++ after, by simp [text]⟩
  | @lastLine body inside => exact .inl ⟨body, by simp [text]⟩
  | @block body _ inside => exact .inr ⟨body ++ closing ++ after, by simp [text]⟩
  | @openBlock body inside => exact .inr ⟨body, by simp [text]⟩
  | literal => cases comment
  | openLiteral => cases comment
  | character => cases comment

theorem ordinary_isComment {c : Char} (opens : OpensOrdinary (c :: rest)) :
    (ordinary c rest).1.IsComment := by
  fun_cases ordinary c rest with
  | case1 => trivial
  | case2 => trivial
  | case3 => trivial
  | case4 c rest line block => exact (not_opensOrdinary line block opens).elim
  | case5 c rest line block => exact (not_opensOrdinary line block opens).elim

end Lexeme

namespace Comment

open Lexeme

theorem nextCodeLine?_nil (markers : Markers) (line : Nat) :
    nextCodeLine? markers line [] = none := by
  unfold nextCodeLine?
  rfl

theorem nextCodeLine?_cons (markers : Markers) (line : Nat) (c : Char) (rest : Text) :
    nextCodeLine? markers line (c :: rest) =
      if isBlank c then nextCodeLine? markers (line + newlines [c]) rest
      else if (markers.opening? (c :: rest)).isSome then none
      else if opensOrdinary c rest then
        nextCodeLine? markers (line + newlines (Lexeme.ordinary c rest).1.text)
          (Lexeme.ordinary c rest).2
      else some line := by
  conv => lhs; unfold nextCodeLine?

/-- The scan and the look-ahead both go through some text to what follows. -/
structure Passes (markers : Markers) (between after : Text) : Prop where
  scan : ∀ file offset line, scanFrom markers file offset line (between ++ after) =
    scanFrom markers file (offset + between.length) (line + newlines between) after
  lookahead : ∀ line, nextCodeLine? markers line (between ++ after) =
    nextCodeLine? markers (line + newlines between) after

variable {given : List Text} {markers : Markers} {source between after rest : Text}

theorem Passes.nil (markers : Markers) (after : Text) : Passes markers [] after :=
  ⟨fun _ _ _ => rfl, fun _ => rfl⟩

theorem Passes.append {first second : Text} (passed : Passes markers first (second ++ after))
    (further : Passes markers second after) : Passes markers (first ++ second) after where
  scan file offset line := by
    rw [List.append_assoc, passed.scan, further.scan, List.length_append, newlines_append,
      Nat.add_assoc, Nat.add_assoc]
  lookahead line := by
    rw [List.append_assoc, passed.lookahead, further.lookahead, newlines_append, Nat.add_assoc]

def nextOffset (source : Text) : List Comment → Nat
  | [] => source.length
  | next :: _ => next.offset

def part (source : Text) (start stop : Nat) : Text := (source.take stop).drop start

theorem ofLexeme?_of_ordinary {lexeme : Lexeme} (reads : Ordinary lexeme rest) (file : Text)
    (offset line : Nat) (after : Text) :
    ofLexeme? markers file offset line lexeme after = none := by
  cases reads <;> rfl

/-- A documentation comment opens inside some text, and the scan goes through to it. -/
def Interrupted (given : List Text) (markers : Markers) (between after : Text) : Prop :=
  ∃ earlier rest, between = earlier ++ rest ∧ rest ≠ [] ∧
    Passes markers earlier (rest ++ after) ∧
    ∃ marker behind, Opens given (rest ++ after) marker behind

theorem Interrupted.append {first : Text} (passed : Passes markers first (between ++ after))
    (interrupted : Interrupted given markers between after) :
    Interrupted given markers (first ++ between) after := by
  rcases interrupted with ⟨earlier, rest, rfl, nonempty, further, opens⟩
  rw [List.append_assoc] at passed
  refine ⟨first ++ earlier, rest, ?_, nonempty, passed.append further, opens⟩
  rw [List.append_assoc]

section

variable (made : Markers.ofList? given = some markers)
include made

theorem nextCodeLine?_of_opens (visible : Visible given) {marker : Text}
    (opens : Opens given source marker after) (line : Nat) :
    nextCodeLine? markers line source = none := by
  rcases List.exists_cons_of_ne_nil opens.nonempty with ⟨c, rest, rfl⟩
  have opened := (Markers.opening?_eq_some made opens.nonempty).mpr opens
  rw [nextCodeLine?_cons, if_neg (by simp [opens.not_blank visible]), opened, if_pos (by simp)]

theorem nextCodeLine?_of_code (code : Code given source) (line : Nat) :
    nextCodeLine? markers line source = some line := by
  rcases code.visible with ⟨c, rest, rfl, noBlank⟩
  have closed := (Markers.opening?_eq_none made (List.cons_ne_nil c rest)).mpr code.noDocumentation
  rw [nextCodeLine?_cons, if_neg (by simp [noBlank]), closed, if_neg (by simp),
    if_neg fun opens => code.noComment (opensOrdinary_iff.mp opens)]

theorem passes_blank (visible : Visible given) {c : Char} (blank : isBlank c = true)
    (after : Text) : Passes markers [c] after := by
  have noMarker : ∀ marker behind, ¬Opens given (c :: after) marker behind := by
    intro marker behind opens
    simp [opens.not_blank visible] at blank
  have begins : Begins given (c :: after) (.character c) after :=
    .ordinary noMarker (ordinary_of_blank blank after) rfl
  constructor
  · intro file offset line
    exact scanFrom_of_next? ((next?_eq_some made).mpr begins)
  · intro line
    rw [List.singleton_append, nextCodeLine?_cons, if_pos blank]

theorem passes_comment {lexeme : Lexeme} (comment : lexeme.IsComment)
    (reads : Ordinary lexeme after)
    (noMarker : ∀ marker behind, ¬Opens given (lexeme.text ++ after) marker behind) :
    Passes markers lexeme.text after := by
  have begins : Begins given (lexeme.text ++ after) lexeme after :=
    .ordinary noMarker reads rfl
  constructor
  · intro file offset line
    rw [scanFrom_of_next? ((next?_eq_some made).mpr begins), ofLexeme?_of_ordinary reads]
    rfl
  · intro line
    have opens := reads.opens comment
    rcases opens.cons with ⟨more, whole⟩
    rw [whole] at noMarker opens ⊢
    have closed := (Markers.opening?_eq_none made (List.cons_ne_nil '/' more)).mpr noMarker
    rw [nextCodeLine?_cons, if_neg (by simp [isBlank_slash]), closed, if_neg (by simp),
      if_pos (opensOrdinary_iff.mpr opens), ordinary_of_reads reads whole.symm]

/-- A look-ahead goes through blanks and ordinary comments, together with the scan, to
the end of the text, to a documentation comment or to code. -/
theorem exists_interlude (visible : Visible given) (source : Text) :
    ∃ between after, source = between ++ after ∧ Interlude between after ∧
      Passes markers between after ∧
      (after = [] ∨ (∃ marker behind, Opens given after marker behind) ∨ Code given after) := by
  cases source with
  | nil => exact ⟨[], [], rfl, .nil, .nil markers [], .inl rfl⟩
  | cons c rest =>
    -- Both readers take the same step here, or both stop.
    by_cases blank : isBlank c = true
    · rcases exists_interlude visible rest with ⟨between, after, rfl, interlude, passed, stop⟩
      have first := passes_blank made visible blank (between ++ after)
      exact ⟨c :: between, after, rfl, .blank blank interlude, first.append passed, stop⟩
    by_cases opened : ∃ marker behind, Opens given (c :: rest) marker behind
    · exact ⟨[], c :: rest, rfl, .nil, .nil markers _, .inr (.inl opened)⟩
    have noMarker : ∀ marker behind, ¬Opens given (c :: rest) marker behind :=
      fun marker behind opens => opened ⟨marker, behind, opens⟩
    by_cases opens : OpensOrdinary (c :: rest)
    · have whole := ordinary_append c rest
      have comment := ordinary_isComment opens
      have reads := ordinary_reads c rest
      rcases exists_interlude visible (ordinary c rest).2 with
        ⟨between, after, split, interlude, passed, stop⟩
      rw [split] at whole reads
      have first := passes_comment made comment reads (whole ▸ noMarker)
      exact ⟨(ordinary c rest).1.text ++ between, after, by rw [List.append_assoc, whole],
        .comment comment reads interlude, first.append passed, stop⟩
    · have code : Code given (c :: rest) :=
        ⟨⟨c, rest, rfl, Bool.eq_false_iff.mpr blank⟩, opens, noMarker⟩
      exact ⟨[], c :: rest, rfl, .nil, .nil markers _, .inr (.inr code)⟩
termination_by source.length
decreasing_by
  · exact Nat.lt_succ_self rest.length
  · exact Nat.lt_succ_of_le (length_ordinary c rest)

/-- Blanks and ordinary comments are passed, unless a documentation comment opens at one
of them. -/
theorem passes_or_interrupted (visible : Visible given) (interlude : Interlude between after) :
    Passes markers between after ∨ Interrupted given markers between after := by
  induction interlude with
  | nil => exact .inl (.nil markers _)
  | blank blank _ induction =>
    have passed := passes_blank made visible blank
    exact induction.imp (passed _).append (Interrupted.append (passed _))
  | @comment lexeme between after comment reads _ induction =>
    by_cases opened : ∃ marker behind, Opens given (lexeme.text ++ between ++ after) marker behind
    · have nonempty : lexeme.text ++ between ≠ [] :=
        List.append_ne_nil_of_left_ne_nil reads.text_ne_nil _
      exact .inr ⟨[], lexeme.text ++ between, rfl, nonempty, .nil markers _, opened⟩
    · have noMarker : ∀ marker behind, ¬Opens given (lexeme.text ++ (between ++ after)) marker
          behind := by
        intro marker behind opens
        rw [← List.append_assoc] at opens
        exact opened ⟨marker, behind, opens⟩
      have passed := passes_comment made comment reads noMarker
      exact induction.imp passed.append (Interrupted.append passed)

/-! ## Where the scan goes on -/

theorem scanFrom_of_opens {marker behind : Text} (opens : Opens given source marker behind)
    (file : Text) (offset line : Nat) :
    ∃ first later, scanFrom markers file offset line source = first :: later ∧
      first.offset = offset := by
  have read := (next?_eq_some made).mpr (begins_ofMarker opens)
  rw [scanFrom_of_next? read]
  unfold ofMarker
  split
  · exact ⟨_, _, rfl, rfl⟩
  · exact ⟨_, _, rfl, rfl⟩

theorem lt_offset_of_not_opens
    (noMarker : ∀ marker behind, ¬Opens given source marker behind) {file : Text}
    {offset line : Nat} {comment : Comment}
    (member : comment ∈ scanFrom markers file offset line source) : offset < comment.offset := by
  cases source with
  | nil => simp [scanFrom_nil] at member
  | cons c rest =>
    have reads := ordinary_reads c rest
    have begins : Begins given (c :: rest) (ordinary c rest).1 (ordinary c rest).2 :=
      .ordinary noMarker reads (ordinary_append c rest).symm
    rw [scanFrom_of_next? ((next?_eq_some made).mpr begins), ofLexeme?_of_ordinary reads] at member
    have further := offset_le_of_mem_scanFrom member
    have positive := List.length_pos_of_ne_nil reads.text_ne_nil
    omega

theorem nextCodeLine?_of_interlude (visible : Visible given) {file before : Text} {line : Nat}
    {later : List Comment}
    (scanned : scanFrom markers file before.length line (between ++ after) = later)
    (stop : nextOffset (before ++ (between ++ after)) later = before.length + between.length)
    (interlude : Interlude between after) :
    nextCodeLine? markers line (between ++ after) = none := by
  rcases passes_or_interrupted made visible interlude with passed | interrupted
  · rw [passed.lookahead]
    by_cases opened : ∃ marker behind, Opens given after marker behind
    · rcases opened with ⟨marker, behind, opens⟩
      exact nextCodeLine?_of_opens made visible opens _
    have noMarker : ∀ marker behind, ¬Opens given after marker behind :=
      fun marker behind opens => opened ⟨marker, behind, opens⟩
    cases later with
    | nil =>
      simp only [nextOffset, List.length_append] at stop
      have empty : after = [] := List.length_eq_zero_iff.mp (by omega)
      rw [empty, nextCodeLine?_nil]
    | cons next others =>
      have member : next ∈ scanFrom markers file (before.length + between.length)
          (line + newlines between) after := by
        rw [← passed.scan, scanned]
        exact List.mem_cons_self
      have behind := lt_offset_of_not_opens made noMarker member
      simp only [nextOffset] at stop
      omega
  · -- Then the scan finds a comment before the place where the next one is said to be.
    rcases interrupted with ⟨earlier, rest, rfl, nonempty, passed, marker, behind, opens⟩
    rcases scanFrom_of_opens made opens file (before.length + earlier.length)
      (line + newlines earlier) with ⟨first, others, found, start⟩
    rw [List.append_assoc, passed.scan, found] at scanned
    have positive := List.length_pos_of_ne_nil nonempty
    simp only [← scanned, nextOffset, List.length_append] at stop
    omega

end

theorem part_append (before between after : Text) :
    part (before ++ (between ++ after)) before.length (before.length + between.length) =
      between := by
  rw [part, List.take_length_add_append, List.take_left, List.drop_left]

theorem drop_append (before between after : Text) :
    (before ++ (between ++ after)).drop (before.length + between.length) = after := by
  rw [← List.append_assoc, ← List.length_append, List.drop_left]

theorem nextOffset_bounds {before behind file : Text} {line : Nat} {later : List Comment}
    (scanned : scanFrom markers file before.length line behind = later) :
    before.length ≤ nextOffset (before ++ behind) later ∧
      nextOffset (before ++ behind) later ≤ before.length + behind.length := by
  rw [← List.length_append]
  cases later with
  | nil => simp [nextOffset]
  | cons next others =>
    have member : next ∈ scanFrom markers file before.length line behind := by
      rw [scanned]
      exact List.mem_cons_self
    have lower := offset_le_of_mem_scanFrom member
    have upper := lt_of_mem_scanFrom member
    rw [nextOffset, List.length_append]
    omega

section

variable {before behind file : Text} {later : List Comment}
  (made : Markers.ofList? given = some markers) (visible : Visible given)
  (scanned : scanFrom markers file before.length (1 + newlines before) behind = later)
include made visible scanned

/-- The look-ahead finds no code exactly if there is nothing but blanks and ordinary
comments up to the next comment. -/
theorem nextCodeLine?_eq_none :
    nextCodeLine? markers (1 + newlines before) behind = none ↔
      Interlude (part (before ++ behind) before.length (nextOffset (before ++ behind) later))
        ((before ++ behind).drop (nextOffset (before ++ behind) later)) := by
  constructor
  · intro nothing
    rcases exists_interlude made visible behind with ⟨between, after, rfl, interlude, passed, ends⟩
    have atStop : nextOffset (before ++ (between ++ after)) later =
        before.length + between.length := by
      rw [passed.scan] at scanned
      rw [passed.lookahead] at nothing
      rcases ends with rfl | ⟨marker, rest, opens⟩ | code
      · rw [scanFrom_nil] at scanned
        simp [← scanned, nextOffset]
      · rcases scanFrom_of_opens made opens file (before.length + between.length)
          (1 + newlines before + newlines between) with ⟨first, others, found, start⟩
        rw [found] at scanned
        rw [← scanned, nextOffset, start]
      · rw [nextCodeLine?_of_code made code] at nothing
        cases nothing
    rw [atStop, part_append, drop_append]
    exact interlude
  · intro interlude
    -- The next comment cuts the text at some place; nothing is known of it yet but its bounds.
    have bounds := nextOffset_bounds scanned
    rcases Nat.exists_eq_add_of_le bounds.1 with ⟨length, atStop⟩
    have inside : length ≤ behind.length := by omega
    have cut := List.length_take_of_le inside
    have split := List.take_append_drop length behind
    generalize behind.take length = between at cut split
    generalize behind.drop length = after at split
    subst split
    rw [← cut] at atStop
    rw [atStop, part_append, drop_append] at interlude
    exact nextCodeLine?_of_interlude made visible scanned atStop interlude

/-- The look-ahead finds the first place that is neither blank nor in an ordinary comment. -/
theorem place_of_nextCodeLine? {line : Nat}
    (ahead : nextCodeLine? markers (1 + newlines before) behind = some line) :
    ∃ place, before.length ≤ place ∧ place < nextOffset (before ++ behind) later ∧
      lineOf (before ++ behind) place = line ∧
      Interlude (part (before ++ behind) before.length place) ((before ++ behind).drop place) ∧
      Code given ((before ++ behind).drop place) := by
  rcases exists_interlude made visible behind with ⟨between, after, rfl, interlude, passed, ends⟩
  rw [passed.lookahead] at ahead
  rw [passed.scan] at scanned
  rcases ends with rfl | ⟨marker, rest, opens⟩ | code
  · simp [nextCodeLine?_nil] at ahead
  · simp [nextCodeLine?_of_opens made visible opens] at ahead
  · rw [nextCodeLine?_of_code made code, Option.some.injEq] at ahead
    refine ⟨before.length + between.length, Nat.le_add_right _ _, ?_, ?_, ?_, ?_⟩
    · cases later with
      | nil =>
        rcases code.visible with ⟨c, rest, rfl, _⟩
        simp only [nextOffset, List.length_append, List.length_cons]
        omega
      | cons next others =>
        have member : next ∈ scanFrom markers file (before.length + between.length)
            (1 + newlines before + newlines between) after := by
          rw [scanned]
          exact List.mem_cons_self
        exact lt_offset_of_not_opens made code.noDocumentation member
    · rw [lineOf_append, List.take_left, ahead]
    · rw [part_append, drop_append]
      exact interlude
    · rw [drop_append]
      exact code

end

/-- For every closed comment of a scan, the look-ahead finds no code exactly if there are
only blanks and ordinary comments up to the next comment. Otherwise it finds the first
place behind them, which is code and before the next comment. -/
theorem lookahead_agrees_with_scan (made : Markers.ofList? given = some markers)
    (visible : Visible given) {path source : Text} {earlier later : List Comment}
    {comment : Comment} (found : scan markers path source = earlier ++ comment :: later) :
    (comment.terminated = false → comment.nextCodeLine = none) ∧
      (comment.terminated = true → ∃ marker body finish,
        Begins given (source.drop comment.offset) (.documentation marker body true)
          (source.drop finish) ∧
        finish = comment.offset + (Lexeme.documentation marker body true).text.length ∧
        (comment.nextCodeLine = none ↔
          Interlude (part source finish (nextOffset source later))
            (source.drop (nextOffset source later))) ∧
        ∀ line, comment.nextCodeLine = some line →
          ∃ place, finish ≤ place ∧ place < nextOffset source later ∧
            lineOf source place = line ∧
            Interlude (part source finish place) (source.drop place) ∧
            Code given (source.drop place)) := by
  rcases scan_split made found with
    ⟨before, marker, body, behind, whole, start, begins, ahead, rest⟩
  cases closed : comment.terminated with
  | false =>
    rw [closed] at ahead
    exact ⟨fun _ => ahead, nofun⟩
  | true =>
    refine ⟨nofun, fun _ => ⟨marker, body, _, ?_, rfl, ?_⟩⟩
    · rw [closed] at whole begins
      rw [start, whole, List.drop_left, drop_append]
      exact begins
    · rw [closed] at whole ahead rest
      rw [start, ← List.length_append, ahead, whole, ← List.append_assoc]
      exact ⟨nextCodeLine?_eq_none made visible rest.symm,
        fun _ ahead => place_of_nextCodeLine? made visible rest.symm ahead⟩

theorem lookahead_agrees_with_scan_at_code :
    let given : List Text := ["/*!"]
    let source : Text := "/*! a */ // b\nint x; /*! c */"
    let first : Comment := ⟨⟨"a.h", 1, 1⟩, "a", some 2, true, 0⟩
    let second : Comment := ⟨⟨"a.h", 2, 2⟩, "c", none, true, 21⟩
    ∃ markers, Markers.ofList? given = some markers ∧ Visible given ∧
      scan markers "a.h" source = [first, second] ∧
      ∃ marker body finish,
        Begins given source (.documentation marker body true) (source.drop finish) ∧
        ∃ place, finish ≤ place ∧ place < 21 ∧ lineOf source place = 2 ∧
          Interlude (part source finish place) (source.drop place) ∧
          Code given (source.drop place) := by
  intro given source first second
  have made : Markers.ofList? given = some ⟨given, by decide⟩ :=
    Markers.ofList?_of_pairwise _ (by decide)
  have visible : Visible given := by
    intro marker listed
    rw [List.mem_singleton.mp listed]
    exact ⟨'/', ['*', '!'], rfl, by decide⟩
  have found : scan ⟨given, by decide⟩ "a.h" source = [] ++ first :: [second] := by
    decide +kernel
  rcases (lookahead_agrees_with_scan made visible found).2 rfl with
    ⟨marker, body, finish, begins, -, -, ahead⟩
  exact ⟨_, made, visible, found, marker, body, finish, begins, ahead 2 rfl⟩

/-- The empty marker opens a comment at a blank, which the look-ahead steps over: it finds
the text of the comment that begins right behind the first one. -/
theorem empty_marker_misleads_lookahead :
    let given : List Text := ["x*", ""]
    let source : Text := "*/ x*/"
    let first : Comment := ⟨⟨"a.h", 1, 1⟩, "", some 1, true, 0⟩
    let second : Comment := ⟨⟨"a.h", 1, 1⟩, "x", none, true, 2⟩
    (∀ c rest, c :: rest ∈ given → isBlank c = false) ∧
      ∃ markers, Markers.ofList? given = some markers ∧
        scan markers "a.h" source = [first, second] ∧
        Begins given source (.documentation [] [] true) (source.drop 2) ∧
        ¬(first.nextCodeLine = none ↔
          Interlude (part source 2 (nextOffset source [second]))
            (source.drop (nextOffset source [second]))) := by
  intro given source first second
  have made : Markers.ofList? given = some ⟨given, by decide⟩ :=
    Markers.ofList?_of_pairwise _ (by decide)
  have found : scan ⟨given, by decide⟩ "a.h" source = [first, second] := by
    decide +kernel
  have read : next? ⟨given, by decide⟩ source =
      some (.documentation [] [] true, source.drop 2) := by
    decide
  refine ⟨?_, _, made, found, (next?_eq_some made).mp read, ?_⟩
  · intro c rest listed
    rcases List.mem_cons.mp listed with equal | listed
    · cases equal
      decide
    · cases List.mem_singleton.mp listed
  · intro agrees
    have nothing : first.nextCodeLine = none := agrees.mpr .nil
    cases nothing

end Comment

end DocAtlas
