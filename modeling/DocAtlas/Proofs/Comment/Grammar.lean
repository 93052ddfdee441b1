import DocAtlas.Comment.Scan
import Mathlib.Data.List.Infix

/-!
# The lexical grammar of a source text

A lexeme is described without reading it. A documentation comment begins with the longest
marker that fits. Comments go to their first closing, lines to their newline, literals to
a quote or a newline that no backslash protects; what is never closed goes to the end of
the text. All else is single characters.

Reading agrees with the grammar, so no text begins with two different lexemes.
-/

namespace DocAtlas

open Text (newline singleQuote doubleQuote)

namespace Lexeme

/-- The marker that opens a documentation comment at the beginning of a text: the longest
that fits, unless it ends in a star that a slash follows. -/
structure Opens (markers : List Text) (source marker after : Text) : Prop where
  nonempty : source ≠ []
  listed : marker ∈ markers
  fits : source = marker ++ after
  longest : ∀ other ∈ markers, other <+: source → other.length ≤ marker.length
  allowed : ¬(['*'] <:+ marker ∧ ['/'] <+: after)

def IsQuote (c : Char) : Prop := c = doubleQuote ∨ c = singleQuote

inductive Quoted (quote : Char) : Text → Prop
  | nil : Quoted quote []
  | plain {c : Char} {rest : Text} (noEscape : c ≠ '\\') (noQuote : c ≠ quote)
      (noNewline : c ≠ newline) : Quoted quote rest → Quoted quote (c :: rest)
  | escaped (c : Char) {rest : Text} : Quoted quote rest → Quoted quote ('\\' :: c :: rest)

def OpensOrdinary (source : Text) : Prop := ['/', '/'] <+: source ∨ ['/', '*'] <+: source

/-- A lexeme that no marker opens, before some text. -/
inductive Ordinary : Lexeme → Text → Prop
  | line {body rest : Text} : newline ∉ body →
      Ordinary (.lineComment ('/' :: '/' :: body ++ [newline])) rest
  | lastLine {body : Text} : newline ∉ body → Ordinary (.lineComment ('/' :: '/' :: body)) []
  | block {body rest : Text} : ¬closing <:+: body →
      Ordinary (.blockComment ('/' :: '*' :: body ++ closing)) rest
  | openBlock {body : Text} : ¬closing <:+: body →
      Ordinary (.blockComment ('/' :: '*' :: body)) []
  | literal {quote stop : Char} {inside rest : Text} : IsQuote quote → Quoted quote inside →
      stop = quote ∨ stop = newline → Ordinary (.literal (quote :: inside ++ [stop])) rest
  | openLiteral {quote : Char} {inside finish : Text} : IsQuote quote → Quoted quote inside →
      finish = [] ∨ finish = ['\\'] → Ordinary (.literal (quote :: inside ++ finish)) []
  | character {c : Char} {rest : Text} : ¬IsQuote c → ¬OpensOrdinary (c :: rest) →
      Ordinary (.character c) rest

inductive Begins (markers : List Text) : Text → Lexeme → Text → Prop
  | documentation {source marker body rest : Text} :
      Opens markers source marker (body ++ closing ++ rest) → ¬closing <:+: body →
      Begins markers source (.documentation marker body true) rest
  | openDocumentation {source marker body : Text} :
      Opens markers source marker body → ¬closing <:+: body →
      Begins markers source (.documentation marker body false) []
  | ordinary {source rest : Text} {lexeme : Lexeme} :
      (∀ marker after, ¬Opens markers source marker after) →
      Ordinary lexeme rest → source = lexeme.text ++ rest → Begins markers source lexeme rest

/-! ## Cutting -/

theorem cutClosing_append_of_not_infix {body : Text} (inside : ¬closing <:+: body)
    (rest : Text) : cutClosing (body ++ closing ++ rest) = some (body, rest) := by
  induction body with
  | nil => rfl
  | cons c body induction =>
    -- The end of the comment cannot begin with the last character of its body.
    have first : ∀ tail, c = '*' → body ++ closing ++ rest = '/' :: tail → False := by
      rintro tail rfl equal
      apply inside
      cases body with
      | nil => simp [closing] at equal
      | cons next body =>
        simp only [List.cons_append, List.cons.injEq] at equal
        exact ⟨[], body, by simp [closing, equal.1]⟩
    have later : ¬closing <:+: body := fun found =>
      inside (List.infix_cons found)
    rw [List.cons_append, List.cons_append, cutClosing.eq_3 _ _ first, induction later]
    rfl

theorem not_infix_of_cutClosing {source body rest : Text}
    (cut : cutClosing source = some (body, rest)) : ¬closing <:+: body := by
  fun_induction cutClosing source generalizing body with
  | case1 => simp at cut
  | case2 tail =>
    simp only [Option.some.injEq, Prod.mk.injEq] at cut
    simp [← cut.1, closing]
  | case3 c tail different induction =>
    rw [Option.map_eq_some_iff] at cut
    rcases cut with ⟨⟨inner, after⟩, found, equal⟩
    simp only [Prod.mk.injEq] at equal
    rcases equal with ⟨rfl, rfl⟩
    rw [List.infix_cons_iff]
    rintro (first | later)
    · rcases first with ⟨more, equal⟩
      simp only [closing, List.cons_append, List.nil_append, List.cons.injEq] at equal
      apply different (more ++ closing ++ after) equal.1.symm
      rw [cutClosing_append found, ← equal.2, List.cons_append, List.cons_append]
    · exact induction found later

theorem cutClosing_eq_none {source : Text} :
    cutClosing source = none ↔ ¬closing <:+: source := by
  fun_induction cutClosing source with
  | case1 => simp [closing]
  | case2 tail =>
    have found : closing <:+: '*' :: '/' :: tail := ⟨[], tail, rfl⟩
    simp [found]
  | case3 c tail different induction =>
    have first : ¬closing <+: c :: tail := by
      rintro ⟨more, equal⟩
      simp only [closing, List.cons_append, List.nil_append, List.cons.injEq] at equal
      exact different more equal.1.symm equal.2.symm
    rw [Option.map_eq_none_iff, induction, List.infix_cons_iff, not_or]
    exact ⟨fun later => ⟨first, later⟩, fun both => both.2⟩

theorem cutLine_of_not_mem {body : Text} (inside : newline ∉ body) (rest : Text) :
    cutLine (body ++ newline :: rest) = (body ++ [newline], rest) := by
  induction body with
  | nil => simp [cutLine]
  | cons c body induction =>
    rw [List.mem_cons, not_or] at inside
    simp [cutLine, Ne.symm inside.1, induction inside.2]

theorem cutLine_to_end {body : Text} (inside : newline ∉ body) : cutLine body = (body, []) := by
  induction body with
  | nil => rfl
  | cons c body induction =>
    rw [List.mem_cons, not_or] at inside
    simp [cutLine, Ne.symm inside.1, induction inside.2]

theorem cutLine_ends (source : Text) :
    (∃ body, newline ∉ body ∧ (cutLine source).1 = body ++ [newline]) ∨
      newline ∉ (cutLine source).1 ∧ (cutLine source).2 = [] := by
  fun_induction cutLine source with
  | case1 => simp
  | case2 rest => exact .inl ⟨[], by simp, rfl⟩
  | case3 c rest different induction =>
    have fresh : newline ≠ c := Ne.symm different
    rcases induction with ⟨body, inside, cut⟩ | ⟨inside, toEnd⟩
    · exact .inl ⟨c :: body, by simp [fresh, inside], by simp [cut]⟩
    · exact .inr ⟨by simp [fresh, inside], toEnd⟩

theorem cutLiteral_cons (quote : Char) {c : Char} (noEscape : c ≠ '\\') (rest : Text) :
    cutLiteral quote (c :: rest) =
      if c = quote ∨ c = newline then ([c], rest)
      else (c :: (cutLiteral quote rest).1, (cutLiteral quote rest).2) :=
  cutLiteral.eq_4 quote c rest (fun escape _ => noEscape escape) fun _ _ escape _ =>
    noEscape escape

theorem IsQuote.ne_backslash {quote : Char} (isQuote : IsQuote quote) : quote ≠ '\\' := by
  rcases isQuote with rfl | rfl <;> decide

theorem cutLiteral_of_quoted {quote stop : Char} {inside : Text} (isQuote : IsQuote quote)
    (quoted : Quoted quote inside) (stops : stop = quote ∨ stop = newline) (rest : Text) :
    cutLiteral quote (inside ++ stop :: rest) = (inside ++ [stop], rest) := by
  induction quoted with
  | nil =>
    have noEscape : stop ≠ '\\' := by
      rcases stops with rfl | rfl
      · exact isQuote.ne_backslash
      · decide
    rw [List.nil_append, cutLiteral_cons quote noEscape, if_pos stops, List.nil_append]
  | plain noEscape noQuote noNewline _ induction =>
    rw [List.cons_append, cutLiteral_cons quote noEscape, if_neg (by simp [noQuote, noNewline]),
      induction, List.cons_append]
  | escaped c _ induction => simp [cutLiteral, induction]

theorem cutLiteral_to_end {quote : Char} {inside finish : Text} (quoted : Quoted quote inside)
    (finishes : finish = [] ∨ finish = ['\\']) :
    cutLiteral quote (inside ++ finish) = (inside ++ finish, []) := by
  induction quoted with
  | nil => rcases finishes with rfl | rfl <;> rfl
  | plain noEscape noQuote noNewline _ induction =>
    rw [List.cons_append, cutLiteral_cons quote noEscape, if_neg (by simp [noQuote, noNewline]),
      induction]
  | escaped c _ induction => simp [cutLiteral, induction]

theorem cutLiteral_ends (quote : Char) (source : Text) :
    (∃ inside stop, Quoted quote inside ∧ (stop = quote ∨ stop = newline) ∧
        (cutLiteral quote source).1 = inside ++ [stop]) ∨
      ∃ inside finish, Quoted quote inside ∧ (finish = [] ∨ finish = ['\\']) ∧
        cutLiteral quote source = (inside ++ finish, []) := by
  fun_induction cutLiteral quote source with
  | case1 => exact .inr ⟨[], [], .nil, .inl rfl, rfl⟩
  | case2 => exact .inr ⟨[], ['\\'], .nil, .inr rfl, rfl⟩
  | case3 c rest induction =>
    rcases induction with ⟨inside, stop, quoted, stops, cut⟩ | ⟨inside, finish, quoted, ends, cut⟩
    · exact .inl ⟨'\\' :: c :: inside, stop, .escaped c quoted, stops, by simp [cut]⟩
    · exact .inr ⟨'\\' :: c :: inside, finish, .escaped c quoted, ends, by simp [cut]⟩
  | case4 c rest _ _ stops => exact .inl ⟨[], c, .nil, stops, rfl⟩
  | case5 c rest last pair stays induction =>
    have noEscape : c ≠ '\\' := by
      rintro rfl
      cases rest with
      | nil => exact last rfl rfl
      | cons next more => exact pair next more rfl rfl
    rw [not_or] at stays
    rcases induction with ⟨inside, stop, quoted, stops, cut⟩ | ⟨inside, finish, quoted, ends, cut⟩
    · exact .inl ⟨c :: inside, stop, .plain noEscape stays.1 stays.2 quoted, stops, by simp [cut]⟩
    · exact .inr ⟨c :: inside, finish, .plain noEscape stays.1 stays.2 quoted, ends,
        by simp [cut]⟩

/-! ## Reading an ordinary lexeme -/

theorem cutLine_slash (more : Text) :
    cutLine ('/' :: more) = ('/' :: (cutLine more).1, (cutLine more).2) := by
  have other : '/' ≠ newline := by decide
  simp [cutLine, other]

theorem not_opensOrdinary {c : Char} {rest : Text}
    (line : ∀ more, c = '/' → rest = '/' :: more → False)
    (block : ∀ more, c = '/' → rest = '*' :: more → False) : ¬OpensOrdinary (c :: rest) := by
  rintro (⟨more, equal⟩ | ⟨more, equal⟩)
  · simp only [List.cons_append, List.nil_append, List.cons.injEq] at equal
    exact line more equal.1.symm equal.2.symm
  · simp only [List.cons_append, List.nil_append, List.cons.injEq] at equal
    exact block more equal.1.symm equal.2.symm

theorem ordinary_reads (c : Char) (rest : Text) :
    Ordinary (ordinary c rest).1 (ordinary c rest).2 := by
  fun_cases ordinary c rest with
  | case1 more =>
    rw [cutLine_slash]
    rcases cutLine_ends more with ⟨body, inside, cut⟩ | ⟨inside, toEnd⟩
    · rw [cut]
      exact .line inside
    · rw [toEnd]
      exact .lastLine inside
  | case2 more body after cut => exact .block (not_infix_of_cutClosing cut)
  | case3 more cut => exact .openBlock (cutClosing_eq_none.mp cut)
  | case4 c rest line block isQuote =>
    rcases cutLiteral_ends c rest with
      ⟨inside, stop, quoted, stops, cut⟩ | ⟨inside, finish, quoted, ends, cut⟩
    · rw [cut]
      exact .literal isQuote quoted stops
    · rw [cut]
      exact .openLiteral isQuote quoted ends
  | case5 c rest line block noQuote => exact .character noQuote (not_opensOrdinary line block)

theorem IsQuote.ne_slash {quote : Char} (isQuote : IsQuote quote) : quote ≠ '/' := by
  rcases isQuote with rfl | rfl <;> decide

theorem ordinary_of_isQuote {quote : Char} (isQuote : IsQuote quote) (rest : Text) :
    ordinary quote rest =
      (literal (quote :: (cutLiteral quote rest).1), (cutLiteral quote rest).2) := by
  have noSlash := isQuote.ne_slash
  fun_cases ordinary quote rest with
  | case1 => exact absurd rfl noSlash
  | case2 => exact absurd rfl noSlash
  | case3 => exact absurd rfl noSlash
  | case4 => rfl
  | case5 _ _ _ _ noQuote => exact absurd isQuote noQuote

theorem ordinary_of_reads {c : Char} {source rest : Text} {lexeme : Lexeme}
    (reads : Ordinary lexeme rest) (whole : c :: source = lexeme.text ++ rest) :
    ordinary c source = (lexeme, rest) := by
  cases reads with
  | line inside =>
    simp only [text, List.cons_append, List.append_assoc, List.nil_append, List.cons.injEq]
      at whole
    rcases whole with ⟨rfl, rfl⟩
    simp [ordinary, cutLine_slash, cutLine_of_not_mem inside]
  | lastLine inside =>
    simp only [text, List.append_nil, List.cons.injEq] at whole
    rcases whole with ⟨rfl, rfl⟩
    simp [ordinary, cutLine_slash, cutLine_to_end inside]
  | block inside =>
    simp only [text, List.cons_append, List.cons.injEq] at whole
    rcases whole with ⟨rfl, rfl⟩
    simp only [ordinary, cutClosing_append_of_not_infix inside, List.cons_append]
  | openBlock inside =>
    simp only [text, List.append_nil, List.cons.injEq] at whole
    rcases whole with ⟨rfl, rfl⟩
    simp only [ordinary, cutClosing_eq_none.mpr inside]
  | literal isQuote quoted stops =>
    simp only [text, List.cons_append, List.append_assoc, List.nil_append, List.cons.injEq]
      at whole
    rcases whole with ⟨rfl, rfl⟩
    rw [ordinary_of_isQuote isQuote, cutLiteral_of_quoted isQuote quoted stops, List.cons_append]
  | openLiteral isQuote quoted ends =>
    simp only [text, List.cons_append, List.append_nil, List.cons.injEq] at whole
    rcases whole with ⟨rfl, rfl⟩
    rw [ordinary_of_isQuote isQuote, cutLiteral_to_end quoted ends, List.cons_append]
  | character noQuote noComment =>
    simp only [text, List.cons_append, List.nil_append, List.cons.injEq] at whole
    rcases whole with ⟨rfl, rfl⟩
    fun_cases ordinary c source with
    | case1 more => exact absurd (.inl ⟨more, rfl⟩) noComment
    | case2 more => exact absurd (.inr ⟨more, rfl⟩) noComment
    | case3 more => exact absurd (.inr ⟨more, rfl⟩) noComment
    | case4 _ _ _ _ isQuote => exact absurd isQuote noQuote
    | case5 => rfl

end Lexeme

namespace Markers

variable {given : List Text} {markers : Markers}

theorem byLength_of_ofList? (made : ofList? given = some markers) :
    markers.byLength = given.mergeSort fun first second => second.length ≤ first.length := by
  unfold ofList? at made
  simp only [Option.dite_none_left_eq_some, Option.some.injEq] at made
  rcases made with ⟨_, rfl⟩
  rfl

theorem ofList?_of_pairwise (nonempty : given ≠ [])
    (ordered : given.Pairwise fun first second => second.length ≤ first.length) :
    ofList? given = some ⟨given, nonempty⟩ := by
  have sorted : (given.mergeSort fun first second => second.length ≤ first.length) = given :=
    List.mergeSort_of_pairwise (ordered.imp decide_eq_true)
  simp only [ofList?, sorted, dif_neg nonempty]

theorem exists_ofList? (nonempty : given ≠ []) : ∃ markers, ofList? given = some markers := by
  have sorted : (given.mergeSort fun first second => second.length ≤ first.length) ≠ [] := by
    intro empty
    have same := List.mergeSort_perm given fun first second => second.length ≤ first.length
    rw [empty] at same
    exact nonempty same.nil_eq.symm
  exact ⟨⟨_, sorted⟩, dif_neg sorted⟩

theorem mem_of_ofList? (made : ofList? given = some markers) {marker : Text} :
    marker ∈ markers.byLength ↔ marker ∈ given := by
  rw [byLength_of_ofList? made, List.mem_mergeSort]

theorem pairwise_of_ofList? (made : ofList? given = some markers) :
    markers.byLength.Pairwise fun first second => second.length ≤ first.length := by
  have ordered : markers.byLength.Pairwise fun first second =>
      decide (second.length ≤ first.length) = true := by
    rw [byLength_of_ofList? made]
    apply List.pairwise_mergeSort
    · intro first second third left right
      simp only [decide_eq_true_eq] at *
      omega
    · intro first second
      simp only [Bool.or_eq_true, decide_eq_true_eq]
      omega
  exact ordered.imp of_decide_eq_true

theorem longest_of_at? (made : ofList? given = some markers) {source marker after : Text}
    (found : markers.at? source = some (marker, after)) :
    marker ∈ given ∧ ∀ other ∈ given, other <+: source → other.length ≤ marker.length := by
  rcases List.findSome?_eq_some_iff.mp found with ⟨before, first, behind, parts, fits, unfit⟩
  rw [Option.map_eq_some_iff] at fits
  rcases fits with ⟨rest, dropped, equal⟩
  simp only [Prod.mk.injEq] at equal
  rcases equal with ⟨rfl, rfl⟩
  have ordered := pairwise_of_ofList? made
  rw [parts] at ordered
  have shorter := (List.pairwise_cons.mp (List.pairwise_append.mp ordered).2.1).1
  constructor
  · rw [← mem_of_ofList? made, parts]
    exact List.mem_append_right _ List.mem_cons_self
  · rintro other listed ⟨otherRest, otherFits⟩
    rw [← mem_of_ofList? made, parts, List.mem_append, List.mem_cons] at listed
    rcases listed with early | rfl | late
    · have dropsOther := Text.dropStart?_eq_some.mpr otherFits.symm
      have dropsNothing := unfit other early
      simp [dropsOther] at dropsNothing
    · exact Nat.le_refl _
    · exact shorter other late

theorem exists_at? (made : ofList? given = some markers) {source marker : Text}
    (listed : marker ∈ given) (fits : marker <+: source) :
    ∃ other after, markers.at? source = some (other, after) := by
  rcases fits with ⟨rest, fits⟩
  cases found : markers.at? source with
  | some pair => exact ⟨pair.1, pair.2, rfl⟩
  | none =>
    have unfit := List.findSome?_eq_none_iff.mp found marker ((mem_of_ofList? made).mpr listed)
    simp [Text.dropStart?_eq_some.mpr fits.symm] at unfit

theorem vetoed_eq_true {marker after : Text} :
    vetoed marker after = true ↔ ['*'] <:+ marker ∧ ['/'] <+: after := by
  rw [vetoed, Bool.and_eq_true, Text.endsWith, Text.startsWith, List.isSuffixOf_iff_suffix,
    List.isPrefixOf_iff_prefix]

theorem opening?_eq_some (made : ofList? given = some markers) {source marker after : Text}
    (nonempty : source ≠ []) :
    markers.opening? source = some (marker, after) ↔
      Lexeme.Opens given source marker after := by
  constructor
  · intro opened
    have fits := opening?_append opened
    unfold opening? at opened
    split at opened
    · simp at opened
    · next first rest found =>
      split at opened
      · simp at opened
      · next allowed =>
        simp only [Option.some.injEq, Prod.mk.injEq] at opened
        rcases opened with ⟨rfl, rfl⟩
        rcases longest_of_at? made found with ⟨listed, longest⟩
        exact ⟨nonempty, listed, fits, longest, fun both => allowed (vetoed_eq_true.mpr both)⟩
  · intro opens
    rcases exists_at? made opens.listed ⟨after, opens.fits.symm⟩ with ⟨other, otherAfter, found⟩
    rcases longest_of_at? made found with ⟨listed, longest⟩
    have fits := at?_append found
    have sameLength : other.length = marker.length :=
      Nat.le_antisymm (opens.longest other listed ⟨otherAfter, fits.symm⟩)
        (longest marker opens.listed ⟨after, opens.fits.symm⟩)
    rcases List.append_inj (fits.symm.trans opens.fits) sameLength with ⟨rfl, rfl⟩
    have allowed : vetoed other otherAfter = false :=
      Bool.eq_false_iff.mpr fun vetoes => opens.allowed (vetoed_eq_true.mp vetoes)
    simp [opening?, found, allowed]

theorem opening?_eq_none (made : ofList? given = some markers) {source : Text}
    (nonempty : source ≠ []) :
    markers.opening? source = none ↔
      ∀ marker after, ¬Lexeme.Opens given source marker after := by
  constructor
  · intro closed marker after opens
    rw [(opening?_eq_some made nonempty).mpr opens] at closed
    cases closed
  · intro closed
    cases opened : markers.opening? source with
    | none => rfl
    | some pair => exact absurd ((opening?_eq_some made nonempty).mp opened) (closed _ _)

end Markers

namespace Lexeme

variable {given : List Text} {markers : Markers}

/-! ## Reading a lexeme -/

theorem Ordinary.text_ne_nil {lexeme : Lexeme} {rest : Text} (reads : Ordinary lexeme rest) :
    lexeme.text ≠ [] := by
  cases reads <;> simp [text]

theorem Begins.text_append {source rest : Text} {lexeme : Lexeme}
    (begins : Begins given source lexeme rest) : source = lexeme.text ++ rest := by
  cases begins with
  | documentation opens _ => simp [opens.fits, text]
  | openDocumentation opens _ => simp [opens.fits, text]
  | ordinary _ _ whole => exact whole

theorem Begins.ne_nil {source rest : Text} {lexeme : Lexeme}
    (begins : Begins given source lexeme rest) : source ≠ [] := by
  cases begins with
  | documentation opens _ => exact opens.nonempty
  | openDocumentation opens _ => exact opens.nonempty
  | ordinary _ reads whole =>
    rw [whole]
    exact List.append_ne_nil_of_left_ne_nil reads.text_ne_nil _

theorem begins_ofMarker {source marker after : Text} (opens : Opens given source marker after) :
    Begins given source (ofMarker marker after).1 (ofMarker marker after).2 := by
  unfold ofMarker
  split
  · next body rest cut =>
    rw [cutClosing_append cut] at opens
    exact .documentation opens (not_infix_of_cutClosing cut)
  · next cut => exact .openDocumentation opens (cutClosing_eq_none.mp cut)

/-- What is read from a text is the lexeme that the grammar has there. -/
theorem next?_eq_some (made : Markers.ofList? given = some markers) {source rest : Text}
    {lexeme : Lexeme} :
    next? markers source = some (lexeme, rest) ↔ Begins given source lexeme rest := by
  constructor
  · intro read
    unfold next? at read
    split at read
    · simp at read
    · next c tail =>
      have nonempty : c :: tail ≠ [] := List.cons_ne_nil c tail
      split at read
      · next marker after opened =>
        simp only [Option.some.injEq] at read
        have begins := begins_ofMarker ((Markers.opening?_eq_some made nonempty).mp opened)
        rwa [read] at begins
      · next closed =>
        simp only [Option.some.injEq] at read
        have reads := ordinary_reads c tail
        have whole := ordinary_append c tail
        rw [read] at reads whole
        have noMarker := (Markers.opening?_eq_none made nonempty).mp closed
        exact .ordinary noMarker reads whole.symm
  · intro begins
    rcases List.exists_cons_of_ne_nil begins.ne_nil with ⟨c, tail, rfl⟩
    have nonempty : c :: tail ≠ [] := List.cons_ne_nil c tail
    cases begins with
    | documentation opens inside =>
      have opened := (Markers.opening?_eq_some made nonempty).mpr opens
      simp only [next?, opened, ofMarker, cutClosing_append_of_not_infix inside]
    | openDocumentation opens inside =>
      have opened := (Markers.opening?_eq_some made nonempty).mpr opens
      simp only [next?, opened, ofMarker, cutClosing_eq_none.mpr inside]
    | ordinary noMarker reads whole =>
      have closed := (Markers.opening?_eq_none made nonempty).mpr noMarker
      simp only [next?, closed, ordinary_of_reads reads whole]

end Lexeme

end DocAtlas
