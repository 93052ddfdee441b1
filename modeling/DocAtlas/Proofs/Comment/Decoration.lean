import DocAtlas.Proofs.Comment.Layout
import DocAtlas.Proofs.Comment.Written

/-!
# Decorated comments

A comment may have a star in front of every line behind the first. Main statement: the star
leaves no trace in the text of the comment if one of these lines says anything, for then the
lines that say something decide that all are decorated. Lone stars do not, so where there is
nothing else they stay.
-/

namespace DocAtlas

open Text (newline isBlank isIndent trim trimStart trimEnd dedent)

namespace Comment

/-! ## Removing the stars -/

theorem dropStar?_starred (line : Text) : dropStar? (starred line) = some line := by
  unfold starred
  split
  · next empty => rw [empty]; rfl
  · rfl

theorem dropStar?_eq_none {line : Text} (starless : ¬['*'] <+: trimStart line) :
    dropStar? line = none := by
  unfold dropStar?
  split
  · rfl
  · next rest start => exact absurd ⟨' ' :: rest, start.symm⟩ starless
  · next rest _ _ start => exact absurd ⟨rest, start.symm⟩ starless
  · rfl

theorem dropStar?_of_star {line rest : Text} (star : trimStart line = '*' :: rest) :
    dropStar? line =
      if rest.head? = some '/' then none
      else some (if rest.head? = some ' ' then rest.tail else rest) := by
  unfold trimStart at star
  rw [dropStar?, star]
  cases rest with
  | nil => rfl
  | cons c rest => by_cases slash : c = '/' <;> by_cases space : c = ' ' <;> simp_all

theorem trimStart_of_indent {line : Text} (blank : line.all isIndent = true) :
    trimStart line = [] := by
  have nothing := Text.trimStart_indent_append (List.all_eq_true.mp blank) []
  rwa [List.append_nil] at nothing

theorem dropStar?_of_indent {line : Text} (blank : line.all isIndent = true) :
    dropStar? line = none := by
  apply dropStar?_eq_none
  rw [trimStart_of_indent blank]
  decide

theorem saysSomething_of_indent {line : Text} (blank : line.all isIndent = true) :
    saysSomething line = false := by
  rw [saysSomething, trim, trimStart_of_indent blank]
  rfl

theorem saysSomething_starred {line : Text} (flush : trimEnd line = line) :
    saysSomething (starred line) = true ↔ line ≠ [] := by
  constructor
  · rintro speaks rfl
    cases speaks
  · intro full
    have kept : trim (starred line) = '*' :: ' ' :: line := by
      rw [starred, if_neg full]
      exact Text.trimEnd_append flush full ['*', ' ']
    simp [saysSomething, kept]

theorem saysSomething_of_starless {line : Text} (flush : trimEnd line = line) (full : line ≠ [])
    (starless : ¬['*'] <+: trimStart line) : saysSomething line = true := by
  have nonempty := Text.trimStart_ne_nil flush full
  have notStar : trimStart line ≠ ['*'] := fun star => starless (star ▸ List.prefix_rfl)
  simp [saysSomething, Text.trim_eq_trimStart flush, nonempty, notStar]

/-- One line that says something without a star in front shows that none is decorated. -/
theorem undecorate_of_mem {lines : List Text} {line : Text} (member : line ∈ lines)
    (speaks : saysSomething line = true) (starless : dropStar? line = none) :
    undecorate lines = lines := by
  have plain : isDecorated lines = false := by
    rw [isDecorated, Bool.and_eq_false_iff]
    right
    apply List.all_eq_false.mpr
    exact ⟨line, List.mem_filter.mpr ⟨member, speaks⟩, by simp [starless]⟩
  rw [undecorate, plain, if_neg Bool.false_ne_true]

theorem undecorate_of_silent {lines : List Text}
    (silent : ∀ line ∈ lines, saysSomething line = false) : undecorate lines = lines := by
  have plain : isDecorated lines = false := by
    rw [isDecorated, List.any_eq_false.mpr (by simpa using silent), Bool.false_and]
  rw [undecorate, plain, if_neg Bool.false_ne_true]

theorem undecorate_starred {lines : List Text} {last : Text}
    (flush : ∀ line ∈ lines, trimEnd line = line) (some : ∃ line ∈ lines, line ≠ [])
    (blank : last.all isIndent = true) :
    undecorate (lines.map starred ++ [last]) = lines ++ [last] := by
  have decorated : isDecorated (lines.map starred ++ [last]) = true := by
    rw [isDecorated, Bool.and_eq_true]
    constructor
    · rcases some with ⟨line, member, full⟩
      apply List.any_eq_true.mpr
      exact ⟨starred line, List.mem_append_left _ (List.mem_map_of_mem member),
        (saysSomething_starred (flush line member)).mpr full⟩
    · rw [List.all_eq_true]
      intro text speaker
      rcases List.mem_filter.mp speaker with ⟨member, speaks⟩
      rcases List.mem_append.mp member with earlier | final
      · rcases List.mem_map.mp earlier with ⟨line, _, rfl⟩
        rw [dropStar?_starred]
        rfl
      · rw [List.mem_singleton.mp final, saysSomething_of_indent blank] at speaks
        cases speaks
  have starless : (lines.map starred).map (fun line => (dropStar? line).getD line) = lines := by
    rw [List.map_map]
    exact List.map_id'' (fun line => by simp [dropStar?_starred]) lines
  rw [undecorate, if_pos decorated, List.map_append, starless, List.map_singleton,
    dropStar?_of_indent blank, Option.getD_none]

theorem undecorate_lone_stars {lines : List Text} {last : Text}
    (empty : ∀ line ∈ lines, line = []) (blank : last.all isIndent = true) :
    undecorate (lines.map starred ++ [last]) = lines.map starred ++ [last] := by
  apply undecorate_of_silent
  intro text member
  rcases List.mem_append.mp member with earlier | final
  · rcases List.mem_map.mp earlier with ⟨line, inside, rfl⟩
    rw [empty line inside]
    rfl
  · rw [List.mem_singleton.mp final, saysSomething_of_indent blank]

/-! ## The text of a decorated comment -/

theorem layoutLines_of_undecorate {first last : Text} {others lines : List Text}
    (starless : undecorate (others ++ [last]) = lines ++ [last])
    (blank : last.all isIndent = true) :
    layoutLines (first :: (others ++ [last])) =
      trim first :: ((dedent lines).map trimEnd ++ [[]]) := by
  rw [layoutLines, starless, Text.dedent_concat blank, List.map_append]
  rfl

theorem layout_body {first last : Text} {others : List Text}
    (oneLine : ∀ line ∈ first :: (others ++ [last]), newline ∉ line) :
    layout (body first others last) = Text.unlines (layoutLines (first :: (others ++ [last]))) := by
  rw [layout, lines_body oneLine]

theorem layoutLines_starred {first : Text} {lines : List Text}
    (flush : ∀ line ∈ lines, trimEnd line = line) (some : ∃ line ∈ lines, line ≠ [])
    (starless : ¬∀ line ∈ lines, line ≠ [] → ['*'] <+: trimStart line) :
    layoutLines (first :: (lines.map starred ++ [[' ']])) =
      layoutLines (first :: (lines ++ [[]])) := by
  have plain : undecorate (lines ++ [[]]) = lines ++ [[]] := by
    simp only [not_forall] at starless
    rcases starless with ⟨line, member, full, bare⟩
    exact undecorate_of_mem (List.mem_append_left _ member)
      (saysSomething_of_starless (flush line member) full bare) (dropStar?_eq_none bare)
  rw [layoutLines_of_undecorate (undecorate_starred flush some rfl) rfl,
    layoutLines_of_undecorate plain rfl]

theorem layoutLines_lone_stars {first : Text} {lines : List Text} (more : lines ≠ [])
    (empty : ∀ line ∈ lines, line = []) :
    layoutLines (first :: (lines.map starred ++ [[' ']])) ≠
      layoutLines (first :: (lines ++ [[]])) := by
  have silent : ∀ line ∈ lines ++ [[]], saysSomething line = false := by
    intro line member
    rcases List.mem_append.mp member with earlier | final
    · rw [empty line earlier]
      rfl
    · rw [List.mem_singleton.mp final]
      rfl
  rcases List.exists_mem_of_ne_nil lines more with ⟨known, member⟩
  have stars : dedent (lines.map starred) = lines.map fun _ => ['*'] := by
    have full : ∀ text ∈ lines.map fun _ => ['*'], text ≠ [] → text.all isIndent = false := by
      intro text star _
      rcases List.mem_map.mp star with ⟨_, _, rfl⟩
      rfl
    have indent : ∀ c ∈ [' '], isIndent c = true := List.forall_mem_singleton.mpr rfl
    refine Text.dedent_of_indented indent ?_ full (List.mem_map_of_mem member)
      (List.cons_ne_nil _ _) rfl
    rw [List.forall₂_map_left_iff, List.forall₂_map_right_iff, List.forall₂_same]
    intro line inside
    rw [empty line inside]
    exact .inl rfl
  rw [layoutLines_of_undecorate (undecorate_lone_stars empty rfl) rfl,
    layoutLines_of_undecorate (undecorate_of_silent silent) rfl, stars]
  intro same
  -- The star of the one text would be a line of the other, which are all empty.
  have kept : ['*'] ∈ (dedent lines).map trimEnd := by
    rw [← List.append_cancel_right (List.tail_eq_of_cons_eq same), List.map_map]
    exact List.mem_map_of_mem member
  rcases Text.dedent_eq_map lines with ⟨cut, flush, behind⟩
  rw [flush, List.map_map] at kept
  rcases List.mem_map.mp kept with ⟨line, inside, ends⟩
  have nothing : cut line = [] := List.suffix_nil.mp (empty line inside ▸ behind line)
  rw [Function.comp_apply, nothing] at ends
  cases ends

/-! ## Decorated and plain comments -/

/-- Unless all that the lines behind the first say begins with a star of its own, a comment
has the same text with stars in front of these lines as without them exactly if one of them
says something or there are none. -/
theorem decoration_leaves_no_trace {first : Text} {lines : List Text}
    (oneLine : ∀ line ∈ first :: lines, newline ∉ line)
    (flush : ∀ line ∈ lines, trimEnd line = line)
    (inside : ∀ line ∈ first :: lines, ¬Lexeme.closing <:+: line)
    (starless : ¬((∃ line ∈ lines, line ≠ []) ∧
      ∀ line ∈ lines, line ≠ [] → ['*'] <+: trimStart line))
    (path behind : Text) :
    ∃ markers decorated plain later others, Markers.ofList? defaultMarkers = some markers ∧
      scan markers path (written first (lines.map starred) [' '] ++ behind) =
        decorated :: later ∧
      scan markers path (written first lines [] ++ behind) = plain :: others ∧
      (decorated.text = plain.text ↔ lines = [] ∨ ∃ line ∈ lines, line ≠ []) ∧
      (decorated.text = plain.text → decorated.judgedTags = plain.judgedTags) := by
  rw [List.forall_mem_cons] at oneLine inside
  have laid : Laid lines (lines.map starred) := .behindStars
  have starredOneLine : ∀ line ∈ first :: (lines.map starred ++ [[' ']]), newline ∉ line :=
    forall_mem_written (newline ∉ ·) oneLine.1 (laid.newline_not_mem_of_mem oneLine.2) (by decide)
  have starredInside :
      ∀ line ∈ first :: (lines.map starred ++ [[' ']]), ¬Lexeme.closing <:+: line :=
    forall_mem_written (¬Lexeme.closing <:+: ·) inside.1 (laid.not_infix_of_mem inside.2)
      (by decide)
  have plainOneLine : ∀ line ∈ first :: (lines ++ [[]]), newline ∉ line :=
    forall_mem_written (newline ∉ ·) oneLine.1 oneLine.2 (by decide)
  have plainInside : ∀ line ∈ first :: (lines ++ [[]]), ¬Lexeme.closing <:+: line :=
    forall_mem_written (¬Lexeme.closing <:+: ·) inside.1 inside.2 (by decide)
  rcases Markers.exists_ofList? (List.cons_ne_nil _ _ : defaultMarkers ≠ []) with ⟨markers, made⟩
  rcases scan_written starredOneLine made starredInside path behind with ⟨later, _, decorated⟩
  rcases scan_written plainOneLine made plainInside path behind with ⟨others, _, plain⟩
  refine ⟨markers, _, _, later, others, made, decorated, plain, ?_, ?_⟩
  · constructor
    · intro same
      by_contra silent
      push Not at silent
      have sameLines := congrArg Text.lines same
      rw [lines_layout, lines_layout, lines_body starredOneLine, lines_body plainOneLine]
        at sameLines
      exact layoutLines_lone_stars silent.1 silent.2 sameLines
    · rintro (rfl | some)
      · simp only [layout_body starredOneLine, layout_body plainOneLine]
        rfl
      · simp only [layout_body starredOneLine, layout_body plainOneLine]
        rw [layoutLines_starred flush some fun all => starless ⟨some, all⟩]
  · intro same
    simp only at same
    simp only [judgedTags, same]

/-- One of the lines may well begin with a star of its own, or be empty. -/
theorem decoration_leaves_no_trace_around_item :
    let first : Text := " \\class A"
    let lines : List Text := ["\\brief Two items:", [], "* one", "  * two"]
    let withStars : Text :=
      "/*! \\class A\n * \\brief Two items:\n *\n * * one\n *   * two\n */ class A;"
    let withoutStars : Text := "/*! \\class A\n\\brief Two items:\n\n* one\n  * two\n*/ class A;"
    (∀ line ∈ first :: lines, newline ∉ line) ∧ (∀ line ∈ lines, trimEnd line = line) ∧
      (∀ line ∈ first :: lines, ¬Lexeme.closing <:+: line) ∧
      ¬((∃ line ∈ lines, line ≠ []) ∧
        ∀ line ∈ lines, line ≠ [] → ['*'] <+: trimStart line) ∧
      ∃ markers decorated plain later others, Markers.ofList? defaultMarkers = some markers ∧
        scan markers "a.h" withStars = decorated :: later ∧
        scan markers "a.h" withoutStars = plain :: others ∧
        decorated.text = plain.text ∧ decorated.judgedTags = plain.judgedTags := by
  intro first lines withStars withoutStars
  have oneLine : ∀ line ∈ first :: lines, newline ∉ line := by decide
  have flush : ∀ line ∈ lines, trimEnd line = line := by decide
  have inside : ∀ line ∈ first :: lines, ¬Lexeme.closing <:+: line := by decide
  have starless : ¬((∃ line ∈ lines, line ≠ []) ∧
      ∀ line ∈ lines, line ≠ [] → ['*'] <+: trimStart line) := by decide
  have stars : written first (lines.map starred) [' '] ++ " class A;".toList = withStars := by
    decide +kernel
  have noStars : written first lines [] ++ " class A;".toList = withoutStars := by decide +kernel
  rcases decoration_leaves_no_trace oneLine flush inside starless "a.h" " class A;" with
    ⟨markers, decorated, plain, later, others, made, found, foundPlain, text, tags⟩
  rw [stars] at found
  rw [noStars] at foundPlain
  have same : decorated.text = plain.text := text.mpr (by decide)
  exact ⟨oneLine, flush, inside, starless, markers, decorated, plain, later, others, made, found,
    foundPlain, same, tags same⟩

/-- Nothing is said behind the one star here, and it is taken for prose. -/
theorem lone_star_leaves_trace :
    let lines : List Text := [[]]
    let decorated : Comment := ⟨⟨"a.h", 1, 3⟩, "\n*\n", none, true, 0⟩
    let plain : Comment := ⟨⟨"a.h", 1, 3⟩, "\n\n", none, true, 0⟩
    (∀ line ∈ [] :: lines, newline ∉ line) ∧ (∀ line ∈ lines, trimEnd line = line) ∧
      (∀ line ∈ [] :: lines, ¬Lexeme.closing <:+: line) ∧
      ¬((∃ line ∈ lines, line ≠ []) ∧
        ∀ line ∈ lines, line ≠ [] → ['*'] <+: trimStart line) ∧
      ∃ markers, Markers.ofList? defaultMarkers = some markers ∧
        scan markers "a.h" (written [] (lines.map starred) [' ']) = [decorated] ∧
        scan markers "a.h" (written [] lines []) = [plain] ∧
        decorated.text ≠ plain.text ∧ decorated.judgedTags ≠ plain.judgedTags := by
  intro lines decorated plain
  refine ⟨by decide, by decide, by decide, by decide, ⟨defaultMarkers, by decide⟩,
    Markers.ofList?_of_pairwise _ (by decide), ?_, ?_, by decide, ?_⟩
  · decide +kernel
  · decide +kernel
  · decide +kernel

end Comment

end DocAtlas
