import DocAtlas.Proofs.Comment.Decoration
import DocAtlas.Tag.Parse

/-!
# Code in a comment

Code is taken as it stands. Main statement: lines of code between the two commands around
them, all behind one indentation or all behind stars, are the one tag of their comment, and
its body shows them without the indentation that they have in common and without the empty
lines around them. What the lines say makes no difference.
-/

namespace DocAtlas

open Text (newline isIndent indentOf trim trimStart trimEnd dedent IndentedBy IsMargin)

namespace Comment

theorem all_isIndent_eq_false {line : Text} (flush : trimEnd line = line) (full : line ≠ []) :
    line.all isIndent = false := by
  rw [Bool.eq_false_iff]
  exact fun blank => Text.trimStart_ne_nil flush full (trimStart_of_indent blank)

/-- Lines come back as they are if one of them begins where the others may begin at the
earliest, and not with a star. -/
theorem layoutLines_laid {first last : Text} {lines others : List Text} (laid : Laid lines others)
    (flush : ∀ line ∈ lines, trimEnd line = line) (blank : last.all isIndent = true)
    {known : Text} (member : known ∈ lines) (full : known ≠ []) (own : indentOf known = [])
    (starless : ¬['*'] <+: trimStart known) :
    layoutLines (first :: (others ++ [last])) = trim first :: (lines ++ [[]]) := by
  have notBlank : ∀ line ∈ lines, line ≠ [] → line.all isIndent = false :=
    fun line member => all_isIndent_eq_false (flush line member)
  have kept : lines.map trimEnd = lines := by
    rw [List.map_congr_left flush, List.map_id']
  cases laid with
  | behindIndent indent indented =>
    have plain : undecorate (others ++ [last]) = others ++ [last] := by
      rcases exists_right_of_forall₂ indented member with ⟨text, inWritten, rfl | ⟨empty, _⟩⟩
      · have sameStart := Text.trimStart_indent_append indent known
        apply undecorate_of_mem (List.mem_append_left _ inWritten)
        · have speaks := saysSomething_of_starless (flush known member) full starless
          rwa [saysSomething, trim, sameStart, ← trim]
        · apply dropStar?_eq_none
          rwa [sameStart]
      · exact absurd empty full
    rw [layoutLines_of_undecorate plain blank, Text.dedent_of_indented indent indented notBlank
      member full own, kept]
  | behindStars =>
    have flushLeft : dedent lines = lines := by
      apply Text.dedent_of_indented (List.forall_mem_nil _) _ notBlank member full own
      exact List.forall₂_same.mpr fun line _ => .inl rfl
    rw [layoutLines_of_undecorate (undecorate_starred flush ⟨known, member, full⟩ blank) blank,
      flushLeft, kept]

end Comment

/-! ## Reading code -/

def fenced (code : List Text) : List Text :=
  "\\code".toList :: (code ++ ["\\endcode".toList])

theorem OpenPart.run_code {file : Text} {tag : PendingTag} (verbatim : tag.spec.body = .verbatim)
    {code : List Text} (stays : ∀ line ∈ code, trim line ≠ '\\' :: Vocabulary.codeEnd)
    (number : Nat) (rest : List Text) :
    run file (pending tag) number (code ++ rest) =
      run file (pending { tag with body := tag.body ++ code }) (number + code.length) rest := by
  induction code generalizing tag number with
  | nil => simp
  | cons line code induction =>
    rw [List.forall_mem_cons] at stays
    have grown := @induction { tag with body := tag.body ++ [line] } verbatim stays.2 (number + 1)
    rw [List.cons_append, run, feed, if_pos verbatim, if_neg stays.1, List.nil_append, grown,
      List.append_assoc, List.singleton_append, List.length_cons, Nat.add_assoc,
      Nat.add_comm 1]

def Tag.ofCode (file : Text) (line : Nat) (shown : Text) : Tag :=
  { kind := .code
    marker := "code"
    file := file
    line := line
    argument := none
    target := none
    targets := []
    body := [.codeBlock shown] }

theorem OpenPart.run_fenced (file : Text) {code : List Text}
    (stays : ∀ line ∈ code, trim line ≠ '\\' :: Vocabulary.codeEnd) :
    run file nothing 1 ([] :: (fenced code ++ [[]])) =
      [⟨.ofCode file 2 (PendingTag.codeText code), none⟩] := by
  have opened : run file nothing 1 ([] :: (fenced code ++ [[]])) =
      run file (pending ⟨"code", 2, [], []⟩) 3 (code ++ ["\\endcode".toList] ++ [[]]) := rfl
  rw [opened, List.append_assoc, run_code rfl stays]
  rfl

/-- What is shown of some lines of code: what stands behind the indentation that all lines
with anything on them have in common, without the empty lines at both ends. -/
def CodeShownAs (code : List Text) (shown : Text) : Prop :=
  ∃ indent short, IsMargin code indent ∧ List.Forall₂ (IndentedBy indent) short code ∧
    shown = Text.unlines (Text.inner short)

theorem codeShownAs_codeText {code : List Text} (oneLine : ∀ line ∈ code, newline ∉ line)
    (flush : ∀ line ∈ code, trimEnd line = line) : CodeShownAs code (PendingTag.codeText code) := by
  have full : ∀ line ∈ code, line ≠ [] → line.all isIndent = false :=
    fun line member => Comment.all_isIndent_eq_false (flush line member)
  refine ⟨Text.margin code, dedent code, Text.isMargin_margin code, Text.indentedBy_dedent full, ?_⟩
  rw [PendingTag.codeText, Text.trimNewlines_unlines]
  rcases Text.dedent_eq_map code with ⟨cut, short, behind⟩
  rw [short, List.forall_mem_map]
  exact fun line member inside => oneLine line member ((behind line).subset inside)

namespace Comment

/-- Lines of code between their two commands are the one tag of a comment, which nothing is
wrong with, and are shown as they are, whatever they say. -/
theorem code_survives {first last : Text} {code others : List Text} (noNewline : newline ∉ first)
    (nothing : ∀ c ∈ first, Text.isBlank c = true) (blank : last.all isIndent = true)
    (oneLine : ∀ line ∈ code, newline ∉ line) (flush : ∀ line ∈ code, trimEnd line = line)
    (inside : ∀ line ∈ code, ¬Lexeme.closing <:+: line)
    (stays : ∀ line ∈ code, trim line ≠ "\\endcode".toList)
    (laid : Laid (fenced code) others)
    (path behind : Text) :
    ∃ markers comment later shown, Markers.ofList? defaultMarkers = some markers ∧
      scan markers path (written first others last ++ behind) = comment :: later ∧
      (behind = [] → later = []) ∧ comment.terminated = true ∧
      comment.judgedTags = [⟨.ofCode (Text.slashed path) 2 shown, none⟩] ∧
      CodeShownAs code shown := by
  have indent : ∀ c ∈ last, isIndent c = true := List.all_eq_true.mp blank
  have ends : '*' ∉ first := fun member => absurd (nothing '*' member) (by decide)
  have writtenOneLine : ∀ line ∈ first :: (others ++ [last]), newline ∉ line := by
    apply forall_mem_written (newline ∉ ·) noNewline _ (newline_not_mem_indent indent)
    exact laid.newline_not_mem_of_mem
      (forall_mem_written (newline ∉ ·) (by decide) oneLine (by decide))
  have writtenInside : ∀ line ∈ first :: (others ++ [last]), ¬Lexeme.closing <:+: line := by
    have emptyInside : ¬Lexeme.closing <:+: [] := by decide
    apply forall_mem_written (¬Lexeme.closing <:+: ·)
      (fun found => ends (found.subset List.mem_cons_self)) _
      (List.append_nil last ▸ not_infix_indent indent emptyInside)
    exact laid.not_infix_of_mem
      (forall_mem_written (¬Lexeme.closing <:+: ·) (by decide) inside (by decide))
  have fencedFlush : ∀ line ∈ fenced code, trimEnd line = line :=
    forall_mem_written (fun line => trimEnd line = line) (by decide) flush (by decide)
  rcases Markers.exists_ofList? (List.cons_ne_nil _ _ : defaultMarkers ≠ []) with ⟨markers, made⟩
  rcases scan_written writtenOneLine made writtenInside path behind with ⟨later, alone, found⟩
  refine ⟨markers, _, later, _, made, found, alone, rfl, ?_, codeShownAs_codeText oneLine flush⟩
  have empty : trim first = [] := by
    rw [trim, trimStart, List.dropWhile_eq_nil_iff.mpr nothing]
    rfl
  simp only [judgedTags]
  rw [lines_layout, lines_body writtenOneLine, layoutLines_laid laid fencedFlush blank
    List.mem_cons_self (List.cons_ne_nil _ _) rfl (by decide), empty]
  exact OpenPart.run_fenced _ stays

/-- Behind stars, code may hold stars, commands and comment markers of its own. -/
theorem code_survives_behind_stars :
    let code : List Text := [[], "    * p = 'x'; /*! \\class A", [], "      \\endcode \\brief", []]
    let shown : Text := "* p = 'x'; /*! \\class A\n\n  \\endcode \\brief"
    (∀ c ∈ [' '], Text.isBlank c = true) ∧ (∀ line ∈ code, newline ∉ line) ∧
      (∀ line ∈ code, trimEnd line = line) ∧ (∀ line ∈ code, ¬Lexeme.closing <:+: line) ∧
      (∀ line ∈ code, trim line ≠ "\\endcode".toList) ∧
      Laid (fenced code) ((fenced code).map starred) ∧
      ∃ markers comment, Markers.ofList? defaultMarkers = some markers ∧
        scan markers "a.h" (written [' '] ((fenced code).map starred) [' ']) = [comment] ∧
        comment.judgedTags = [⟨.ofCode "a.h" 2 shown, none⟩] ∧ CodeShownAs code shown := by
  intro code shown
  have nothing : ∀ c ∈ [' '], Text.isBlank c = true := List.forall_mem_singleton.mpr rfl
  have oneLine : ∀ line ∈ code, newline ∉ line := by decide
  have flush : ∀ line ∈ code, trimEnd line = line := by decide
  have inside : ∀ line ∈ code, ¬Lexeme.closing <:+: line := by decide
  have stays : ∀ line ∈ code, trim line ≠ "\\endcode".toList := by decide
  have laid : Laid (fenced code) ((fenced code).map starred) := .behindStars
  rcases code_survives (by decide) nothing (by decide : [' '].all isIndent = true) oneLine flush
      inside stays laid "a.h" [] with
    ⟨markers, comment, later, text, made, found, alone, _, judged, same⟩
  rw [alone rfl, List.append_nil] at found
  have evaluated : ∀ result ∈ Markers.ofList? defaultMarkers,
      ∀ comment ∈ scan result "a.h" (written [' '] ((fenced code).map starred) [' ']),
        comment.judgedTags = [⟨.ofCode "a.h" 2 shown, none⟩] := by decide +kernel
  have known := evaluated markers made comment (found ▸ List.mem_cons_self)
  have shownText : text = shown := by
    rw [known] at judged
    cases judged
    rfl
  exact ⟨nothing, oneLine, flush, inside, stays, laid, markers, comment, made, found, known,
    shownText ▸ same⟩

end Comment

end DocAtlas
