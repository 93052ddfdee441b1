import DocAtlas.Proofs.Comment.LineEnd
import DocAtlas.Proofs.Tag.Attribution
import DocAtlas.Proofs.Tag.Code

/-!
# Indented lines

How far the lines behind the first line of a comment are indented makes no difference to its
tags: outside code lines are trimmed, and code loses what its lines have in common. Main
statement: so a comment has the same tags whether its lines end in a newline alone or in a
carriage return and a newline, although its text may be indented otherwise.
-/

namespace DocAtlas

open Text (newline isIndent trim trimStart trimEnd dedent IndentedBy)

variable {indent : Text} (blank : ∀ c ∈ indent, isIndent c = true)

include blank in
theorem Text.IndentedBy.trim_eq {line written : Text} (indented : IndentedBy indent line written) :
    trim written = trim line := by
  rcases indented with rfl | ⟨rfl, rfl⟩
  · rw [trim, trim, trimStart_indent_append blank]
  · rfl

/-! ## Indented code -/

namespace PendingTag

include blank in
theorem codeText_indented {lines written : List Text}
    (indented : List.Forall₂ (IndentedBy indent) lines written)
    (flush : ∀ line ∈ lines, trimEnd line = line) : codeText written = codeText lines := by
  have full : ∀ line ∈ lines, line ≠ [] → line.all isIndent = false :=
    fun line member => Comment.all_isIndent_eq_false (flush line member)
  rw [codeText, codeText, Text.dedent_indented blank indented full]

variable {tag : PendingTag} (verbatim : tag.spec.body = .verbatim) {lines written : List Text}
  (same : codeText written = codeText lines)

include verbatim same

theorem segments_of_codeText :
    segments { tag with body := written } = segments { tag with body := lines } := by
  have extent (body : List Text) : ({ tag with body := body } : PendingTag).spec.body = .verbatim :=
    verbatim
  simp only [segments, extent, same]

theorem tag_of_codeText (file : Text) :
    PendingTag.tag file { tag with body := written } =
      PendingTag.tag file { tag with body := lines } := by
  rw [PendingTag.tag, segments_of_codeText verbatim same]
  rfl

theorem judged_of_codeText (file : Text) :
    judged file { tag with body := written } = judged file { tag with body := lines } := by
  rw [judged, tag_of_codeText verbatim same, fault?, segments_of_codeText verbatim same]
  rfl

end PendingTag

/-! ## Indented comments -/

namespace OpenPart

/-- Two open parts that differ at most in how far code is indented. -/
inductive Shifted (indent : Text) : OpenPart → OpenPart → Prop
  | outside {part : OpenPart} : part.OutsideCode → Shifted indent part part
  | code {tag : PendingTag} {lines written : List Text} : tag.spec.body = .verbatim →
      List.Forall₂ (IndentedBy indent) lines written → (∀ line ∈ lines, trimEnd line = line) →
      Shifted indent (pending { tag with body := lines }) (pending { tag with body := written })

variable {file : Text} {part other : OpenPart}

theorem takeLine_indented {raw written : Text} (same : trim written = trim raw) (number : Nat) :
    part.takeLine file number written = part.takeLine file number raw := by
  rw [takeLine, takeLine, opensTag?, opensTag?, same]

theorem shifted_takeLine (indent : Text) (outside : part.OutsideCode) (file : Text) (number : Nat)
    (raw : Text) :
    Shifted indent (part.takeLine file number raw).2 (part.takeLine file number raw).2 := by
  rcases takeLine_leaves outside file number raw with outside | ⟨name, argument, verbatim, opened⟩
  · exact .outside outside
  · have code : (⟨name, number, argument, []⟩ : PendingTag).spec.body = .verbatim := verbatim
    rw [opened]
    exact .code code .nil (List.forall_mem_nil _)

include blank

/-- A line and the same line behind an indentation complete the same tags, and leave open what
differs at most in how far code is indented. -/
theorem Shifted.feed (shifted : Shifted indent part other) (file : Text) {raw written : Text}
    (indented : IndentedBy indent raw written) (flush : trimEnd raw = raw) (number : Nat) :
    (other.feed file number written).1 = (part.feed file number raw).1 ∧
      Shifted indent (part.feed file number raw).2 (other.feed file number written).2 := by
  have same : trim written = trim raw := indented.trim_eq blank
  cases shifted with
  | outside outside =>
    rw [feed_eq_takeLine outside, feed_eq_takeLine outside, takeLine_indented same]
    exact ⟨rfl, shifted_takeLine indent outside file number raw⟩
  | @code tag lines others verbatim shifted flushLines =>
    have extent (body : List Text) :
        ({ tag with body := body } : PendingTag).spec.body = .verbatim := verbatim
    rw [OpenPart.feed, OpenPart.feed, if_pos (extent others), if_pos (extent lines), same]
    -- Both lines trim to the same text, so both close the code or neither does.
    by_cases closes : trim raw = '\\' :: Vocabulary.codeEnd
    · rw [if_pos closes, if_pos closes]
      have code := PendingTag.codeText_indented blank shifted flushLines
      refine ⟨?_, .outside trivial⟩
      rw [PendingTag.judged_of_codeText verbatim code]
    · rw [if_neg closes, if_neg closes]
      refine ⟨rfl, .code verbatim (List.rel_append shifted (.cons indented .nil)) ?_⟩
      exact List.forall_mem_append.mpr ⟨flushLines, List.forall_mem_singleton.mpr flush⟩

theorem Shifted.finish (shifted : Shifted indent part other) (file : Text) :
    other.finish file = part.finish file := by
  cases shifted with
  | outside outside => rfl
  | @code tag lines others verbatim shifted flushLines =>
    have extent (body : List Text) :
        ({ tag with body := body } : PendingTag).spec.body = .verbatim := verbatim
    have code := PendingTag.codeText_indented blank shifted flushLines
    rw [OpenPart.finish, OpenPart.finish, if_pos (extent others), if_pos (extent lines),
      PendingTag.tag_of_codeText verbatim code]

theorem Shifted.run (shifted : Shifted indent part other) {lines written : List Text}
    (indented : List.Forall₂ (IndentedBy indent) lines written)
    (flush : ∀ line ∈ lines, trimEnd line = line) (file : Text) (number : Nat) :
    OpenPart.run file other number written = OpenPart.run file part number lines := by
  induction indented generalizing part other number with
  | nil => exact shifted.finish blank file
  | cons first _ induction =>
    rw [List.forall_mem_cons] at flush
    rcases shifted.feed blank file first flush.1 number with ⟨completed, left⟩
    rw [OpenPart.run, OpenPart.run, completed, induction left flush.2]

end OpenPart

namespace Comment

theorem judgedTags_indented (comment : Comment) {text first : Text} {lines written : List Text}
    (shown : Text.lines comment.text = first :: lines)
    (shownIndented : Text.lines text = first :: written)
    (blank : ∀ c ∈ indent, isIndent c = true)
    (indented : List.Forall₂ (IndentedBy indent) lines written)
    (flush : ∀ line ∈ lines, trimEnd line = line) :
    judgedTags { comment with text := text } = comment.judgedTags := by
  have start : OpenPart.nothing.OutsideCode := trivial
  have shifted := OpenPart.shifted_takeLine indent start comment.span.file comment.span.startLine
    first
  rw [← OpenPart.feed_eq_takeLine start] at shifted
  rw [judgedTags, judgedTags, shown, shownIndented, OpenPart.run, OpenPart.run,
    shifted.run blank indented flush]

theorem newlines_withReturns (body : Text) : newlines (Text.withReturns body) = newlines body := by
  have pairs := (Text.lines_withReturns body).length_eq
  rw [Text.length_lines, Text.length_lines] at pairs
  exact (Nat.succ.inj pairs).symm

/-- A comment with carriage returns in front of its newlines is the same comment but for its
text, and it has the same tags with the same faults. -/
theorem line_ends_leave_no_trace {body : Text} (inside : ¬Lexeme.closing <:+: body)
    (path : Text) :
    ∃ markers comment returned, Markers.ofList? defaultMarkers = some markers ∧
      scan markers path (enclosed body) = [comment] ∧
      scan markers path (enclosed (Text.withReturns body)) = [returned] ∧
      returned = { comment with text := returned.text } ∧
      returned.parse.tags = comment.parse.tags ∧
      returned.parse.diagnostics = comment.parse.diagnostics := by
  have stillInside : ¬Lexeme.closing <:+: Text.withReturns body :=
    fun found => inside (Text.closing_of_withReturns found)
  rcases Markers.exists_ofList? (List.cons_ne_nil _ _ : defaultMarkers ≠ []) with ⟨markers, made⟩
  rcases scan_enclosed made inside path [] with ⟨later, alone, found⟩
  rcases scan_enclosed made stillInside path [] with ⟨others, alsoAlone, foundReturned⟩
  rw [alone rfl, List.append_nil] at found
  rw [alsoAlone rfl, List.append_nil, newlines_withReturns] at foundReturned
  rcases layoutLines_blanksBehind (Text.lines_withReturns body) (Text.lines_ne_nil body) with
    ⟨indent, first, shown, written, plain, behindBlanks, blank, indented, flush⟩
  rw [← lines_layout] at plain behindBlanks
  let comment : Comment :=
    { span := ⟨Text.slashed path, 1, 1 + newlines body⟩
      text := layout body
      nextCodeLine := nextCodeLine? markers (1 + newlines body) []
      terminated := true
      offset := 0 }
  have judged := judgedTags_indented comment plain behindBlanks blank indented flush
  refine ⟨markers, comment, _, made, found, foundReturned, rfl, ?_⟩
  constructor
  · simp only [ParsedComment.tags, Comment.parse]
    exact congrArg _ judged
  · simp only [ParsedComment.diagnostics, Comment.parse]
    exact congrArg _ judged

/-- An empty line keeps the others from losing their indentation where it ends in a carriage
return. The code shows the same lines, for it loses that indentation on its own. -/
theorem line_ends_leave_no_trace_around_code :
    let body : Text := "\n    \\code\n      a\n\n    b\n    \\endcode\n "
    ¬Lexeme.closing <:+: body ∧
      ∃ markers comment returned, Markers.ofList? defaultMarkers = some markers ∧
        scan markers "a.h" (enclosed body) = [comment] ∧
        scan markers "a.h" (enclosed (Text.withReturns body)) = [returned] ∧
        comment.text = "\n\\code\n  a\n\nb\n\\endcode\n" ∧
        returned.text = "\n    \\code\n      a\n\n    b\n    \\endcode\n" ∧
        comment.parse.tags = [.ofCode "a.h" 2 "  a\n\nb"] ∧
        returned.parse.tags = comment.parse.tags ∧
        returned.parse.diagnostics = comment.parse.diagnostics := by
  intro body
  have inside : ¬Lexeme.closing <:+: body := by decide
  rcases line_ends_leave_no_trace inside "a.h" with
    ⟨markers, comment, returned, made, found, foundReturned, _, tags, diagnostics⟩
  have evaluated : ∀ result ∈ Markers.ofList? defaultMarkers,
      (∀ comment ∈ scan result "a.h" (enclosed body),
        comment.text = "\n\\code\n  a\n\nb\n\\endcode\n" ∧
          comment.parse.tags = [.ofCode "a.h" 2 "  a\n\nb"]) ∧
      ∀ returned ∈ scan result "a.h" (enclosed (Text.withReturns body)),
        returned.text = "\n    \\code\n      a\n\n    b\n    \\endcode\n" := by
    decide +kernel
  have known := evaluated markers made
  rcases known.1 comment (found ▸ List.mem_cons_self) with ⟨text, code⟩
  have textReturned := known.2 returned (foundReturned ▸ List.mem_cons_self)
  exact ⟨inside, markers, comment, returned, made, found, foundReturned, text, textReturned, code,
    tags, diagnostics⟩

end Comment

end DocAtlas
