import DocAtlas.Proofs.Comment.Layout
import DocAtlas.Proofs.Comment.Offset
import DocAtlas.Proofs.Tag.Attribution
import DocAtlas.Proofs.Tag.Faults

/-!
# Lines of tags

A comment's lines are numbered as the lines of its file are, since laying it out moves no
line. So the line of a tag is one that the comment takes up, and there its command, or the
prose that it begins with, can be read in the file.
-/

namespace DocAtlas

open Text (newline trim)

theorem Vocabulary.kind_ne_prose (name : Text) : (spec name).kind ≠ .prose := by
  have all : ∀ row ∈ unknown :: commands.map (·.2), row.kind ≠ .prose := by decide
  exact all _ (spec_mem name)

namespace NumberedLine

theorem mem_ofTexts {first : Nat} {texts : List Text} {line : NumberedLine} :
    line ∈ ofTexts first texts ↔
      ∃ index, texts[index]? = some line.text ∧ line.number = first + index := by
  induction texts generalizing first with
  | nil => simp [ofTexts]
  | cons text rest induction =>
    rw [ofTexts, List.mem_cons, induction]
    constructor
    · rintro (rfl | ⟨index, found, place⟩)
      · exact ⟨0, rfl, rfl⟩
      · exact ⟨index + 1, found, by omega⟩
    · rintro ⟨index, found, place⟩
      cases index with
      | zero =>
        cases found
        exact .inl (by cases line; simp_all)
      | succ index => exact .inr ⟨index, found, by omega⟩

end NumberedLine

/-! ## Lines of passages -/

theorem OpensTag.isInfix {line name argument : Text} (opens : OpensTag line name argument) :
    '\\' :: name <:+: line := by
  rcases opens.command.split with ⟨rest, begins, _⟩
  have start : '\\' :: name <+: trim line := ⟨rest, begins.symm⟩
  exact start.isInfix.trans (Text.trim_isInfix line)

namespace Passage

variable {file : Text} {passage : Passage} {tag : Tag}

theorem first_not_blank (wellFormed : passage.WellFormed) (made : passage.tag? file = some tag) :
    trim passage.first.text ≠ [] := by
  cases passage with
  | gap line => cases made
  | prose first rest =>
    have prose := (List.forall_mem_cons.mp wellFormed).1
    exact mt NumberedLine.isBlank_iff.mpr (NumberedLine.isProse_iff.mp prose).2
  | command line name argument body =>
    rcases wellFormed.1.command.split with ⟨rest, begins, _⟩
    simp [first, begins]
  | code line name argument body closing =>
    rcases wellFormed.1.command.split with ⟨rest, begins, _⟩
    simp [first, begins]

theorem marker_isInfix (wellFormed : passage.WellFormed) (made : passage.tag? file = some tag)
    (named : tag.marker ≠ []) : '\\' :: tag.marker <:+: passage.first.text := by
  cases passage with
  | gap line => cases made
  | prose first rest =>
    cases made
    exact absurd rfl named
  | command line name argument body =>
    cases made
    exact wellFormed.1.isInfix
  | code line name argument body closing =>
    cases made
    exact wellFormed.1.isInfix

theorem eq_prose_of_kind (made : passage.tag? file = some tag) (kind : tag.kind = .prose) :
    ∃ first rest, passage = prose first rest := by
  cases passage with
  | gap line => cases made
  | prose first rest => exact ⟨first, rest, rfl⟩
  | command line name argument body =>
    cases made
    exact absurd kind (Vocabulary.kind_ne_prose name)
  | code line name argument body closing =>
    cases made
    exact absurd kind (Vocabulary.kind_ne_prose name)

end Passage

/-! ## Lines of comments -/

namespace Comment

variable {given : List Text} {markers : Markers} {path source : Text} {comment : Comment}

/-- The text of a comment is laid out from a part of its file that begins on its first line,
and that ends on its last but for a newline at the end of the file. -/
theorem exists_body_of_mem_scan (made : Markers.ofList? given = some markers)
    (oneLine : ∀ marker ∈ given, newline ∉ marker) (member : comment ∈ scan markers path source) :
    ∃ before body after, source = before ++ (body ++ after) ∧ comment.text = layout body ∧
      comment.span.startLine = 1 + newlines before ∧
      comment.span.startLine + newlines body.dropLast ≤ comment.span.endLine := by
  rcases List.append_of_mem member with ⟨earlier, later, found⟩
  rcases scanFrom_split found with ⟨before, lexeme, after, whole, read, standing, _⟩
  cases lexeme with
  | documentation marker body terminated =>
    have listed : marker ∈ given := by
      cases (Lexeme.next?_eq_some made).mp read with
      | documentation opens _ => exact opens.listed
      | openDocumentation opens _ => exact opens.listed
      | ordinary _ reads _ => cases reads
    have noNewline : newlines marker = 0 := List.count_eq_zero.mpr (oneLine marker listed)
    simp only [ofLexeme?, Option.some.injEq] at standing
    subst standing
    refine ⟨before ++ marker, body, (if terminated then Lexeme.closing else []) ++ after, ?_, rfl,
      ?_, ?_⟩
    · simpa only [Lexeme.text, List.append_assoc] using whole
    · simp only [newlines_append, noNewline, Nat.add_zero]
    · have inside : body.Sublist (Lexeme.documentation marker body terminated).text :=
        (List.sublist_append_right marker body).trans (List.sublist_append_left _ _)
      exact Nat.add_le_add_left ((dropLast_sublist_dropLast inside).count_le newline) _
  | lineComment => simp [ofLexeme?] at standing
  | blockComment => simp [ofLexeme?] at standing
  | literal => simp [ofLexeme?] at standing
  | character => simp [ofLexeme?] at standing

/-- Each line of a comment is a part of the line of its file with the same number. -/
theorem exists_source_line (made : Markers.ofList? given = some markers)
    (oneLine : ∀ marker ∈ given, newline ∉ marker) (member : comment ∈ scan markers path source)
    {line : NumberedLine} (inside : line ∈ comment.numberedLines) :
    comment.span.startLine ≤ line.number ∧
      (line.text ≠ [] → line.number ≤ comment.span.endLine) ∧
      ∃ whole ∈ NumberedLine.ofTexts 1 (Text.lines source), whole.number = line.number ∧
        line.text <:+: whole.text := by
  rcases exists_body_of_mem_scan made oneLine member with
    ⟨before, body, after, rfl, laidOut, start, finish⟩
  rcases NumberedLine.mem_ofTexts.mp inside with ⟨index, found, place⟩
  rw [laidOut, lines_layout] at found
  rcases getElem?_of_forall₂ (layoutLines_isInfix _) found with ⟨raw, inBody, within⟩
  rcases Text.exists_parts_of_getElem?_lines inBody with ⟨front, rest, parts, above⟩
  have noNewline : newline ∉ raw :=
    Text.newline_not_mem_of_mem_lines (List.mem_of_getElem? inBody)
  rcases Text.exists_line_of_part (before ++ front) noNewline (rest ++ after) with
    ⟨whole, inSource, around⟩
  have number : line.number = 1 + (newlines before + index) := by omega
  refine ⟨by omega, ?_, ⟨line.number, whole⟩, ?_, rfl, within.trans around⟩
  · intro full
    have visible : raw ≠ [] := by
      rintro rfl
      exact full (List.infix_nil.mp within)
    have bound : index ≤ newlines body.dropLast := Text.index_le_of_getElem?_lines inBody visible
    omega
  · apply NumberedLine.mem_ofTexts.mpr
    refine ⟨newlines before + index, ?_, number⟩
    rw [← above, newlines, ← List.count_append, parts]
    simpa only [List.append_assoc] using inSource

/-- Every tag of a comment is on a line that the comment takes up. That line of the file
holds the tag's command or, if it is prose, what its paragraph begins with. -/
theorem tags_stand_on_their_lines (made : Markers.ofList? given = some markers)
    (oneLine : ∀ marker ∈ given, newline ∉ marker) (path source : Text) :
    ∀ comment ∈ scan markers path source, ∀ tag ∈ comment.parse.tags,
      comment.span.startLine ≤ tag.line ∧ tag.line ≤ comment.span.endLine ∧
      ∃ line ∈ NumberedLine.ofTexts 1 (Text.lines source), line.number = tag.line ∧
        (tag.marker ≠ [] → '\\' :: tag.marker <:+: line.text) ∧
        (tag.kind = .prose → ∃ first rest,
          .prose first rest ∈ Passage.ofLines comment.numberedLines ∧
          (Passage.prose first rest).tag? comment.span.file = some tag ∧
          first.content ≠ [] ∧ first.content <:+: line.text) := by
  intro comment member tag inComment
  rw [tags_parse] at inComment
  rcases List.mem_filterMap.mp inComment with ⟨passage, inPassages, tagged⟩
  have wellFormed := Passage.wellFormed_of_mem inPassages
  have firstInside : passage.first ∈ comment.numberedLines :=
    (Passage.firsts_sublist _).subset (List.mem_map_of_mem inPassages)
  rcases exists_source_line made oneLine member firstInside with ⟨start, finish, line, inSource,
    number, within⟩
  have notBlank := Passage.first_not_blank wellFormed tagged
  have full : passage.first.text ≠ [] := by
    intro empty
    rw [empty] at notBlank
    exact notBlank rfl
  rw [Passage.line_of_tag? tagged]
  refine ⟨start, finish full, line, inSource, number, ?_, ?_⟩
  · exact fun named => (Passage.marker_isInfix wellFormed tagged named).trans within
  · intro kind
    rcases Passage.eq_prose_of_kind tagged kind with ⟨first, rest, rfl⟩
    exact ⟨first, rest, inPassages, tagged, notBlank, (Text.trim_isInfix first.text).trans within⟩

/-- The tags of a decorated comment that is still open where its file ends. -/
theorem tags_stand_on_their_lines_at_end :
    let given : List Text := ["/*!"]
    let source : Text := "int x;\n/*!\n * Some prose.\n * \\since 4.2\n"
    let comment : Comment := ⟨⟨"a.h", 2, 4⟩, "\nSome prose.\n\\since 4.2\n", none, false, 7⟩
    ∃ markers, Markers.ofList? given = some markers ∧ (∀ marker ∈ given, newline ∉ marker) ∧
      comment ∈ scan markers "a.h" source ∧
      comment.parse.tags.map (fun tag => (tag.kind, tag.line)) = [(.prose, 3), (.since, 4)] ∧
      ∀ tag ∈ comment.parse.tags, 2 ≤ tag.line ∧ tag.line ≤ 4 ∧
        ∃ line ∈ NumberedLine.ofTexts 1 (Text.lines source), line.number = tag.line ∧
          (tag.marker ≠ [] → '\\' :: tag.marker <:+: line.text) ∧
          (tag.kind = .prose → ∃ first rest,
            .prose first rest ∈ Passage.ofLines comment.numberedLines ∧
            (Passage.prose first rest).tag? "a.h" = some tag ∧
            first.content ≠ [] ∧ first.content <:+: line.text) := by
  intro given source comment
  have made : Markers.ofList? given = some ⟨given, by decide⟩ :=
    Markers.ofList?_of_pairwise _ (by decide)
  have oneLine : ∀ marker ∈ given, newline ∉ marker := by decide
  have member : comment ∈ scan ⟨given, by decide⟩ "a.h" source := by decide +kernel
  exact ⟨_, made, oneLine, member, by decide +kernel,
    tags_stand_on_their_lines made oneLine "a.h" source comment member⟩

end Comment

end DocAtlas
