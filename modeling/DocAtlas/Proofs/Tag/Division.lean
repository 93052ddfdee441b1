import DocAtlas.Proofs.Tag.Attribution
import DocAtlas.Proofs.Tag.Faults
import DocAtlas.Proofs.Text.Lines

/-!
# Comments divided at a blank line

Outside code and headings, a blank line closes whatever is open, just as the end of a
comment does. Main statement: a comment with a blank line at such a place has the tags and
the diagnostics of its two parts, each read as a comment of its own.
-/

namespace DocAtlas

open Text (newline)

namespace OpenPart

def kind? : OpenPart → Option TagKind
  | nothing => none
  | prose _ _ => some .prose
  | pending tag => some tag.spec.kind

def feedAll (file : Text) (part : OpenPart) (line : Nat) : List Text → List JudgedTag × OpenPart
  | [] => ([], part)
  | raw :: rest =>
    let next := part.feed file line raw
    let behind := feedAll file next.2 (line + 1) rest
    (next.1 ++ behind.1, behind.2)

/-- What can be open: nothing without a body, for such a command is complete at once. -/
def HasBody : OpenPart → Prop
  | pending tag => tag.spec.body ≠ .none
  | _ => True

variable {file : Text} {part : OpenPart}

/-! ## What a line leaves open -/

theorem OutsideCode.hasBody (outside : part.OutsideCode) : part.HasBody := by
  cases part with
  | nothing => trivial
  | prose first lines => trivial
  | pending tag => rcases outside with extent | extent <;> simp [HasBody, extent]

theorem OutsideCode.hasBody_takeLine (outside : part.OutsideCode) (file : Text) (line : Nat)
    (raw : Text) : (part.takeLine file line raw).2.HasBody := by
  rcases takeLine_leaves outside file line raw with outside | ⟨name, _, verbatim, same⟩
  · exact outside.hasBody
  · rw [same]
    exact fun bodiless => absurd (verbatim.symm.trans bodiless) (by decide)

theorem HasBody.feed (bodied : part.HasBody) (file : Text) (line : Nat) (raw : Text) :
    (part.feed file line raw).2.HasBody := by
  cases part with
  | nothing =>
    have outside : nothing.OutsideCode := trivial
    exact outside.hasBody_takeLine file line raw
  | prose first lines =>
    have outside : (prose first lines).OutsideCode := trivial
    exact outside.hasBody_takeLine file line raw
  | pending tag =>
    by_cases verbatim : tag.spec.body = .verbatim
    · rw [OpenPart.feed, if_pos verbatim]
      split
      · trivial
      · exact bodied
    · rw [OpenPart.feed, if_neg verbatim]
      exact (outsideCode_pending bodied verbatim).hasBody_takeLine file line raw

theorem HasBody.feedAll (bodied : part.HasBody) (file : Text) (line : Nat) (lines : List Text) :
    (part.feedAll file line lines).2.HasBody := by
  induction lines generalizing part line with
  | nil => exact bodied
  | cons raw rest induction => exact induction (bodied.feed file line raw) (line + 1)

/-! ## Reading on -/

theorem run_append (file : Text) (part : OpenPart) (line : Nat) (lines more : List Text) :
    run file part line (lines ++ more) =
      (part.feedAll file line lines).1 ++
        run file (part.feedAll file line lines).2 (line + lines.length) more := by
  induction lines generalizing part line with
  | nil => rfl
  | cons raw rest induction =>
    rw [List.cons_append, run, induction, List.length_cons, feedAll, List.append_assoc,
      Nat.add_assoc, Nat.add_comm 1]

theorem run_eq_feedAll (file : Text) (part : OpenPart) (line : Nat) (lines : List Text) :
    run file part line lines =
      (part.feedAll file line lines).1 ++ (part.feedAll file line lines).2.finish file := by
  have whole := run_append file part line lines []
  rwa [List.append_nil] at whole

/-- An empty line and the end of a comment close what is open alike, unless it is code or a
heading. -/
theorem feed_empty (bodied : part.HasBody) (noCode : part.kind? ≠ some .code)
    (noHeading : part.kind? ≠ some .heading) (file : Text) (line : Nat) :
    part.feed file line [] = (part.finish file, nothing) := by
  cases part with
  | nothing => rfl
  | prose first lines => rfl
  | pending tag =>
    have paragraph : tag.spec.body = .paragraph := by
      cases extent : tag.spec.body with
      | none => exact absurd extent bodied
      | paragraph => rfl
      | untilNextTag =>
        exact absurd (congrArg some (Vocabulary.kind_of_untilNextTag extent)) noHeading
      | verbatim => exact absurd (congrArg some (Vocabulary.kind_of_verbatim extent)) noCode
    have outside : (pending tag).OutsideCode := .inl paragraph
    rw [feed_eq_takeLine outside, finish_eq_close outside]
    exact if_pos ⟨paragraph, rfl⟩

theorem run_append_empty {line : Nat} {lines : List Text} (bodied : part.HasBody)
    (noCode : (part.feedAll file line lines).2.kind? ≠ some .code)
    (noHeading : (part.feedAll file line lines).2.kind? ≠ some .heading) (more : List Text) :
    run file part line (lines ++ [] :: more) =
      run file part line lines ++ run file nothing (line + lines.length + 1) more := by
  have closed := feed_empty (bodied.feedAll file line lines) noCode noHeading file
    (line + lines.length)
  have next : run file (part.feedAll file line lines).2 (line + lines.length) ([] :: more) =
      (part.feedAll file line lines).2.finish file ++
        run file nothing (line + lines.length + 1) more := by
    rw [run, closed]
  rw [run_append, next, run_eq_feedAll file part line lines, List.append_assoc]

end OpenPart

namespace Comment

def leftOpen (comment : Comment) : OpenPart :=
  (OpenPart.nothing.feedAll comment.span.file comment.span.startLine (Text.lines comment.text)).2

/-- A comment with an empty line, and what is in front of that line and what is behind it, each
as a comment of its own in the same place. -/
structure DividesInto (whole front back : Comment) : Prop where
  text : whole.text = front.text ++ newline :: newline :: back.text
  frontFile : front.span.file = whole.span.file
  backFile : back.span.file = whole.span.file
  frontStart : front.span.startLine = whole.span.startLine
  backStart : back.span.startLine = front.span.startLine + (Text.lines front.text).length + 1

variable {whole front back : Comment}

theorem DividesInto.judgedTags_eq (divides : whole.DividesInto front back)
    (noCode : front.leftOpen.kind? ≠ some .code)
    (noHeading : front.leftOpen.kind? ≠ some .heading) :
    whole.judgedTags = front.judgedTags ++ back.judgedTags := by
  have lines : Text.lines whole.text = Text.lines front.text ++ [] :: Text.lines back.text := by
    rw [divides.text, Text.lines_append_newline, Text.lines_cons, if_pos rfl]
  have bodied : OpenPart.nothing.HasBody := trivial
  rw [judgedTags, judgedTags, judgedTags, lines, divides.backFile, divides.backStart,
    ← divides.frontFile, ← divides.frontStart]
  exact OpenPart.run_append_empty bodied noCode noHeading _

/-- A comment with an empty line has the tags and the diagnostics of what is in front of that
line, followed by those of what is behind, unless the line falls into open code or under a
heading. -/
theorem divides_at_empty_line (divides : whole.DividesInto front back)
    (noCode : front.leftOpen.kind? ≠ some .code)
    (noHeading : front.leftOpen.kind? ≠ some .heading) :
    whole.parse.tags = front.parse.tags ++ back.parse.tags ∧
      whole.parse.diagnostics = front.parse.diagnostics ++ back.parse.diagnostics := by
  have judged : whole.judgedTags = front.judgedTags ++ back.judgedTags :=
    divides.judgedTags_eq noCode noHeading
  constructor
  · simp only [ParsedComment.tags, Comment.parse, judged, List.map_append]
  · simp only [ParsedComment.diagnostics, Comment.parse, judged, List.filterMap_append]

/-- A brief without text is closed by the empty line, and reported in its place between the
faults of the tags around it. -/
theorem divides_at_empty_line_behind_brief :
    let whole : Comment := ⟨⟨"a.h", 3, 8⟩, "\\class\n\\brief\n\n\\since\nMore.", none, true, 0⟩
    let front : Comment := ⟨⟨"a.h", 3, 4⟩, "\\class\n\\brief", none, true, 0⟩
    let back : Comment := ⟨⟨"a.h", 6, 8⟩, "\\since\nMore.", none, true, 0⟩
    whole.DividesInto front back ∧ front.leftOpen = .pending ⟨"brief", 4, [], []⟩ ∧
      whole.parse.tags.map (fun tag => (tag.kind, tag.line)) =
        [(.classTopic, 3), (.brief, 4), (.since, 6), (.prose, 7)] ∧
      whole.parse.diagnostics.map (·.line) = [some 3, some 4, some 6] ∧
      whole.parse.tags = front.parse.tags ++ back.parse.tags ∧
      whole.parse.diagnostics = front.parse.diagnostics ++ back.parse.diagnostics := by
  intro whole front back
  have divides : whole.DividesInto front back := ⟨rfl, rfl, rfl, rfl, rfl⟩
  have brief : front.leftOpen = .pending ⟨"brief", 4, [], []⟩ := by decide +kernel
  have noCode : front.leftOpen.kind? ≠ some .code := by
    rw [brief]
    decide
  have noHeading : front.leftOpen.kind? ≠ some .heading := by
    rw [brief]
    decide
  exact ⟨divides, brief, by decide +kernel, by decide +kernel,
    divides_at_empty_line divides noCode noHeading⟩

end Comment

end DocAtlas
