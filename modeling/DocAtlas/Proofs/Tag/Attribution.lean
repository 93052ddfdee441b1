import DocAtlas.Model.Build
import DocAtlas.Proofs.Segment.Paragraph
import DocAtlas.Proofs.Tag.Passages

/-!
# What each line of a comment comes to

Reading a comment line by line, with one open part that grows, comes to the same as taking
it apart into passages: whatever is open takes lines as long as they reach it, and the
line that stops it is read as if nothing had been open.
-/

namespace DocAtlas

open Text (trim)

def Tag.command? (tag : Tag) : Option (Nat × Text) :=
  if tag.marker = [] then none else some (tag.line, tag.marker)

namespace OpenPart

def takeLines (file : Text) (part : OpenPart) : List NumberedLine → List JudgedTag
  | [] => part.finish file
  | line :: rest =>
    (part.feed file line.number line.text).1 ++
      takeLines file (part.feed file line.number line.text).2 rest

theorem run_eq_takeLines (file : Text) (part : OpenPart) (first : Nat) (texts : List Text) :
    run file part first texts = takeLines file part (NumberedLine.ofTexts first texts) := by
  induction texts generalizing part first with
  | nil => rfl
  | cons text rest induction => rw [run, induction, NumberedLine.ofTexts, takeLines]

def extend (lines : List Text) : OpenPart → OpenPart
  | nothing => nothing
  | prose first before => prose first (before ++ lines)
  | pending tag => pending { tag with body := tag.body ++ lines }

def reached : OpenPart → NumberedLine → Bool
  | nothing, _ => false
  | prose _ _, line => line.isProse
  | pending tag, line => tag.spec.body.reaches line

/-- What can be open outside code. A command without a body is never open. -/
def OutsideCode : OpenPart → Prop
  | pending tag => tag.spec.body = .paragraph ∨ tag.spec.body = .untilNextTag
  | _ => True

variable {file : Text} {part : OpenPart} {line : NumberedLine}

theorem OutsideCode.ne_verbatim {tag : PendingTag} (outside : (pending tag).OutsideCode) :
    tag.spec.body ≠ .verbatim := by
  rcases outside with kind | kind <;> simp [kind]

theorem outsideCode_pending {tag : PendingTag} (opens : tag.spec.body ≠ .none)
    (outside : tag.spec.body ≠ .verbatim) : (pending tag).OutsideCode := by
  cases extent : tag.spec.body with
  | none => exact absurd extent opens
  | paragraph => exact .inl extent
  | untilNextTag => exact .inr extent
  | verbatim => exact absurd extent outside

theorem OutsideCode.extend (outside : part.OutsideCode) (lines : List Text) :
    (part.extend lines).OutsideCode := by
  cases part <;> exact outside

theorem finish_eq_close (outside : part.OutsideCode) : part.finish file = part.close file := by
  cases part with
  | nothing => rfl
  | prose first lines => rfl
  | pending tag => rw [finish, if_neg outside.ne_verbatim, close]

theorem feed_eq_takeLine (outside : part.OutsideCode) (number : Nat) (text : Text) :
    part.feed file number text = part.takeLine file number text := by
  cases part with
  | nothing => rfl
  | prose first lines => rfl
  | pending tag => rw [feed, if_neg outside.ne_verbatim]

theorem ofCommand_leaves (file : Text) (number : Nat) (name argument : Text) :
    (ofCommand file number name argument).2.OutsideCode ∨
      (Vocabulary.spec name).body = .verbatim ∧
        (ofCommand file number name argument).2 = pending ⟨name, number, argument, []⟩ := by
  let opened : PendingTag := ⟨name, number, argument, []⟩
  have opens : ofCommand file number name argument =
      if opened.spec.body = .none then ([opened.judged file], nothing)
      else ([], pending opened) := rfl
  rw [opens]
  by_cases bodiless : opened.spec.body = .none
  · rw [if_pos bodiless]
    exact .inl trivial
  · rw [if_neg bodiless]
    by_cases verbatim : opened.spec.body = .verbatim
    · exact .inr ⟨verbatim, rfl⟩
    · exact .inl (outsideCode_pending bodiless verbatim)

theorem takePlain_leaves (outside : part.OutsideCode) (file : Text) (number : Nat)
    (content : Text) : (part.takePlain file number content).2.OutsideCode := by
  cases part with
  | nothing =>
    simp only [takePlain]
    split <;> trivial
  | prose first lines =>
    simp only [takePlain]
    split <;> trivial
  | pending tag =>
    simp only [takePlain]
    split
    · trivial
    · exact outside

theorem takeLine_leaves (outside : part.OutsideCode) (file : Text) (number : Nat) (text : Text) :
    (part.takeLine file number text).2.OutsideCode ∨
      ∃ name argument, (Vocabulary.spec name).body = .verbatim ∧
        (part.takeLine file number text).2 = pending ⟨name, number, argument, []⟩ := by
  unfold takeLine
  split
  · next name argument _ =>
    exact (ofCommand_leaves file number name argument).imp_right fun opened =>
      ⟨name, argument, opened⟩
  · exact .inl (takePlain_leaves outside file number (trim text))

theorem isPlain_of_reached (outside : part.OutsideCode) (reached : part.reached line = true) :
    line.isPlain = true := by
  cases part with
  | nothing => cases reached
  | prose first lines => exact (NumberedLine.isProse_iff.mp reached).1
  | pending tag => exact Passage.isPlain_of_reaches outside.ne_verbatim reached

theorem feed_reached (outside : part.OutsideCode) (reached : part.reached line = true) :
    part.feed file line.number line.text = ([], part.extend [line.content]) := by
  have opensNone := NumberedLine.isPlain_iff.mp (isPlain_of_reached outside reached)
  rw [feed_eq_takeLine outside, takeLine, opensNone]
  cases part with
  | nothing => cases reached
  | prose first lines =>
    have full := (NumberedLine.isProse_iff.mp reached).2
    exact if_neg fun blank => full (NumberedLine.isBlank_iff.mpr blank)
  | pending tag =>
    apply if_neg
    rintro ⟨paragraph, blank⟩
    change tag.spec.body.reaches line = true at reached
    rw [paragraph] at reached
    exact (NumberedLine.isProse_iff.mp reached).2 (NumberedLine.isBlank_iff.mpr blank)

/-- A line that does not go on with what is open is read as if nothing were open. -/
theorem feed_stopped (outside : part.OutsideCode) (stopped : part.reached line = false) :
    part.feed file line.number line.text =
      (part.close file ++ (nothing.feed file line.number line.text).1,
        (nothing.feed file line.number line.text).2) := by
  have nothingOutside : nothing.OutsideCode := trivial
  rw [feed_eq_takeLine outside, feed_eq_takeLine nothingOutside, takeLine, takeLine]
  cases found : opensTag? line.text with
  | some read => simp [close]
  | none =>
    -- A plain line stops prose or a paragraph only if it is blank, and a heading never.
    have plain := NumberedLine.isPlain_iff.mpr found
    have blank_of_stopped (notProse : line.isProse = false) : trim line.text = [] := by
      apply NumberedLine.isBlank_iff.mp
      by_contra full
      rw [NumberedLine.isProse_iff.mpr ⟨plain, full⟩] at notProse
      cases notProse
    cases part with
    | nothing => simp [close]
    | prose first lines =>
      have blank := blank_of_stopped stopped
      simp [takePlain, blank]
    | pending tag =>
      change tag.spec.body.reaches line = false at stopped
      rcases outside with kind | kind
      · rw [kind] at stopped
        simp [takePlain, kind, blank_of_stopped stopped, close]
      · rw [kind] at stopped
        exact absurd (plain.symm.trans stopped) (by decide)

theorem extend_nil (part : OpenPart) : part.extend [] = part := by
  cases part <;> simp [extend]

theorem extend_extend (part : OpenPart) (before after : List Text) :
    (part.extend before).extend after = part.extend (before ++ after) := by
  cases part <;> simp [extend]

theorem reached_extend (part : OpenPart) (lines : List Text) :
    (part.extend lines).reached = part.reached := by
  cases part <;> rfl

/-- Outside code, what is open takes the lines that reach it, and is then closed. -/
theorem takeLines_eq (outside : part.OutsideCode) (lines : List NumberedLine) :
    takeLines file part lines =
      (part.extend ((lines.takeWhile part.reached).map (·.content))).close file ++
        takeLines file nothing (lines.dropWhile part.reached) := by
  -- The part grows along the lines, but which lines reach it stays the same.
  induction lines generalizing part with
  | nil =>
    rw [takeLines, finish_eq_close outside, List.takeWhile_nil, List.map_nil, extend_nil]
    exact (List.append_nil _).symm
  | cons line rest induction =>
    by_cases goesOn : part.reached line = true
    · rw [takeLines, feed_reached outside goesOn, induction (outside.extend _), reached_extend,
        extend_extend, List.takeWhile_cons_of_pos goesOn, List.dropWhile_cons_of_pos goesOn]
      rfl
    · rw [takeLines, feed_stopped outside (by simpa using goesOn),
        List.takeWhile_cons_of_neg goesOn, List.dropWhile_cons_of_neg goesOn, List.map_nil,
        extend_nil, takeLines, List.append_assoc]

theorem takeLines_code {tag : PendingTag} (verbatim : tag.spec.body = .verbatim)
    (lines : List NumberedLine) :
    let reaches := BodyExtent.verbatim.reaches
    let whole : PendingTag :=
      { tag with body := tag.body ++ (lines.takeWhile reaches).map (·.text) }
    takeLines file (pending tag) lines =
      ⟨whole.tag file,
        if (lines.dropWhile reaches).head? = none then some .notClosed else whole.fault?⟩ ::
        takeLines file nothing (lines.dropWhile reaches).tail := by
  intro reaches
  induction lines generalizing tag with
  | nil => simp [takeLines, finish, verbatim, close]
  | cons line rest induction =>
    rw [takeLines, feed, if_pos verbatim]
    by_cases closes : line.closesCode = true
    · have stops : ¬reaches line = true := by simp [reaches, BodyExtent.reaches, closes]
      rw [if_pos (NumberedLine.closesCode_iff.mp closes), List.takeWhile_cons_of_neg stops,
        List.dropWhile_cons_of_neg stops]
      simp [PendingTag.judged]
    · have goesOn : reaches line = true := by simpa [reaches, BodyExtent.reaches] using closes
      rw [if_neg (mt NumberedLine.closesCode_iff.mpr closes), List.takeWhile_cons_of_pos goesOn,
        List.dropWhile_cons_of_pos goesOn]
      have grown := @induction { tag with body := tag.body ++ [line.text] } verbatim
      simpa using grown

/-! ## Passages -/

theorem feed_command {name argument : Text} (found : opensTag? line.text = some (name, argument)) :
    nothing.feed file line.number line.text =
      if (Vocabulary.spec name).body = .none then
        ([PendingTag.judged file ⟨name, line.number, argument, []⟩], nothing)
      else ([], pending ⟨name, line.number, argument, []⟩) := by
  change takeLine file line.number line.text nothing = _
  rw [takeLine, found]
  rfl

theorem feed_plain (opensNone : opensTag? line.text = none) :
    nothing.feed file line.number line.text =
      ([], if line.isBlank then nothing else prose line.number [line.content]) := by
  change takeLine file line.number line.text nothing = _
  rw [takeLine, opensNone]
  by_cases blank : line.isBlank = true
  · rw [if_pos blank, takePlain, if_pos (NumberedLine.isBlank_iff.mp blank)]
  · rw [if_neg blank, takePlain, if_neg (mt NumberedLine.isBlank_iff.mpr blank)]
    rfl

end OpenPart

namespace Passage

open OpenPart (takeLines)

/-- What is open when all lines of a passage are read, but for one that closes code. -/
def part : Passage → OpenPart
  | gap _ => .nothing
  | prose first rest => .prose first.number ((first :: rest).map (·.content))
  | command line name argument body =>
    .pending ⟨name, line.number, argument, body.map (·.content)⟩
  | code line name argument body _ => .pending ⟨name, line.number, argument, body.map (·.text)⟩

def judged (file : Text) (passage : Passage) : List JudgedTag :=
  match passage with
  | code _ _ _ _ none => passage.part.finish file
  | _ => passage.part.close file

variable {file : Text}

theorem judged_code {line : NumberedLine} {name argument : Text} {body : List NumberedLine}
    {closing : Option NumberedLine} (verbatim : (Vocabulary.spec name).body = .verbatim) :
    let whole : PendingTag := ⟨name, line.number, argument, body.map (·.text)⟩
    (code line name argument body closing).judged file =
      [⟨whole.tag file, if closing = none then some .notClosed else whole.fault?⟩] := by
  intro whole
  cases closing with
  | none => exact if_pos verbatim
  | some last => rfl

/-- Reading the lines of a comment one by one comes to the tags of its passages. -/
theorem takeLines_eq_judged (lines : List NumberedLine) :
    takeLines file .nothing lines = (ofLines lines).flatMap (judged file) := by
  fun_induction ofLines lines with
  | case1 => rfl
  | case2 line rest name argument found reaches verbatim induction =>
    let opened : PendingTag := ⟨name, line.number, argument, []⟩
    have isCode : opened.spec.body = .verbatim := verbatim
    have opens : (Vocabulary.spec name).body ≠ .none := by simp [verbatim]
    rw [takeLines, OpenPart.feed_command found, if_neg opens, OpenPart.takeLines_code isCode,
      List.flatMap_cons, judged_code verbatim, ← induction]
    simp [reaches, verbatim, opened]
  | case3 line rest name argument found reaches outside induction =>
    rw [takeLines, OpenPart.feed_command found, List.flatMap_cons, ← induction]
    by_cases bodiless : (Vocabulary.spec name).body = .none
    · -- The tag is complete at once, and no line reaches it.
      have unreached : reaches = fun _ => false := by
        funext next
        simp [reaches, bodiless, BodyExtent.reaches]
      have taken : rest.takeWhile reaches = [] := by cases rest <;> simp [unreached]
      have left : rest.dropWhile reaches = rest := by cases rest <;> simp [unreached]
      rw [if_pos bodiless, taken, left]
      rfl
    · let opened : PendingTag := ⟨name, line.number, argument, []⟩
      have outsideCode : (OpenPart.pending opened).OutsideCode :=
        OpenPart.outsideCode_pending bodiless outside
      rw [if_neg bodiless, OpenPart.takeLines_eq outsideCode]
      rfl
  | case4 line rest opensNone blank induction =>
    rw [takeLines, OpenPart.feed_plain opensNone, if_pos blank, List.flatMap_cons, ← induction]
    rfl
  | case5 line rest opensNone full induction =>
    have outside : (OpenPart.prose line.number [line.content]).OutsideCode := trivial
    rw [takeLines, OpenPart.feed_plain opensNone, if_neg full, OpenPart.takeLines_eq outside,
      List.flatMap_cons, ← induction]
    rfl

theorem trimmed_contents (lines : List NumberedLine) :
    ∀ text ∈ lines.map (·.content), Text.Trimmed text := by
  simp [NumberedLine.content, Text.trimmed_trim]

theorem segments_command {line : NumberedLine} {name argument : Text} {lines : List NumberedLine}
    (wellFormed : (command line name argument lines).WellFormed) :
    PendingTag.segments ⟨name, line.number, argument, lines.map (·.content)⟩ =
      (command line name argument lines).body := by
  rcases wellFormed with ⟨⟨⟨⟨_, _, _, rfl⟩, _⟩, _⟩, outside, reached⟩
  have trimmed := trimmed_contents lines
  rw [PendingTag.segments, body, PendingTag.spec]
  cases extent : (Vocabulary.spec name).body with
  | none => rfl
  | verbatim => exact absurd extent outside
  | untilNextTag =>
    have unchanged : (lines.map (·.content)).map trim = lines.map (·.content) := by
      simp [NumberedLine.content, Text.trim_trim]
    rw [Segment.ofLines_eq_intercalate, paragraphs_eq_splitOnP, unchanged]
    rfl
  | paragraph =>
    have full : ∀ text ∈ lines.map (·.content), text ≠ [] := by
      intro text member
      rcases List.mem_map.mp member with ⟨next, inside, rfl⟩
      have prose := reached next inside
      rw [extent] at prose
      exact mt NumberedLine.isBlank_iff.mpr (NumberedLine.isProse_iff.mp prose).2
    simp only [Text.trim_unwords_cons (Text.trimmed_trim _) trimmed full]

theorem segments_code {line : NumberedLine} {name argument : Text} {lines : List NumberedLine}
    {closing : Option NumberedLine} (verbatim : (Vocabulary.spec name).body = .verbatim) :
    PendingTag.segments ⟨name, line.number, argument, lines.map (·.text)⟩ =
      (code line name argument lines closing).body := by
  simp only [PendingTag.segments, PendingTag.spec, verbatim, body]

theorem tag?_eq_judged {passage : Passage} (wellFormed : passage.WellFormed) :
    (passage.tag? file).toList = (passage.judged file).map (·.tag) := by
  cases passage with
  | gap line => rfl
  | prose first rest => rfl
  | command line name argument body =>
    change _ = [PendingTag.tag file _]
    rw [PendingTag.tag, segments_command wellFormed]
    rfl
  | code line name argument body closing =>
    rcases wellFormed with ⟨_, verbatim, _⟩
    rw [judged_code verbatim, List.map_singleton, PendingTag.tag, segments_code verbatim]
    rfl

theorem line_of_tag? {passage : Passage} {tag : Tag} (made : passage.tag? file = some tag) :
    tag.line = passage.first.number := by
  cases passage with
  | gap line => cases made
  | prose | command | code =>
    cases made
    rfl

theorem command?_of_tag? {passage : Passage} (wellFormed : passage.WellFormed) :
    (passage.tag? file).bind Tag.command? = passage.command? := by
  cases passage with
  | gap | prose => rfl
  | command line name argument body =>
    rcases wellFormed with ⟨⟨⟨_, letter, others, rfl, _⟩, _⟩, _⟩
    rfl
  | code line name argument body closing =>
    rcases wellFormed with ⟨⟨⟨_, letter, others, rfl, _⟩, _⟩, _⟩
    rfl

end Passage

namespace ParsedComment

theorem mem_diagnostics {parsed : ParsedComment} {diagnostic : Diagnostic}
    (member : diagnostic ∈ parsed.diagnostics) :
    diagnostic.kind = .malformedTagArgument ∧ ∃ tag ∈ parsed.tags, diagnostic.tags = [tag] := by
  rcases List.mem_filterMap.mp member with ⟨judged, inside, reported⟩
  rcases Option.map_eq_some_iff.mp reported with ⟨fault, _, rfl⟩
  exact ⟨rfl, judged.tag, List.mem_map_of_mem inside, rfl⟩

theorem diagnostics_tags_sublist (parsed : ParsedComment) :
    (parsed.diagnostics.flatMap (·.tags)).Sublist parsed.tags := by
  rw [diagnostics, tags]
  induction parsed.judged with
  | nil => exact .slnil
  | cons judged rest induction =>
    cases fault : judged.fault with
    | none => simpa [fault] using induction.cons judged.tag
    | some fault => simpa [*, TagFault.diagnostic] using induction.cons_cons judged.tag

end ParsedComment

namespace Comment

def numberedLines (comment : Comment) : List NumberedLine :=
  NumberedLine.ofTexts comment.span.startLine (Text.lines comment.text)

theorem judgedTags_eq (comment : Comment) :
    comment.judgedTags =
      (Passage.ofLines comment.numberedLines).flatMap (Passage.judged comment.span.file) := by
  rw [judgedTags, OpenPart.run_eq_takeLines, Passage.takeLines_eq_judged]
  rfl

theorem tags_parse (comment : Comment) :
    comment.parse.tags =
      (Passage.ofLines comment.numberedLines).filterMap (·.tag? comment.span.file) := by
  rw [ParsedComment.tags, Comment.parse, judgedTags_eq, List.map_flatMap,
    List.filterMap_eq_flatMap_toList]
  apply List.flatMap_congr
  intro passage member
  exact (Passage.tag?_eq_judged (Passage.wellFormed_of_mem member)).symm

theorem tags_increasing (comment : Comment) : comment.parse.tags.Pairwise (·.line < ·.line) := by
  have lines : comment.numberedLines.Pairwise (·.number < ·.number) :=
    (Passage.ofTexts_increasing _ _).1
  have firsts := lines.sublist (Passage.firsts_sublist _)
  rw [List.pairwise_map] at firsts
  rw [tags_parse]
  apply firsts.filterMap
  intro before after less tag made other madeAfter
  rwa [Passage.line_of_tag? made, Passage.line_of_tag? madeAfter]

/-- Every line of a comment is attributed. The tags of commands are the lines outside code
that open one. Each other line that is not blank, unless it closes code, belongs to one tag,
whose body is read from the lines that belong to it. The tags stand in the order of their
lines, and each is reported once at most. -/
theorem parse_attributes_lines (comment : Comment) :
    let lines := comment.numberedLines
    let passages := Passage.ofLines lines
    let parsed := comment.parse
    (∀ line ∈ lines, ∀ name argument,
        opensTag? line.text = some (name, argument) ↔ OpensTag line.text name argument) ∧
      (∀ passage ∈ passages, passage.WellFormed) ∧
      passages.flatMap Passage.lines = lines ∧
      parsed.tags = passages.filterMap (·.tag? comment.span.file) ∧
      parsed.tags.filterMap Tag.command? = LineRole.commands lines ∧
      ((passages.flatMap (·.attribution comment.span.file)).map (·.1)).filter (!·.isBlank) =
        (LineRole.contents lines).filter (!·.isBlank) ∧
      parsed.tags.Pairwise (·.line < ·.line) ∧
      (∀ diagnostic ∈ parsed.diagnostics, diagnostic.kind = .malformedTagArgument ∧
        ∃ tag ∈ parsed.tags, diagnostic.tags = [tag]) ∧
      (parsed.diagnostics.flatMap (·.tags)).Nodup := by
  intro lines passages parsed
  have wellFormed : ∀ passage ∈ passages, passage.WellFormed :=
    fun passage member => Passage.wellFormed_of_mem member
  have tags : parsed.tags = passages.filterMap (·.tag? comment.span.file) := tags_parse comment
  have increasing : parsed.tags.Pairwise (·.line < ·.line) := tags_increasing comment
  refine ⟨fun line _ name argument => opensTag?_eq_some, wellFormed, Passage.flatMap_lines lines,
    tags, ?_, ?_, increasing, ?_, ?_⟩
  · rw [tags, List.filterMap_filterMap, Passage.commands_eq]
    apply List.filterMap_congr
    intro passage member
    exact Passage.command?_of_tag? (wellFormed passage member)
  · rw [Passage.contents_eq, List.map_flatMap, List.filter_flatMap, List.filter_flatMap]
    apply List.flatMap_congr
    intro passage member
    exact Passage.attribution_lines (wellFormed passage member)
  · intro diagnostic member
    exact ParsedComment.mem_diagnostics member
  · have distinct : parsed.tags.Nodup := increasing.imp fun {before after} less equal => by
      rw [equal] at less
      exact less.false
    exact distinct.sublist parsed.diagnostics_tags_sublist

end Comment

end DocAtlas
