import DocAtlas.Model.Build
import DocAtlas.Proofs.Comment.Grammar

/-!
# Where comments stand

A scan goes through its file from left to right and never comes back, so the comments
that it finds stand in the order of their offsets, no two at the same one. Comments of
files with different paths differ in their files, which makes a file and an offset
enough to tell apart all comments that a build parses.
-/

namespace DocAtlas

namespace Lexeme

theorem length_text_of_next? {markers : Markers} {source rest : Text} {lexeme : Lexeme}
    (read : next? markers source = some (lexeme, rest)) : 0 < lexeme.text.length := by
  have whole := congrArg List.length (next?_append read)
  have shorter := length_next? read
  rw [List.length_append] at whole
  omega

theorem eq_nil_of_unterminated {markers : Markers} {source marker body rest : Text}
    (read : next? markers source = some (.documentation marker body false, rest)) :
    rest = [] := by
  unfold next? at read
  split at read
  · simp at read
  · next c tail =>
    split at read
    · next otherMarker after _ =>
      simp only [Option.some.injEq, ofMarker] at read
      split at read <;> simp_all
    · have reads := ordinary_reads c tail
      rw [Option.some.inj read] at reads
      cases reads

end Lexeme

namespace Comment

theorem ofLexeme?_eq_some {markers : Markers} {file after : Text} {offset line : Nat}
    {lexeme : Lexeme} {comment : Comment}
    (made : ofLexeme? markers file offset line lexeme after = some comment) :
    comment.span.file = file ∧ comment.offset = offset ∧ comment.span.startLine = line := by
  cases lexeme with
  | documentation marker body terminated =>
    simp only [ofLexeme?, Option.some.injEq] at made
    subst made
    exact ⟨rfl, rfl, rfl⟩
  | lineComment => simp [ofLexeme?] at made
  | blockComment => simp [ofLexeme?] at made
  | literal => simp [ofLexeme?] at made
  | character => simp [ofLexeme?] at made

theorem file_of_mem_scanFrom {markers : Markers} {file text : Text} {offset line : Nat}
    {comment : Comment} (member : comment ∈ scanFrom markers file offset line text) :
    comment.span.file = file := by
  fun_induction scanFrom markers file offset line text with
  | case1 => simp at member
  | case2 offset line text lexeme rest read _ induction =>
    rcases List.mem_append.mp member with here | later
    · exact (ofLexeme?_eq_some (Option.mem_toList.mp here)).1
    · exact induction later

theorem offset_le_of_mem_scanFrom {markers : Markers} {file text : Text} {offset line : Nat}
    {comment : Comment} (member : comment ∈ scanFrom markers file offset line text) :
    offset ≤ comment.offset := by
  fun_induction scanFrom markers file offset line text with
  | case1 => simp at member
  | case2 offset line text lexeme rest read _ induction =>
    rcases List.mem_append.mp member with here | later
    · exact Nat.le_of_eq (ofLexeme?_eq_some (Option.mem_toList.mp here)).2.1.symm
    · have further := induction later
      omega

theorem lt_of_mem_scanFrom {markers : Markers} {file text : Text} {offset line : Nat}
    {comment : Comment} (member : comment ∈ scanFrom markers file offset line text) :
    comment.offset < offset + text.length := by
  fun_induction scanFrom markers file offset line text with
  | case1 => simp at member
  | case2 offset line text lexeme rest read _ induction =>
    have whole := congrArg List.length (Lexeme.next?_append read)
    have moved := Lexeme.length_text_of_next? read
    rw [List.length_append] at whole
    rcases List.mem_append.mp member with here | later
    · have start := (ofLexeme?_eq_some (Option.mem_toList.mp here)).2.1
      omega
    · have further := induction later
      omega

theorem scanFrom_pairwise_offset (markers : Markers) (file : Text) (offset line : Nat)
    (text : Text) :
    (scanFrom markers file offset line text).Pairwise fun first second =>
      first.offset < second.offset := by
  fun_induction scanFrom markers file offset line text with
  | case1 => exact .nil
  | case2 offset line text lexeme rest read _ induction =>
    refine List.pairwise_append.mpr ⟨?_, induction, ?_⟩
    · cases ofLexeme? markers file offset line lexeme rest <;> simp
    · intro first here second later
      have start := (ofLexeme?_eq_some (Option.mem_toList.mp here)).2.1
      have further := offset_le_of_mem_scanFrom later
      have moved := Lexeme.length_text_of_next? read
      omega

theorem startLine_le_of_mem_scanFrom {markers : Markers} {file text : Text} {offset line : Nat}
    {comment : Comment} (member : comment ∈ scanFrom markers file offset line text) :
    line ≤ comment.span.startLine := by
  fun_induction scanFrom markers file offset line text with
  | case1 => simp at member
  | case2 offset line text lexeme rest read _ induction =>
    rcases List.mem_append.mp member with here | later
    · exact Nat.le_of_eq (ofLexeme?_eq_some (Option.mem_toList.mp here)).2.2.symm
    · exact Nat.le_trans (Nat.le_add_right line _) (induction later)

theorem scanFrom_pairwise_startLine (markers : Markers) (file : Text) (offset line : Nat)
    (text : Text) :
    (scanFrom markers file offset line text).Pairwise fun first second =>
      first.span.startLine ≤ second.span.startLine := by
  fun_induction scanFrom markers file offset line text with
  | case1 => exact .nil
  | case2 offset line text lexeme rest read _ induction =>
    refine List.pairwise_append.mpr ⟨?_, induction, ?_⟩
    · cases ofLexeme? markers file offset line lexeme rest <;> simp
    · intro first here second later
      have start := (ofLexeme?_eq_some (Option.mem_toList.mp here)).2.2
      have further := startLine_le_of_mem_scanFrom later
      omega

theorem newlines_append (first second : Text) :
    newlines (first ++ second) = newlines first + newlines second :=
  List.count_append

theorem scanFrom_nil (markers : Markers) (file : Text) (offset line : Nat) :
    scanFrom markers file offset line [] = [] := by
  rw [scanFrom]
  rfl

theorem scanFrom_of_next? {markers : Markers} {file source rest : Text} {offset line : Nat}
    {lexeme : Lexeme}
    (read : Lexeme.next? markers source = some (lexeme, rest)) :
    scanFrom markers file offset line source =
      (ofLexeme? markers file offset line lexeme rest).toList ++
        scanFrom markers file (offset + lexeme.text.length) (line + newlines lexeme.text) rest := by
  rw [scanFrom]
  split
  · next none => simp [read] at none
  · next other otherRest found =>
    rw [read] at found
    cases found
    rfl

private theorem here_or_later {made : Option Comment} {tail earlier later : List Comment}
    {comment : Comment} (found : made.toList ++ tail = earlier ++ comment :: later) :
    made = some comment ∧ later = tail ∨ ∃ others, tail = others ++ comment :: later := by
  cases made with
  | none => exact .inr ⟨earlier, found⟩
  | some first =>
    cases earlier with
    | nil =>
      simp only [Option.toList_some, List.singleton_append, List.nil_append,
        List.cons.injEq] at found
      exact .inl ⟨congrArg some found.1, found.2.symm⟩
    | cons _ others =>
      simp only [Option.toList_some, List.cons_append, List.cons.injEq] at found
      exact .inr ⟨others, found.2⟩

/-- Every comment of a scan is a lexeme of the text, and the comments behind it are those
of the text that follows. -/
theorem scanFrom_split {markers : Markers} {file source : Text} {offset line : Nat}
    {earlier later : List Comment} {comment : Comment}
    (found : scanFrom markers file offset line source = earlier ++ comment :: later) :
    ∃ before lexeme rest, source = before ++ (lexeme.text ++ rest) ∧
      Lexeme.next? markers (lexeme.text ++ rest) = some (lexeme, rest) ∧
      ofLexeme? markers file (offset + before.length) (line + newlines before) lexeme rest =
        some comment ∧
      later = scanFrom markers file (offset + (before ++ lexeme.text).length)
        (line + newlines (before ++ lexeme.text)) rest := by
  fun_induction scanFrom markers file offset line source generalizing earlier with
  | case1 => simp at found
  | case2 offset line source lexeme rest read _ induction =>
    have whole := Lexeme.next?_append read
    rcases here_or_later found with ⟨made, rfl⟩ | ⟨others, inRest⟩
    · exact ⟨[], lexeme, rest, whole, whole ▸ read, made, rfl⟩
    · rcases induction inRest with ⟨before, other, behind, split, otherRead, made, rfl⟩
      refine ⟨lexeme.text ++ before, other, behind, ?_, otherRead, ?_, ?_⟩
      · rw [whole, split, List.append_assoc]
      · rw [List.length_append, newlines_append, ← Nat.add_assoc, ← Nat.add_assoc]
        exact made
      · simp only [List.length_append, newlines_append, Nat.add_assoc]

theorem eq_nil_of_unterminated {markers : Markers} {path text : Text}
    {earlier later : List Comment} {comment : Comment}
    (found : scan markers path text = earlier ++ comment :: later)
    (unterminated : comment.terminated = false) : later = [] := by
  rcases scanFrom_split found with ⟨before, lexeme, rest, _, read, made, rfl⟩
  cases lexeme with
  | documentation marker body terminated =>
    simp only [ofLexeme?, Option.some.injEq] at made
    subst made
    have unclosed : terminated = false := unterminated
    rw [unclosed] at read
    rw [Lexeme.eq_nil_of_unterminated read, scanFrom_nil]
  | lineComment => simp [ofLexeme?] at made
  | blockComment => simp [ofLexeme?] at made
  | literal => simp [ofLexeme?] at made
  | character => simp [ofLexeme?] at made

theorem file_of_mem_scan {markers : Markers} {path text : Text} {comment : Comment}
    (member : comment ∈ scan markers path text) : comment.span.file = Text.slashed path :=
  file_of_mem_scanFrom member

theorem scan_pairwise_offset (markers : Markers) (path text : Text) :
    (scan markers path text).Pairwise fun first second => first.offset < second.offset :=
  scanFrom_pairwise_offset markers (Text.slashed path) 0 1 text

theorem scan_pairwise_startLine (markers : Markers) (path text : Text) :
    (scan markers path text).Pairwise fun first second =>
      first.span.startLine ≤ second.span.startLine :=
  scanFrom_pairwise_startLine markers (Text.slashed path) 0 1 text

end Comment

namespace Run

/-- Among the comments of files with different paths, no two stand at one place. -/
theorem parse_pairwise_place {markers : Markers} {sources : List Source}
    (distinct : (fileOrder sources).Nodup) :
    (parse markers sources).Pairwise fun first second =>
      ¬(first.comment.span.file = second.comment.span.file ∧
        first.comment.offset = second.comment.offset) := by
  unfold parse
  rw [List.pairwise_map, List.pairwise_flatMap]
  constructor
  · intro source _
    apply (Comment.scan_pairwise_offset markers source.path source.text).imp
    intro first second before same
    exact absurd same.2 (Nat.ne_of_lt before)
  · apply (List.pairwise_map.mp distinct).imp
    intro source other different first here second there same
    apply different
    rw [← Comment.file_of_mem_scan here, ← Comment.file_of_mem_scan there]
    exact same.1

theorem eq_of_place_eq {markers : Markers} {sources : List Source}
    (distinct : (fileOrder sources).Nodup) {first second : ParsedComment}
    (here : first ∈ parse markers sources) (there : second ∈ parse markers sources)
    (sameFile : first.comment.span.file = second.comment.span.file)
    (sameOffset : first.comment.offset = second.comment.offset) : first = second := by
  have apart : (parse markers sources).Pairwise _ := parse_pairwise_place distinct
  refine List.Pairwise.forall_of_forall_of_flip
    (R := fun first second : ParsedComment =>
      first.comment.span.file = second.comment.span.file →
        first.comment.offset = second.comment.offset → first = second)
    (fun _ _ _ _ => rfl) ?_ ?_ here there sameFile sameOffset
  · exact apart.imp fun different sameFile sameOffset =>
      absurd ⟨sameFile, sameOffset⟩ different
  · exact apart.imp fun different sameFile sameOffset =>
      absurd ⟨sameFile.symm, sameOffset.symm⟩ different

end Run

end DocAtlas
