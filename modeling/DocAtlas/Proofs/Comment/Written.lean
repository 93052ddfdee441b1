import DocAtlas.Model.Build
import DocAtlas.Proofs.Comment.Grammar
import DocAtlas.Proofs.Comment.Offset
import DocAtlas.Proofs.Text.Margin

/-!
# Comments over several lines

How the lines behind the first line of a comment are written: all behind one indentation, or
all behind stars. A comment that is written so, and in which nothing ends it too early, is
read back as it was written, whatever stands behind it.
-/

namespace DocAtlas

open Text (newline isIndent IndentedBy)

namespace Comment

/-! ## Lines behind one indentation or behind stars -/

def starred (line : Text) : Text := if line = [] then [' ', '*'] else ' ' :: '*' :: ' ' :: line

inductive Laid (lines : List Text) : List Text → Prop
  | behindIndent {indent : Text} {others : List Text} : (∀ c ∈ indent, isIndent c = true) →
      List.Forall₂ (IndentedBy indent) lines others → Laid lines others
  | behindStars : Laid lines (lines.map starred)

theorem Laid.forall_mem (property : Text → Prop) {lines others : List Text}
    (laid : Laid lines others) (empty : property [])
    (behindStar : ∀ line ∈ lines, property (Comment.starred line))
    (behindIndent : ∀ indent, (∀ c ∈ indent, isIndent c = true) →
      ∀ line ∈ lines, property (indent ++ line)) : ∀ line ∈ others, property line := by
  cases laid with
  | @behindIndent indent _ blank indented =>
    intro text inWritten
    rcases exists_left_of_forall₂ indented inWritten with ⟨line, member, rfl | ⟨_, rfl⟩⟩
    · exact behindIndent indent blank line member
    · exact empty
  | behindStars => exact List.forall_mem_map.mpr behindStar

theorem newline_not_mem_starred {line : Text} (oneLine : newline ∉ line) :
    newline ∉ starred line := by
  unfold starred
  split <;> simp_all [newline]

theorem not_infix_starred {line : Text} (inside : ¬Lexeme.closing <:+: line) :
    ¬Lexeme.closing <:+: starred line := by
  unfold starred
  split
  · decide
  · simpa [List.infix_cons_iff, Lexeme.closing] using inside

theorem newline_not_mem_indent {indent : Text} (blank : ∀ c ∈ indent, isIndent c = true) :
    newline ∉ indent := fun member => absurd (blank newline member) (by decide)

theorem not_infix_indent {indent line : Text} (blank : ∀ c ∈ indent, isIndent c = true)
    (inside : ¬Lexeme.closing <:+: line) : ¬Lexeme.closing <:+: indent ++ line := by
  induction indent with
  | nil => exact inside
  | cons c indent induction =>
    rw [List.forall_mem_cons] at blank
    rw [List.cons_append, List.infix_cons_iff, not_or]
    refine ⟨fun begins => ?_, induction blank.2⟩
    have star : '*' = c := (List.cons_prefix_cons.mp begins).1
    exact absurd (star ▸ blank.1) (by decide)

namespace Laid

variable {lines others : List Text} (laid : Laid lines others)

include laid

theorem newline_not_mem_of_mem (oneLine : ∀ line ∈ lines, newline ∉ line) :
    ∀ line ∈ others, newline ∉ line := by
  apply laid.forall_mem (newline ∉ ·) List.not_mem_nil
  · exact fun line member => newline_not_mem_starred (oneLine line member)
  · intro indent blank line member
    exact List.not_mem_append (newline_not_mem_indent blank) (oneLine line member)

theorem not_infix_of_mem (inside : ∀ line ∈ lines, ¬Lexeme.closing <:+: line) :
    ∀ line ∈ others, ¬Lexeme.closing <:+: line := by
  apply laid.forall_mem (¬Lexeme.closing <:+: ·) (by decide)
  · exact fun line member => not_infix_starred (inside line member)
  · exact fun indent blank line member => not_infix_indent blank (inside line member)

end Laid

/-! ## Reading a comment back -/

def enclosed (body : Text) : Text := "/*!".toList ++ (body ++ Lexeme.closing)

section

variable {markers : Markers} {body : Text}

theorem next?_enclosed (made : Markers.ofList? defaultMarkers = some markers)
    (inside : ¬Lexeme.closing <:+: body) (behind : Text) :
    Lexeme.next? markers (enclosed body ++ behind) =
      some (.documentation "/*!".toList body true, behind) := by
  have whole : enclosed body ++ behind =
      "/*!".toList ++ (body ++ Lexeme.closing ++ behind) := by
    simp only [enclosed, List.append_assoc]
  have opens : Lexeme.Opens defaultMarkers (enclosed body ++ behind) "/*!".toList
      (body ++ Lexeme.closing ++ behind) :=
    { nonempty := by simp [enclosed]
      listed := List.mem_singleton.mpr rfl
      fits := whole
      longest := fun other listed _ => by rw [List.mem_singleton.mp listed]
      allowed := fun vetoed => absurd vetoed.1 (by decide) }
  exact (Lexeme.next?_eq_some made).mpr (.documentation opens inside)

theorem ofLexeme?_enclosed (markers : Markers) (file body behind : Text) :
    ofLexeme? markers file 0 1 (.documentation "/*!".toList body true) behind =
      some
        { span := ⟨file, 1, 1 + newlines body⟩
          text := layout body
          nextCodeLine := nextCodeLine? markers (1 + newlines body) behind
          terminated := true
          offset := 0 } := by
  have above : newlines ("/*!".toList ++ body) = newlines body := by
    rw [newlines_append]
    exact Nat.zero_add _
  have toEnd : newlines ("/*!".toList ++ body ++ Lexeme.closing).dropLast = newlines body := by
    rw [List.dropLast_append_of_ne_nil (by decide), newlines_append, above]
    rfl
  have whole : newlines ("/*!".toList ++ body ++ Lexeme.closing) = newlines body := by
    rw [newlines_append, above]
    rfl
  simp only [ofLexeme?, Lexeme.text, if_true, toEnd, whole]

theorem scan_enclosed (made : Markers.ofList? defaultMarkers = some markers)
    (inside : ¬Lexeme.closing <:+: body) (path behind : Text) :
    ∃ later, (behind = [] → later = []) ∧
      scan markers path (enclosed body ++ behind) =
        { span := ⟨Text.slashed path, 1, 1 + newlines body⟩
          text := layout body
          nextCodeLine := nextCodeLine? markers (1 + newlines body) behind
          terminated := true
          offset := 0 } :: later := by
  rw [scan, scanFrom_of_next? (next?_enclosed made inside behind), ofLexeme?_enclosed,
    Option.toList_some, List.singleton_append]
  exact ⟨_, fun nothing => by rw [nothing, scanFrom_nil], rfl⟩

end

def body (first : Text) (others : List Text) (last : Text) : Text :=
  Text.unlines (first :: (others ++ [last]))

def written (first : Text) (others : List Text) (last : Text) : Text :=
  "/*!".toList ++ (body first others last ++ Lexeme.closing)

theorem forall_mem_written (property : Text → Prop) {first last : Text} {others : List Text}
    (begins : property first) (goesOn : ∀ line ∈ others, property line) (ends : property last) :
    ∀ line ∈ first :: (others ++ [last]), property line := by
  simp only [List.forall_mem_cons, List.forall_mem_append]
  exact ⟨begins, goesOn, ends, List.forall_mem_nil _⟩

section

variable {first last : Text} {others : List Text}
  (oneLine : ∀ line ∈ first :: (others ++ [last]), newline ∉ line)

include oneLine

theorem lines_body : Text.lines (body first others last) = first :: (others ++ [last]) :=
  Text.lines_unlines (List.cons_ne_nil _ _) oneLine

theorem newlines_body : newlines (body first others last) = others.length + 1 := by
  have count := Text.length_lines (body first others last)
  rw [lines_body oneLine, List.length_cons, List.length_append, List.length_singleton] at count
  exact (Nat.succ.inj count).symm

theorem scan_written {markers : Markers} (made : Markers.ofList? defaultMarkers = some markers)
    (inside : ∀ line ∈ first :: (others ++ [last]), ¬Lexeme.closing <:+: line)
    (path behind : Text) :
    ∃ later, (behind = [] → later = []) ∧
      scan markers path (written first others last ++ behind) =
        { span := ⟨Text.slashed path, 1, others.length + 2⟩
          text := layout (body first others last)
          nextCodeLine := nextCodeLine? markers (others.length + 2) behind
          terminated := true
          offset := 0 } :: later := by
  have noEnd : ¬Lexeme.closing <:+: body first others last := by
    intro found
    rcases Text.exists_mem_of_infix_unlines (List.cons_ne_nil _ _) oneLine (by decide) found with
      ⟨line, member, within⟩
    exact inside line member within
  have lastLine : 1 + newlines (body first others last) = others.length + 2 := by
    rw [newlines_body oneLine, Nat.add_comm]
  have found := scan_enclosed made noEnd path behind
  rw [lastLine] at found
  exact found

end

end Comment

end DocAtlas
