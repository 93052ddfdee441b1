import DocAtlas.Comment.Layout
import DocAtlas.Proofs.Text.Margin

/-!
# Lines of a layout

Laying out a comment keeps every line in its place. Each line of the text is a part of the
line that it was made of, so no line is lost, added or joined with another.
-/

namespace DocAtlas.Comment

open Text (newline isBlank trim trimEnd dedent)

theorem suffix_of_dropStar? {line rest : Text} (dropped : dropStar? line = some rest) :
    rest <:+ line := by
  have behind : rest <:+ line.dropWhile isBlank := by
    unfold dropStar? at dropped
    split at dropped
    · cases dropped
    · next more start =>
      cases dropped
      rw [start]
      exact (List.suffix_cons _ _).trans (List.suffix_cons _ _)
    · next more _ start =>
      cases dropped
      rw [start]
      exact List.suffix_cons _ _
    · cases dropped
  exact behind.trans (List.dropWhile_suffix isBlank)

theorem undecorate_eq_map (lines : List Text) :
    ∃ cut : Text → Text, undecorate lines = lines.map cut ∧ ∀ line, cut line <:+ line := by
  unfold undecorate
  split
  · refine ⟨_, rfl, fun line => ?_⟩
    cases dropped : dropStar? line with
    | none => exact List.suffix_rfl
    | some rest => exact suffix_of_dropStar? dropped
  · exact ⟨id, (List.map_id lines).symm, fun line => List.suffix_rfl⟩

theorem layoutLines_isInfix (lines : List Text) :
    List.Forall₂ (· <:+: ·) (layoutLines lines) lines := by
  cases lines with
  | nil => exact .nil
  | cons first others =>
    refine .cons (Text.trim_isInfix first) ?_
    rcases undecorate_eq_map others with ⟨dropStar, starless, behindStar⟩
    rcases Text.dedent_eq_map (undecorate others) with ⟨dropMargin, flush, behindMargin⟩
    rw [flush, starless, List.map_map, List.map_map, List.forall₂_map_left_iff, List.forall₂_same]
    intro line _
    have behind : dropMargin (dropStar line) <:+ line :=
      (behindMargin (dropStar line)).trans (behindStar line)
    exact (Text.trimEnd_isPrefix _).isInfix.trans behind.isInfix

theorem layoutLines_ne_nil {lines : List Text} (some : lines ≠ []) : layoutLines lines ≠ [] := by
  cases lines with
  | nil => exact absurd rfl some
  | cons first others => exact List.cons_ne_nil _ _

theorem lines_layout (body : Text) : Text.lines (layout body) = layoutLines (Text.lines body) := by
  apply Text.lines_unlines (layoutLines_ne_nil (Text.lines_ne_nil body))
  intro line member
  rcases exists_right_of_forall₂ (layoutLines_isInfix (Text.lines body)) member with
    ⟨whole, inBody, inside⟩
  exact fun cut => Text.newline_not_mem_of_mem_lines inBody (inside.subset cut)

end DocAtlas.Comment
