import DocAtlas.Text.Indent
import DocAtlas.Proofs.Lists
import DocAtlas.Proofs.Text.Lines
import DocAtlas.Proofs.Text.Trim

/-!
# Margins

The margin of some lines is the longest indentation that all lines with anything else on
them begin with. Lines that are all set behind one indentation, and one of which has none of
its own, come back when the margin is removed. Removing the newlines around a text removes
the empty lines around its lines.
-/

namespace DocAtlas.Text

theorem isBlank_of_isIndent {c : Char} (indent : isIndent c = true) : isBlank c = true := by
  have either : c = ' ' ∨ c = '\t' := by simpa [isIndent] using indent
  rcases either with rfl | rfl <;> rfl

theorem trimStart_indent_append {indent : Text} (blank : ∀ c ∈ indent, isIndent c = true)
    (line : Text) : trimStart (indent ++ line) = trimStart line :=
  List.dropWhile_append_of_pos fun c member => isBlank_of_isIndent (blank c member)

/-! ## The longest common indentation -/

theorem prefix_commonStart {start first second : Text} :
    start <+: commonStart first second ↔ start <+: first ∧ start <+: second := by
  induction first generalizing start second with
  | nil =>
    cases second <;> simp +contextual [commonStart, List.prefix_nil]
  | cons c first induction =>
    cases second with
    | nil => simp +contextual [commonStart, List.prefix_nil]
    | cons d second =>
      cases start with
      | nil => simp
      | cons e start =>
        by_cases equal : c = d
        · subst equal
          simp only [commonStart, if_true, List.cons_prefix_cons, induction]
          exact and_and_left
        · simp only [commonStart, if_neg equal, List.cons_prefix_cons, List.prefix_nil,
            List.cons_ne_nil, false_iff]
          rintro ⟨⟨rfl, _⟩, ⟨rfl, _⟩⟩
          exact equal rfl

theorem prefix_foldl_commonStart {start first : Text} {others : List Text} :
    start <+: others.foldl commonStart first ↔
      start <+: first ∧ ∀ other ∈ others, start <+: other := by
  induction others generalizing first with
  | nil => simp
  | cons other others induction =>
    rw [List.foldl_cons, induction, prefix_commonStart, List.forall_mem_cons, and_assoc]

theorem prefix_indentOf {start line : Text} :
    start <+: indentOf line ↔ (∀ c ∈ start, isIndent c = true) ∧ start <+: line := by
  constructor
  · intro begins
    refine ⟨fun c member => ?_, begins.trans (List.takeWhile_prefix isIndent)⟩
    exact List.mem_takeWhile_imp (begins.subset member)
  · rintro ⟨blank, rest, rfl⟩
    rw [indentOf, List.takeWhile_append_of_pos blank]
    exact List.prefix_append start _

/-- What all lines are indented by is measured on the lines with anything else on them. -/
theorem prefix_margin {start : Text} {lines : List Text}
    (some : ∃ line ∈ lines, line.all isIndent = false) :
    start <+: margin lines ↔ (∀ c ∈ start, isIndent c = true) ∧
      ∀ line ∈ lines, line.all isIndent = false → start <+: line := by
  have full {line : Text} : line ∈ lines.filter (fun line => !line.all isIndent) ↔
      line ∈ lines ∧ line.all isIndent = false := by simp
  rcases some with ⟨known, inLines, notBlank⟩
  have inFull := full.mpr ⟨inLines, notBlank⟩
  unfold margin
  split
  · next none =>
    rw [List.map_eq_nil_iff.mp none] at inFull
    exact absurd inFull List.not_mem_nil
  · next first others indents =>
    rw [prefix_foldl_commonStart, ← List.forall_mem_cons (p := (start <+: ·)), ← indents,
      List.forall_mem_map]
    constructor
    · intro begins
      refine ⟨(prefix_indentOf.mp (begins known inFull)).1, fun line member own => ?_⟩
      exact (prefix_indentOf.mp (begins line (full.mpr ⟨member, own⟩))).2
    · rintro ⟨blank, common⟩ line member
      exact prefix_indentOf.mpr ⟨blank, common line (full.mp member).1 (full.mp member).2⟩

theorem margin_eq_nil {lines : List Text} (none : ∀ line ∈ lines, line.all isIndent = true) :
    margin lines = [] := by
  have empty : lines.filter (fun line => !line.all isIndent) = [] := by
    simpa using none
  rw [margin, empty, List.map_nil]

/-- The longest indentation that all lines with anything else on them begin with. -/
structure IsMargin (lines : List Text) (indent : Text) : Prop where
  blank : ∀ c ∈ indent, isIndent c = true
  common : ∀ line ∈ lines, line.all isIndent = false → indent <+: line
  longest : ∀ other, (∃ line ∈ lines, line.all isIndent = false) →
    (∀ c ∈ other, isIndent c = true) →
    (∀ line ∈ lines, line.all isIndent = false → other <+: line) → other <+: indent

theorem isMargin_margin (lines : List Text) : IsMargin lines (margin lines) := by
  by_cases some : ∃ line ∈ lines, line.all isIndent = false
  · rcases (prefix_margin some).mp List.prefix_rfl with ⟨blank, common⟩
    exact ⟨blank, common, fun other _ blank common => (prefix_margin some).mpr ⟨blank, common⟩⟩
  · have none : ∀ line ∈ lines, line.all isIndent = true := fun line member =>
      Bool.not_eq_false _ ▸ fun full => some ⟨line, member, full⟩
    rw [margin_eq_nil none]
    exact ⟨by simp, fun _ _ _ => List.nil_prefix, fun _ found => absurd found some⟩

theorem margin_eq {lines : List Text} {indent : Text}
    (common : ∀ line ∈ lines, line.all isIndent = false → indent <+: line)
    {known : Text} (member : known ∈ lines) (full : known.all isIndent = false)
    (own : indentOf known = indent) : margin lines = indent := by
  have blank : ∀ c ∈ indent, isIndent c = true := by
    rw [← own]
    exact fun c inside => List.mem_takeWhile_imp inside
  have isMargin := isMargin_margin lines
  have longer : margin lines <+: indent := by
    rw [← own]
    exact prefix_indentOf.mpr ⟨isMargin.blank, isMargin.common known member full⟩
  have shorter := isMargin.longest indent ⟨known, member, full⟩ blank common
  exact longer.eq_of_length (Nat.le_antisymm longer.length_le shorter.length_le)

/-! ## Removing the margin -/

/-- A line as it is written behind an indentation; an empty line may also stay empty. -/
def IndentedBy (indent line written : Text) : Prop :=
  written = indent ++ line ∨ line = [] ∧ written = []

section

variable {indent : Text} {lines written : List Text} (blank : ∀ c ∈ indent, isIndent c = true)
  (indented : List.Forall₂ (IndentedBy indent) lines written)
  (full : ∀ line ∈ lines, line ≠ [] → line.all isIndent = false)

include blank indented full

/-- Lines set behind an indentation have it in front of the margin that they had. -/
theorem margin_indented (some : ∃ line ∈ lines, line ≠ []) :
    margin written = indent ++ margin lines := by
  rcases some with ⟨known, member, notEmpty⟩
  have isMargin := isMargin_margin lines
  have common : ∀ text ∈ written, text.all isIndent = false →
      indent ++ margin lines <+: text := by
    intro text inWritten notBlank
    rcases exists_left_of_forall₂ indented inWritten with ⟨line, inLines, rfl | ⟨_, rfl⟩⟩
    · rw [List.prefix_append_right_inj]
      by_cases empty : line = []
      · subst empty
        simp [List.all_eq_true.mpr blank] at notBlank
      · exact isMargin.common line inLines (full line inLines empty)
    · cases notBlank
  rcases exists_right_of_forall₂ indented member with ⟨text, inWritten, rfl | ⟨empty, _⟩⟩
  · have notBlank : (indent ++ known).all isIndent = false := by
      rw [List.all_append, full known member notEmpty, Bool.and_false]
    have longer : indent ++ margin lines <+: margin written :=
      (prefix_margin ⟨_, inWritten, notBlank⟩).mpr
        ⟨List.forall_mem_append.mpr ⟨blank, isMargin.blank⟩, common⟩
    -- What the margin has behind the indentation, all lines had in common before.
    rcases longer with ⟨more, whole⟩
    have writtenMargin := isMargin_margin written
    rw [← whole, List.append_assoc] at writtenMargin
    have shorter : margin lines ++ more <+: margin lines := by
      refine isMargin.longest _ ⟨known, member, full known member notEmpty⟩
        (List.forall_mem_append.mp writtenMargin.blank).2 ?_
      intro line inLines notBlank
      rcases exists_right_of_forall₂ indented inLines with ⟨text, inText, rfl | ⟨rfl, _⟩⟩
      · have begins := writtenMargin.common _ inText (by rw [List.all_append, notBlank,
          Bool.and_false])
        exact (List.prefix_append_right_inj indent).mp begins
      · cases notBlank
    have noMore : more = [] := by
      have length := shorter.length_le
      rw [List.length_append] at length
      exact List.length_eq_zero_iff.mp (by omega)
    rw [← whole, noMore, List.append_nil]
  · exact absurd empty notEmpty

/-- Removing the margin removes any indentation in front of all lines. -/
theorem dedent_indented : dedent written = dedent lines := by
  refine (map_eq_of_forall₂ indented ?_).symm
  intro line member text indentedLine
  by_cases empty : line = []
  · subst empty
    rcases indentedLine with rfl | ⟨_, rfl⟩
    · simp [List.all_eq_true.mpr blank]
    · rfl
  · rcases indentedLine with rfl | ⟨equal, _⟩
    · simp [full line member empty, margin_indented blank indented full ⟨line, member, empty⟩]
    · exact absurd equal empty

theorem dedent_of_indented {flush : Text} (member : flush ∈ lines) (notEmpty : flush ≠ [])
    (own : indentOf flush = []) : dedent written = lines := by
  have noMargin : margin lines = [] :=
    margin_eq (fun _ _ _ => List.nil_prefix) member (full flush member notEmpty) own
  rw [dedent_indented blank indented full, dedent, noMargin]
  refine (List.map_congr_left fun line inLines => ?_).trans (List.map_id lines)
  by_cases empty : line = []
  · simp [empty]
  · simp [full line inLines empty]

end

theorem indentedBy_dedent {lines : List Text}
    (full : ∀ line ∈ lines, line ≠ [] → line.all isIndent = false) :
    List.Forall₂ (IndentedBy (margin lines)) (dedent lines) lines := by
  rw [dedent, List.forall₂_map_left_iff, List.forall₂_same]
  intro line member
  by_cases empty : line = []
  · exact .inr ⟨by simp [empty], empty⟩
  · left
    have notBlank := full line member empty
    rcases (isMargin_margin lines).common line member notBlank with ⟨rest, parts⟩
    rw [if_neg (by simp [notBlank]), ← parts, List.drop_left]

theorem dedent_eq_map (lines : List Text) :
    ∃ cut : Text → Text, dedent lines = lines.map cut ∧ ∀ line, cut line <:+ line := by
  refine ⟨_, rfl, fun line => ?_⟩
  split
  · exact List.nil_suffix
  · exact List.drop_suffix _ line

theorem dedent_concat {lines : List Text} {last : Text} (blank : last.all isIndent = true) :
    dedent (lines ++ [last]) = dedent lines ++ [[]] := by
  have sameMargin : margin (lines ++ [last]) = margin lines := by
    simp only [margin, List.filter_append, List.filter_cons, blank, Bool.not_true,
      List.filter_nil, List.append_nil, Bool.false_eq_true, if_false]
  rw [dedent, sameMargin, List.map_append, List.map_singleton, if_pos blank]
  rfl

/-! ## Empty lines around others -/

theorem unlines_concat {lines : List Text} {line : Text} (some : lines ≠ []) :
    unlines (lines ++ [line]) = unlines lines ++ newline :: line := by
  induction lines with
  | nil => exact absurd rfl some
  | cons first rest induction =>
    cases rest with
    | nil => rw [List.singleton_append, unlines_cons (by simp)]; simp [unlines]
    | cons next others =>
      rw [List.cons_append, unlines_cons (by simp), unlines_cons (by simp),
        induction (by simp), List.append_assoc, List.cons_append]

def inner (lines : List Text) : List Text := (lines.dropWhile (· = [])).rdropWhile (· = [])

theorem dropWhile_newline_unlines {lines : List Text} (oneLine : ∀ line ∈ lines, newline ∉ line) :
    (unlines lines).dropWhile (· == newline) = unlines (lines.dropWhile (· = [])) := by
  induction lines with
  | nil => rfl
  | cons line rest induction =>
    rw [List.forall_mem_cons] at oneLine
    cases line with
    | nil =>
      by_cases last : rest = []
      · subst last
        rfl
      · rw [unlines_cons last]
        simpa [List.dropWhile_cons] using induction oneLine.2
    | cons c line =>
      have other : c ≠ newline := fun equal => oneLine.1 (equal ▸ List.mem_cons_self)
      rcases unlines_isPrefix (c :: line) rest with ⟨after, whole⟩
      simp [← whole, other]

theorem rdropWhile_newline_unlines {lines : List Text}
    (oneLine : ∀ line ∈ lines, newline ∉ line) :
    (unlines lines).rdropWhile (· == newline) = unlines (lines.rdropWhile (· = [])) := by
  induction lines using List.reverseRecOn with
  | nil => rfl
  | append_singleton lines last induction =>
    have inside : newline ∉ last := oneLine last (List.mem_append_right lines List.mem_cons_self)
    have earlier : ∀ line ∈ lines, newline ∉ line := fun line member =>
      oneLine line (List.mem_append_left _ member)
    by_cases empty : last = []
    · subst empty
      rw [List.rdropWhile_concat_pos _ _ _ (by simp), ← induction earlier]
      by_cases first : lines = []
      · subst first
        rfl
      · rw [unlines_concat first]
        exact List.rdropWhile_concat_pos _ _ _ (beq_self_eq_true newline)
    · rw [List.rdropWhile_concat_neg _ _ _ (by simpa using empty), List.rdropWhile_eq_self_iff]
      have ends : ∃ before, unlines (lines ++ [last]) = before ++ last := by
        by_cases first : lines = []
        · exact ⟨[], by simp [first, unlines]⟩
        · exact ⟨unlines lines ++ [newline], by simp [unlines_concat first]⟩
      rcases ends with ⟨before, ends⟩
      intro nonempty stops
      simp only [ends, List.getLast_append_of_ne_nil _ empty, beq_iff_eq] at stops
      exact inside (stops ▸ List.getLast_mem empty)

theorem trimNewlines_unlines {lines : List Text} (oneLine : ∀ line ∈ lines, newline ∉ line) :
    trimNewlines (unlines lines) = unlines (inner lines) := by
  have inside : ∀ line ∈ lines.dropWhile (· = []), newline ∉ line := fun line member =>
    oneLine line ((List.dropWhile_sublist _).subset member)
  rw [trimNewlines, dropEndWhile_eq_rdropWhile, dropWhile_newline_unlines oneLine,
    rdropWhile_newline_unlines inside, inner]

end DocAtlas.Text
