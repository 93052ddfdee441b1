import DocAtlas.Text.Basic
import Mathlib.Data.List.Infix

/-!
# Lines of a text

A text is cut at every occurrence of a separator, and parts that are joined and cut again come
back. The lines of a text are what stands between its newlines, one more than there are newlines.
The lines of a part are found inside the lines of the whole, as far down as there are newlines in
front of the part.
-/

namespace DocAtlas.Text

theorem splitOn_eq (separator : Char) (text : Text) :
    splitOn separator text = List.splitOn separator text := by
  induction text with
  | nil => rfl
  | cons c rest induction =>
    rw [List.splitOn_cons_eq_if_modifyHead, ← induction]
    by_cases equal : c = separator <;> simp [splitOn, cutAt, equal]

theorem splitOn_cons (separator c : Char) (rest : Text) :
    splitOn separator (c :: rest) =
      if c = separator then [] :: splitOn separator rest
      else (splitOn separator rest).modifyHead (c :: ·) := by
  simp only [splitOn_eq, List.splitOn_cons_eq_if_modifyHead, beq_iff_eq]

theorem splitOn_append_cons (separator : Char) (text rest : Text) :
    splitOn separator (text ++ separator :: rest) =
      splitOn separator text ++ splitOn separator rest := by
  simp only [splitOn_eq, List.splitOn_append_cons_self]

theorem splitOn_intercalate {separator : Char} {parts : List Text} (some : parts ≠ [])
    (apart : ∀ part ∈ parts, separator ∉ part) :
    splitOn separator ([separator].intercalate parts) = parts := by
  rw [splitOn_eq]
  exact List.splitOn_intercalate separator apart some

theorem not_mem_of_mem_splitOn {separator : Char} {text part : Text}
    (member : part ∈ splitOn separator text) : separator ∉ part := by
  induction text generalizing part with
  | nil => simp_all [splitOn, cutAt]
  | cons c rest induction =>
    rw [splitOn_cons] at member
    rcases List.exists_cons_of_ne_nil (splitOn_ne_nil separator rest) with ⟨first, others, parts⟩
    rw [parts] at member induction
    split at member
    · rcases List.mem_cons.mp member with rfl | later
      · exact List.not_mem_nil
      · exact induction later
    · next different =>
      rcases List.mem_cons.mp member with rfl | later
      · have inFirst := @induction first List.mem_cons_self
        simp [Ne.symm different, inFirst]
      · exact induction (List.mem_cons_of_mem first later)

theorem lines_ne_nil (text : Text) : lines text ≠ [] := splitOn_ne_nil newline text

/-- A character in front begins a line of its own if it is a newline, and otherwise goes to
the front of the first line. -/
theorem lines_cons (c : Char) (rest : Text) :
    lines (c :: rest) =
      if c = newline then [] :: lines rest else (lines rest).modifyHead (c :: ·) :=
  splitOn_cons newline c rest

theorem lines_append_newline (text rest : Text) :
    lines (text ++ newline :: rest) = lines text ++ lines rest :=
  splitOn_append_cons newline text rest

theorem lines_unlines {texts : List Text} (some : texts ≠ [])
    (oneLine : ∀ text ∈ texts, newline ∉ text) : lines (unlines texts) = texts :=
  splitOn_intercalate some oneLine

theorem unlines_cons {line : Text} {texts : List Text} (more : texts ≠ []) :
    unlines (line :: texts) = line ++ newline :: unlines texts := by
  cases texts with
  | nil => exact absurd rfl more
  | cons next rest => simp [unlines, List.intercalate]

theorem unlines_isPrefix (line : Text) (texts : List Text) : line <+: unlines (line :: texts) := by
  by_cases last : texts = []
  · simp [last, unlines]
  · rw [unlines_cons last]
    exact List.prefix_append line _

theorem newline_not_mem_of_mem_lines {text line : Text} (member : line ∈ lines text) :
    newline ∉ line :=
  not_mem_of_mem_splitOn member

theorem length_lines (text : Text) : (lines text).length = text.count newline + 1 := by
  induction text with
  | nil => rfl
  | cons c rest induction =>
    rw [lines_cons, List.count_cons]
    by_cases equal : c = newline <;> simp [equal, induction]

/-! ## Places -/

theorem lines_append_of_not_mem {part : Text} (inside : newline ∉ part) (after : Text) :
    lines (part ++ after) = (lines after).modifyHead (part ++ ·) := by
  induction part with
  | nil => exact (congrFun List.modifyHead_id (lines after)).symm
  | cons c part induction =>
    rw [List.mem_cons, not_or] at inside
    rw [List.cons_append, lines_cons, if_neg (Ne.symm inside.1), induction inside.2,
      List.modifyHead_modifyHead]
    rfl

theorem exists_parts_of_getElem?_lines {text line : Text} {index : Nat}
    (found : (lines text)[index]? = some line) :
    ∃ before after, text = before ++ (line ++ after) ∧ before.count newline = index := by
  have oneLine : ∀ other ∈ lines text, newline ∉ other := fun _ => newline_not_mem_of_mem_lines
  rw [← unlines_lines text]
  generalize lines text = texts at found oneLine
  induction texts generalizing index with
  | nil => cases found
  | cons first rest induction =>
    rw [List.forall_mem_cons] at oneLine
    cases index with
    | zero =>
      cases found
      rcases unlines_isPrefix line rest with ⟨after, whole⟩
      exact ⟨[], after, whole.symm, rfl⟩
    | succ index =>
      rcases induction found oneLine.2 with ⟨before, after, whole, place⟩
      have more : rest ≠ [] := List.ne_nil_of_mem (List.mem_of_getElem? found)
      refine ⟨first ++ newline :: before, after, ?_, ?_⟩
      · rw [unlines_cons more, whole, List.append_assoc, List.cons_append]
      · rw [List.count_append, List.count_eq_zero.mpr oneLine.1, List.count_cons_self, place,
          Nat.zero_add]

theorem exists_line_of_part (before : Text) {part : Text} (inside : newline ∉ part)
    (after : Text) :
    ∃ whole, (lines (before ++ (part ++ after)))[before.count newline]? = some whole ∧
      part <:+: whole := by
  induction before with
  | nil =>
    rcases List.exists_cons_of_ne_nil (lines_ne_nil after) with ⟨first, others, parts⟩
    refine ⟨part ++ first, ?_, (List.prefix_append part first).isInfix⟩
    rw [List.nil_append, lines_append_of_not_mem inside, parts]
    rfl
  | cons c before induction =>
    rcases induction with ⟨whole, found, within⟩
    rw [List.cons_append, lines_cons, List.count_cons]
    by_cases equal : c = newline
    · refine ⟨whole, ?_, within⟩
      rw [if_pos equal, if_pos (beq_iff_eq.mpr equal), List.getElem?_cons_succ, found]
    · rw [if_neg equal, if_neg (mt beq_iff_eq.mp equal), Nat.add_zero, List.getElem?_modifyHead,
        found]
      split
      · exact ⟨c :: whole, rfl, List.infix_cons within⟩
      · exact ⟨whole, rfl, within⟩

theorem exists_mem_of_infix_unlines {texts : List Text} (some : texts ≠ [])
    (oneLine : ∀ text ∈ texts, newline ∉ text) {part : Text} (inside : newline ∉ part)
    (found : part <:+: unlines texts) : ∃ text ∈ texts, part <:+: text := by
  rcases found with ⟨before, after, whole⟩
  rcases exists_line_of_part before inside after with ⟨text, place, within⟩
  rw [← List.append_assoc, whole, lines_unlines some oneLine] at place
  exact ⟨text, List.mem_of_getElem? place, within⟩

theorem index_le_of_getElem?_lines {text line : Text} {index : Nat}
    (found : (lines text)[index]? = some line) (full : line ≠ []) :
    index ≤ text.dropLast.count newline := by
  rcases exists_parts_of_getElem?_lines found with ⟨before, after, rfl, rfl⟩
  rw [List.dropLast_append_of_ne_nil (List.append_ne_nil_of_left_ne_nil full after),
    List.count_append]
  exact Nat.le_add_right _ _

end DocAtlas.Text
