import DocAtlas.Path
import DocAtlas.Proofs.Text.Lines

/-!
# Laws of paths

Names that are joined to a path are read back from it, so that different names make different
paths. The order of paths is total, for names that differ decide it one by one.
-/

namespace DocAtlas.Path

/-! ## Names -/

def IsName (name : Text) : Prop := isPart name = true ∧ '/' ∉ name

instance (name : Text) : Decidable (IsName name) :=
  inferInstanceAs (Decidable (isPart name = true ∧ '/' ∉ name))

theorem isName_of_mem_parts {text name : Text} (member : name ∈ (ofText text).parts) :
    IsName name := by
  rcases List.mem_filter.mp member with ⟨inside, part⟩
  exact ⟨part, Text.not_mem_of_mem_splitOn inside⟩

theorem parts_ofText_slashJoined {names : List Text} (named : ∀ name ∈ names, IsName name) :
    (ofText (slashJoined names)).parts = names := by
  by_cases none : names = []
  · rw [none]
    rfl
  · have cut : Text.splitOn '/' (slashJoined names) = names :=
      Text.splitOn_intercalate none fun name member => (named name member).2
    rw [ofText, cut]
    exact List.filter_eq_self.mpr fun name member => (named name member).1

/-! ## Order -/

theorem partsLe_total (first second : List Text) :
    (partsLe first second || partsLe second first) = true := by
  induction first generalizing second with
  | nil => rfl
  | cons name first induction =>
    cases second with
    | nil => rfl
    | cons other second =>
      by_cases same : name = other
      · simpa [partsLe, same] using induction second
      · simpa [partsLe, same, Ne.symm same] using Text.le_total name other

theorem partsLe_trans {first second third : List Text} (left : partsLe first second = true)
    (right : partsLe second third = true) : partsLe first third = true := by
  induction first generalizing second third with
  | nil => rfl
  | cons a first induction =>
    cases second with
    | nil => cases left
    | cons b second =>
      cases third with
      | nil => cases right
      | cons c third =>
        rw [partsLe] at left right ⊢
        by_cases ab : a = b
        · subst ab
          rw [if_pos rfl] at left
          split at right
          · next same => rw [if_pos same]; exact induction left right
          · next different => rw [if_neg different]; exact right
        · rw [if_neg ab] at left
          by_cases bc : b = c
          · subst bc
            rw [if_neg ab]
            exact left
          · rw [if_neg bc] at right
            have ac : a ≠ c := by
              rintro rfl
              exact ab (Text.le_antisymm left right)
            rw [if_neg ac]
            exact Text.le_trans left right

end DocAtlas.Path
