import DocAtlas.Text.Basic

/-!
# The order of texts

Texts are ordered by their first different character, by code point, and a
beginning of a text comes before it. The order is total and antisymmetric, so a
sorted list of texts is determined by its members.
-/

namespace DocAtlas.Text

def le : Text → Text → Bool
  | [], _ => true
  | _ :: _, [] => false
  | c :: first, d :: second => c < d || (c == d && le first second)

theorem le_total (first second : Text) : (le first second || le second first) = true := by
  induction first generalizing second with
  | nil => simp [le]
  | cons c first induction =>
    cases second with
    | nil => simp [le]
    | cons d second =>
      have step := induction second
      have order : c < d ∨ c = d ∨ d < c := by
        rcases Nat.lt_trichotomy c.toNat d.toNat with less | equal | greater
        · exact .inl less
        · exact .inr (.inl (Char.toNat_inj.mp equal))
        · exact .inr (.inr greater)
      rcases order with less | rfl | greater
      · simp [le, less]
      · simpa [le] using step
      · simp [le, greater]

theorem le_antisymm {first second : Text} (forward : le first second = true)
    (backward : le second first = true) : first = second := by
  induction first generalizing second with
  | nil => cases second with
    | nil => rfl
    | cons => simp [le] at backward
  | cons c first induction =>
    cases second with
    | nil => simp [le] at forward
    | cons d second =>
      simp only [le, Bool.or_eq_true, decide_eq_true_eq, Bool.and_eq_true, beq_iff_eq]
        at forward backward
      rcases forward with less | ⟨rfl, forward⟩
      · rcases backward with greater | ⟨rfl, _⟩
        · exact absurd (Char.lt_trans less greater) (Char.lt_irrefl _)
        · exact absurd less (Char.lt_irrefl _)
      · rcases backward with greater | ⟨_, backward⟩
        · exact absurd greater (Char.lt_irrefl _)
        · rw [induction forward backward]

theorem le_trans {first second third : Text} (left : le first second = true)
    (right : le second third = true) : le first third = true := by
  induction first generalizing second third with
  | nil => rfl
  | cons c first induction =>
    cases second with
    | nil => simp [le] at left
    | cons d second =>
      cases third with
      | nil => simp [le] at right
      | cons e third =>
        simp only [le, Bool.or_eq_true, decide_eq_true_eq, Bool.and_eq_true, beq_iff_eq]
          at left right ⊢
        rcases left with less | ⟨rfl, left⟩
        · rcases right with less' | ⟨rfl, _⟩
          · exact .inl (Char.lt_trans less less')
          · exact .inl less
        · rcases right with less | ⟨rfl, right⟩
          · exact .inl less
          · exact .inr ⟨rfl, induction left right⟩

end DocAtlas.Text
