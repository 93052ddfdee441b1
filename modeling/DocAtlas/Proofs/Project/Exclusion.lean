import DocAtlas.Project
import DocAtlas.Proofs.Text.Lines

/-!
# Excluded paths

A pattern excludes the paths that it matches and those inside the folder that it names. A pattern
without wildcards matches nothing but itself, so it excludes exactly its own path and the paths
inside its folder: never one that merely begins with the same letters.
-/

namespace DocAtlas

/-! ## Plain patterns -/

namespace Wildcard

theorem read_of_plain {text : Text} (plain : isWildcard text = false) {steps : Nat}
    (enough : text.length ≤ steps) : read steps text = text.map .exactly := by
  induction text generalizing steps with
  | nil => cases steps <;> rfl
  | cons c rest induction =>
    cases steps with
    | zero => cases enough
    | succ steps =>
      simp only [isWildcard, List.any_cons, Bool.or_eq_false_iff, beq_eq_false_iff_ne] at plain
      rcases plain with ⟨⟨⟨star, question⟩, bracket⟩, others⟩
      rw [read, if_neg star, if_neg question, if_neg bracket,
        induction others (Nat.le_of_succ_le_succ enough), List.map_cons]

theorem accepts_exactly {pattern text : Text} :
    accepts (pattern.map .exactly) text = true ↔ text = pattern := by
  induction pattern generalizing text with
  | nil => exact List.isEmpty_iff
  | cons c pattern induction =>
    cases text with
    | nil => simp [accepts]
    | cons d text =>
      simp only [List.map_cons, accepts, Item.admits, Bool.and_eq_true, beq_iff_eq, induction,
        List.cons.injEq]

theorem matchesText_of_plain {pattern : Text} (plain : isWildcard pattern = false) {text : Text} :
    matchesText pattern text = true ↔ text = pattern := by
  rw [matchesText, ofText, read_of_plain plain (Nat.le_refl _), accepts_exactly]

end Wildcard

/-! ## Folders -/

/-- A path lies inside a folder: the names between its slashes begin with those of the folder, as
they are written, and at least one more follows. -/
def Path.LiesIn (folder path : Text) : Prop :=
  ∃ inner, inner ≠ [] ∧ Text.splitOn '/' path = Text.splitOn '/' folder ++ inner

theorem Path.startsWith_folder {folder path : Text} :
    Text.startsWith (folder ++ ['/']) path = true ↔ LiesIn folder path := by
  rw [Text.startsWith, List.isPrefixOf_iff_prefix]
  constructor
  · rintro ⟨rest, rfl⟩
    refine ⟨Text.splitOn '/' rest, Text.splitOn_ne_nil '/' rest, ?_⟩
    rw [List.append_assoc, List.singleton_append, Text.splitOn_append_cons]
  · rintro ⟨inner, some, names⟩
    have slashless : ∀ name ∈ inner, '/' ∉ name := fun name member =>
      Text.not_mem_of_mem_splitOn (names ▸ List.mem_append_right _ member)
    -- What is joined from the inner names stands behind the folder.
    have whole : Text.splitOn '/' path =
        Text.splitOn '/' (folder ++ '/' :: ['/'].intercalate inner) := by
      rw [names, Text.splitOn_append_cons, Text.splitOn_intercalate some slashless]
    have joined := congrArg (['/'].intercalate ·) whole
    simp only [Text.intercalate_splitOn] at joined
    exact ⟨['/'].intercalate inner, by rw [joined, List.append_assoc, List.singleton_append]⟩

namespace Project

theorem excludedBy_eq_true {path pattern : Text} :
    excludedBy path pattern = true ↔ Wildcard.matchesText pattern path = true ∨
      Path.LiesIn (Text.dropEndWhile (· == '/') pattern) path := by
  rw [excludedBy, Bool.or_eq_true, Path.startsWith_folder]

theorem excludedBy_of_plain {pattern : Text} (plain : Wildcard.isWildcard pattern = false)
    {path : Text} :
    excludedBy path pattern = true ↔
      path = pattern ∨ Path.LiesIn (Text.dropEndWhile (· == '/') pattern) path := by
  rw [excludedBy_eq_true, Wildcard.matchesText_of_plain plain]

theorem isExcluded_eq_false {patterns : List Text} {path : Text} :
    isExcluded patterns path = false ↔
      ∀ pattern ∈ patterns, excludedBy path pattern = false := by
  simp only [isExcluded, List.any_eq_false, Bool.not_eq_true]

theorem isExcluded_of_subset {patterns more : List Text} (inside : patterns ⊆ more) {path : Text}
    (kept : isExcluded more path = false) : isExcluded patterns path = false :=
  isExcluded_eq_false.mpr fun pattern member => isExcluded_eq_false.mp kept pattern (inside member)

end Project

end DocAtlas
