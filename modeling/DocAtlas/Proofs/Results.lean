import Mathlib.Data.List.Basic

/-!
# Results that may be faults

When a step behind another succeeds, when a result with another wording of its fault does, and
what a traversal of a list that succeeds has read.
-/

namespace DocAtlas

theorem mapError_eq_ok {α ε δ : Type} {change : ε → δ} {result : Except ε α} {value : α} :
    result.mapError change = .ok value ↔ result = .ok value := by
  cases result <;> simp [Except.mapError]

theorem mapError_eq_error {α ε δ : Type} {change : ε → δ} {result : Except ε α} {error : δ} :
    result.mapError change = .error error ↔
      ∃ cause, result = .error cause ∧ change cause = error := by
  cases result <;> simp [Except.mapError]

theorem bind_eq_ok {α β ε : Type} {result : Except ε α} {next : α → Except ε β} {value : β} :
    (result >>= next) = .ok value ↔ ∃ middle, result = .ok middle ∧ next middle = .ok value := by
  cases result with
  | error fault =>
    refine ⟨nofun, ?_⟩
    rintro ⟨_, found, _⟩
    cases found
  | ok middle =>
    refine ⟨fun done => ⟨middle, rfl, done⟩, ?_⟩
    rintro ⟨_, found, done⟩
    cases found
    exact done

theorem exists_of_isOk {α ε : Type} {result : Except ε α} (done : result.isOk = true) :
    ∃ value, result = .ok value := by
  cases result with
  | error fault => cases done
  | ok value => exact ⟨value, rfl⟩

/-! ## Traversals -/

section

variable {α β ε : Type} {read : α → Except ε β} {items : List α} {values : List β}

theorem mapM_eq_ok {write : β → α}
    (inverse : ∀ item value, read item = .ok value ↔ write value = item) :
    items.mapM read = .ok values ↔ values.map write = items := by
  induction items generalizing values with
  | nil =>
    rw [List.map_eq_nil_iff]
    exact ⟨fun done => (Except.ok.inj done).symm, fun empty => empty ▸ rfl⟩
  | cons item rest induction =>
    rw [List.mapM_cons, bind_eq_ok, List.map_eq_cons_iff]
    constructor
    · rintro ⟨value, here, more⟩
      rcases bind_eq_ok.mp more with ⟨others, there, made⟩
      cases made
      exact ⟨value, others, rfl, (inverse item value).mp here, induction.mp there⟩
    · rintro ⟨value, others, rfl, written, same⟩
      refine ⟨value, (inverse item value).mpr written, ?_⟩
      exact bind_eq_ok.mpr ⟨others, induction.mpr same, rfl⟩

theorem mapM_eq_error {write : β → α} {error : ε}
    (inverse : ∀ item value, read item = .ok value ↔ write value = item) :
    items.mapM read = .error error ↔
      ∃ (before : List β) (item : α) (after : List α),
        items = before.map write ++ item :: after ∧ read item = .error error := by
  constructor
  · intro failed
    induction items with
    | nil => cases failed
    | cons item rest induction =>
      rw [List.mapM_cons] at failed
      cases here : read item with
      | error other =>
        rw [here] at failed
        cases failed
        exact ⟨[], item, rest, rfl, here⟩
      | ok value =>
        cases there : rest.mapM read with
        | ok others =>
          rw [here, there] at failed
          cases failed
        | error other =>
          rw [here, there] at failed
          cases failed
          rcases induction there with ⟨before, wrong, after, rfl, refused⟩
          refine ⟨value :: before, wrong, after, ?_, refused⟩
          rw [List.map_cons, (inverse item value).mp here, List.cons_append]
  · rintro ⟨before, item, after, rfl, refused⟩
    have front : (before.map write).mapM read = .ok before := (mapM_eq_ok inverse).mpr rfl
    rw [List.mapM_append, front, List.mapM_cons, refused]
    rfl

theorem exists_mem_of_mapM_eq_ok (done : items.mapM read = .ok values) {value : β}
    (member : value ∈ values) : ∃ item ∈ items, read item = .ok value := by
  induction items generalizing values with
  | nil =>
    cases done
    cases member
  | cons item rest induction =>
    rw [List.mapM_cons] at done
    rcases bind_eq_ok.mp done with ⟨own, here, more⟩
    rcases bind_eq_ok.mp more with ⟨others, there, made⟩
    cases made
    rcases List.mem_cons.mp member with rfl | later
    · exact ⟨item, List.mem_cons_self, here⟩
    · rcases induction there later with ⟨other, inside, found⟩
      exact ⟨other, List.mem_cons_of_mem item inside, found⟩

end

end DocAtlas
