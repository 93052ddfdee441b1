import DocAtlas.Value

/-!
# Shapes of values

What is inside a value decides its shape: a mapping has entries in it, a list has items, and no
value has both. An empty value has nothing inside.
-/

namespace DocAtlas.Value

def IsMapping (value : Value) : Prop := ∃ entries, value.entries? = some entries

variable {value : Value}

theorem not_isMapping_iff : ¬value.IsMapping ↔ value.entries? = none := by
  rw [IsMapping, ← Option.isSome_iff_exists, Option.not_isSome_iff_eq_none]

theorem field?_eq_lookup? {entries : List (Value × Value)} (inside : value.entries? = some entries)
    (key : Text) : value.field? key = lookup? key entries := by
  rw [field?, inside, Option.bind_some]

theorem isMapping_of_field? {key : Text} {held : Value} (found : value.field? key = some held) :
    value.IsMapping := by
  rcases Option.bind_eq_some_iff.mp found with ⟨entries, inside, _⟩
  exact ⟨entries, inside⟩

theorem items?_of_isMapping (mapping : value.IsMapping) : value.items? = none := by
  rcases mapping with ⟨entries, inside⟩
  unfold entries? at inside
  unfold items?
  split at inside
  · next shape => rw [shape]
  · cases inside

theorem entries_of_isEmpty {entries : List (Value × Value)} (empty : value.isEmpty = true)
    (inside : value.entries? = some entries) : entries = [] := by
  unfold isEmpty at empty
  split at empty <;> simp_all [entries?, opened]

theorem field?_of_isEmpty (empty : value.isEmpty = true) (key : Text) :
    value.field? key = none := by
  cases inside : value.entries? with
  | none => rw [field?, inside, Option.bind_none]
  | some entries =>
    rw [field?_eq_lookup? inside, entries_of_isEmpty empty inside]
    rfl

theorem items_of_isEmpty {items : List Value} (empty : value.isEmpty = true)
    (inside : value.items? = some items) : items = [] := by
  unfold isEmpty at empty
  split at empty <;> simp_all [items?, opened]

/-! ## Comparing values -/

mutual
def isSame : Value → Value → Bool
  | .text first, .text second => first == second
  | .integer first, .integer second => first == second
  | .list first, .list second => areSame first second
  | .mapping first, .mapping second => areSameEntries first second
  | _, _ => false

def areSame : List Value → List Value → Bool
  | [], [] => true
  | first :: rest, second :: others => isSame first second && areSame rest others
  | _, _ => false

def areSameEntries : List (Value × Value) → List (Value × Value) → Bool
  | [], [] => true
  | (key, value) :: rest, (otherKey, other) :: others =>
    isSame key otherKey && isSame value other && areSameEntries rest others
  | _, _ => false
end

mutual
theorem eq_of_isSame : ∀ {first second : Value}, isSame first second = true → first = second
  | .text _, .text _, same => congrArg text (eq_of_beq same)
  | .integer _, .integer _, same => congrArg integer (eq_of_beq same)
  | .list _, .list _, same => congrArg list (eq_of_areSame same)
  | .mapping _, .mapping _, same => congrArg mapping (eq_of_areSameEntries same)

theorem eq_of_areSame : ∀ {first second : List Value}, areSame first second = true → first = second
  | [], [], _ => rfl
  | _ :: _, _ :: _, same => by
    rw [areSame, Bool.and_eq_true] at same
    rw [eq_of_isSame same.1, eq_of_areSame same.2]

theorem eq_of_areSameEntries : ∀ {first second : List (Value × Value)},
    areSameEntries first second = true → first = second
  | [], [], _ => rfl
  | (_, _) :: _, (_, _) :: _, same => by
    rw [areSameEntries, Bool.and_eq_true, Bool.and_eq_true] at same
    rw [eq_of_isSame same.1.1, eq_of_isSame same.1.2, eq_of_areSameEntries same.2]
end

theorem eq_ok_of_isSame {ε : Type} {result : Except ε Value} {value : Value}
    (same : result.toOption.any value.isSame = true) : result = .ok value := by
  cases result with
  | error fault => cases same
  | ok other => rw [eq_of_isSame same]

end DocAtlas.Value
