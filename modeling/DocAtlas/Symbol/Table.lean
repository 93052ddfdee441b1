import DocAtlas.Symbol

/-!
# Symbol tables

The symbols of a program, found by name and by source position. Where several symbols
share a name, the first one counts and the others are left out altogether; where
several symbols that are kept share a position, the first of them counts there.
-/

namespace DocAtlas

structure Position where
  file : Text
  line : Int
deriving DecidableEq, Repr

namespace SourceLocation

def position (location : SourceLocation) : Position := ⟨location.file, location.line.toInt⟩

end SourceLocation

/-- `named` holds each kept symbol under its name, `placed` under its positions, both in
the order of their first occurrence. A symbol that has a position also has its name. -/
structure SymbolTable where
  named : List (Text × Symbol)
  placed : List (Position × Symbol)
  named_nodup : (named.map (·.1)).Nodup
  name_of_named : ∀ entry ∈ named, entry.2.name = entry.1
  named_of_placed : ∀ entry ∈ placed, (entry.2.name, entry.2) ∈ named

namespace SymbolTable

def empty : SymbolTable where
  named := []
  placed := []
  named_nodup := .nil
  name_of_named := by simp
  named_of_placed := by simp

def addNew {α β : Type} [BEq α] (key : α) (value : β) (entries : List (α × β)) : List (α × β) :=
  if (entries.lookup key).isSome then entries else entries ++ [(key, value)]

def place (placed : List (Position × Symbol)) (symbol : Symbol) : List (Position × Symbol) :=
  symbol.locations.foldl (fun placed location => addNew location.position symbol placed) placed

theorem mem_addNew {α β : Type} [BEq α] {key : α} {value : β} {entries : List (α × β)}
    {entry : α × β} (member : entry ∈ addNew key value entries) :
    entry ∈ entries ∨ entry = (key, value) := by
  unfold addNew at member
  split at member
  · exact .inl member
  · simpa using member

theorem mem_place {placed : List (Position × Symbol)} {symbol : Symbol}
    {entry : Position × Symbol} (member : entry ∈ place placed symbol) :
    entry ∈ placed ∨ entry.2 = symbol := by
  unfold place at member
  generalize symbol.locations = locations at member
  induction locations generalizing placed with
  | nil => exact .inl member
  | cons location rest induction =>
    rcases induction member with old | new
    · rcases mem_addNew old with older | rfl
      · exact .inl older
      · exact .inr rfl
    · exact .inr new

def insert (table : SymbolTable) (symbol : Symbol) : SymbolTable :=
  if known : (table.named.lookup symbol.name).isSome then table
  else
    { named := table.named ++ [(symbol.name, symbol)]
      placed := place table.placed symbol
      named_nodup := by
        have absent : symbol.name ∉ table.named.map (·.1) := by
          intro member
          obtain ⟨entry, inside, equal⟩ := List.mem_map.mp member
          exact known (List.lookup_isSome_iff.mpr ⟨entry, inside, by simp [equal]⟩)
        rw [List.map_append, List.nodup_append]
        refine ⟨table.named_nodup, by simp, ?_⟩
        intro name member other single equal
        simp only [List.map_cons, List.map_nil, List.mem_singleton] at single
        exact absent (single ▸ equal ▸ member)
      name_of_named := by
        intro entry member
        rcases List.mem_append.mp member with old | new
        · exact table.name_of_named entry old
        · simp_all
      named_of_placed := by
        intro entry member
        rcases mem_place member with old | rfl
        · exact List.mem_append_left _ (table.named_of_placed entry old)
        · simp }

def ofList (symbols : List Symbol) : SymbolTable := symbols.foldl insert empty

def get? (table : SymbolTable) (name : Text) : Option Symbol := table.named.lookup name

def at? (table : SymbolTable) (file : Text) (line : Int) : Option Symbol :=
  table.placed.lookup ⟨Text.slashed file, line⟩

theorem get?_eq_some {table : SymbolTable} {name : Text} {symbol : Symbol} :
    table.get? name = some symbol ↔ (name, symbol) ∈ table.named := by
  have nodup := table.named_nodup
  unfold get?
  generalize table.named = entries at nodup
  induction entries with
  | nil => simp
  | cons entry rest induction =>
    obtain ⟨key, kept⟩ := entry
    rw [List.map_cons, List.nodup_cons] at nodup
    rw [List.mem_cons]
    by_cases equal : name = key
    · subst equal
      have absent : (name, symbol) ∉ rest := fun member =>
        nodup.1 (List.mem_map.mpr ⟨_, member, rfl⟩)
      simp [absent, eq_comm]
    · rw [List.lookup_cons, beq_false_of_ne equal]
      simp [equal, induction nodup.2]

theorem name_of_get? {table : SymbolTable} {name : Text} {symbol : Symbol}
    (found : table.get? name = some symbol) : symbol.name = name :=
  table.name_of_named _ (get?_eq_some.mp found)

theorem get?_of_at? {table : SymbolTable} {file : Text} {line : Int} {symbol : Symbol}
    (found : table.at? file line = some symbol) : table.get? symbol.name = some symbol := by
  obtain ⟨before, after, parts, _⟩ := List.lookup_eq_some_iff.mp found
  apply get?_eq_some.mpr
  apply table.named_of_placed (⟨Text.slashed file, line⟩, symbol)
  rw [parts]
  simp

def names (table : SymbolTable) : List Text := table.named.map (·.1)

def toList (table : SymbolTable) : List Symbol := table.named.map (·.2)

def size (table : SymbolTable) : Nat := table.named.length

def contains (table : SymbolTable) (name : Text) : Bool := (table.get? name).isSome

def duplicates (symbols : List Symbol) : List Text :=
  (symbols.foldl
    (fun state symbol =>
      if state.1.contains symbol.name then (state.1, state.2 ++ [symbol.name])
      else (state.1 ++ [symbol.name], state.2))
    (([] : List Text), ([] : List Text))).2

end SymbolTable

end DocAtlas
