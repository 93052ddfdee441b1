import DocAtlas.Symbol.Table
import DocAtlas.Proofs.Lists
import Mathlib.Data.List.Induction

/-!
# Laws of symbol tables

A table is filled symbol by symbol. It answers for a name with the first symbol of that name, and
for a position with the first of the kept symbols that stand there. A further symbol never
changes an answer that there is, and one whose name is known changes nothing at all.
-/

namespace DocAtlas

def Symbol.StandsAt (symbol : Symbol) (position : Position) : Prop :=
  ∃ location ∈ symbol.locations, location.position = position

instance (symbol : Symbol) (position : Position) : Decidable (symbol.StandsAt position) :=
  inferInstanceAs (Decidable (∃ location ∈ symbol.locations, location.position = position))

namespace SymbolTable

/-! ## Entries that are added -/

theorem lookup_addNew {α β : Type} [DecidableEq α] (key : α) (value : β)
    (entries : List (α × β)) (other : α) :
    (addNew key value entries).lookup other =
      (entries.lookup other).or (if key = other then some value else none) := by
  unfold addNew
  by_cases equal : key = other
  · subst equal
    cases found : entries.lookup key with
    | some old => simp [found]
    | none => simp [found, List.lookup_append]
  · have different : (other == key) = false := beq_false_of_ne (Ne.symm equal)
    rw [if_neg equal, Option.or_none]
    split
    · rfl
    · rw [List.lookup_append, List.lookup_cons, different, List.lookup_nil, Option.or_none]

theorem lookup_place (placed : List (Position × Symbol)) (symbol : Symbol) (position : Position) :
    (place placed symbol).lookup position =
      (placed.lookup position).or (if symbol.StandsAt position then some symbol else none) := by
  have step (locations : List SourceLocation) :
      (locations.foldl (fun placed location => addNew location.position symbol placed)
          placed).lookup position =
        (placed.lookup position).or
          (if ∃ location ∈ locations, location.position = position then some symbol
            else none) := by
    induction locations generalizing placed with
    | nil => simp
    | cons location rest induction =>
      rw [List.foldl_cons, induction, lookup_addNew, Option.or_assoc]
      by_cases here : location.position = position <;> simp [here]
  exact step symbol.locations

/-! ## One symbol more -/

section

variable (table : SymbolTable) {symbol : Symbol}

theorem insert_of_known (known : table.contains symbol.name = true) :
    table.insert symbol = table :=
  dif_pos known

theorem named_insert (unknown : table.contains symbol.name = false) :
    (table.insert symbol).named = table.named ++ [(symbol.name, symbol)] := by
  have absent : ¬(table.named.lookup symbol.name).isSome = true := Bool.eq_false_iff.mp unknown
  rw [insert, dif_neg absent]

theorem placed_insert (unknown : table.contains symbol.name = false) :
    (table.insert symbol).placed = place table.placed symbol := by
  have absent : ¬(table.named.lookup symbol.name).isSome = true := Bool.eq_false_iff.mp unknown
  rw [insert, dif_neg absent]

theorem get?_insert (symbol : Symbol) (name : Text) :
    (table.insert symbol).get? name =
      (table.get? name).or (if symbol.name = name then some symbol else none) := by
  cases known : table.contains symbol.name with
  | true =>
    rw [table.insert_of_known known]
    split
    · next same => rw [Option.or_of_isSome (same ▸ known)]
    · rw [Option.or_none]
  | false =>
    rw [get?, table.named_insert known, List.lookup_append]
    by_cases equal : symbol.name = name
    · simp [equal, get?]
    · have different : (name == symbol.name) = false := beq_false_of_ne (Ne.symm equal)
      simp [equal, different, get?, List.lookup_cons]

theorem at?_insert (unknown : table.contains symbol.name = false) (file : Text) (line : Int) :
    (table.insert symbol).at? file line = (table.at? file line).or
      (if symbol.StandsAt ⟨Text.slashed file, line⟩ then some symbol else none) := by
  rw [at?, table.placed_insert unknown, lookup_place]
  rfl

theorem toList_insert (unknown : table.contains symbol.name = false) :
    (table.insert symbol).toList = table.toList ++ [symbol] := by
  rw [toList, table.named_insert unknown, List.map_append]
  rfl

theorem map_name_toList : table.toList.map (·.name) = table.names := by
  rw [toList, names, List.map_map]
  exact List.map_congr_left table.name_of_named

theorem mem_toList : symbol ∈ table.toList ↔ table.get? symbol.name = some symbol := by
  rw [get?_eq_some, toList, List.mem_map]
  constructor
  · rintro ⟨entry, member, rfl⟩
    rw [table.name_of_named entry member]
    exact member
  · exact fun member => ⟨_, member, rfl⟩

end

/-! ## All symbols of a list -/

section

variable (symbols : List Symbol)

theorem ofList_concat (symbol : Symbol) :
    ofList (symbols ++ [symbol]) = (ofList symbols).insert symbol := by
  rw [ofList, List.foldl_append]
  rfl

theorem get?_ofList (name : Text) :
    (ofList symbols).get? name = symbols.find? (·.name == name) := by
  induction symbols using List.reverseRecOn with
  | nil => rfl
  | append_singleton symbols symbol induction =>
    rw [ofList_concat, get?_insert, induction, List.find?_append]
    by_cases equal : symbol.name = name <;> simp [equal]

theorem contains_ofList (name : Text) :
    (ofList symbols).contains name = true ↔ name ∈ symbols.map (·.name) := by
  rw [contains, get?_ofList, List.find?_isSome, List.mem_map]
  simp only [beq_iff_eq]

theorem names_ofList : (ofList symbols).names = (symbols.map (·.name)).eraseDups := by
  induction symbols using List.reverseRecOn with
  | nil => rfl
  | append_singleton symbols symbol induction =>
    have listed := contains_ofList symbols symbol.name
    rw [ofList_concat, List.map_append, List.eraseDups_append, ← induction, List.map_singleton]
    cases known : (ofList symbols).contains symbol.name with
    | true =>
      have nothing : [symbol.name].removeAll (symbols.map (·.name)) = [] := by
        simpa [List.removeAll] using listed.mp known
      rw [insert_of_known _ known, nothing, List.eraseDups_nil, List.append_nil]
    | false =>
      have itself : [symbol.name].removeAll (symbols.map (·.name)) = [symbol.name] := by
        simpa [List.removeAll, known] using listed
      rw [names, named_insert _ known, itself, List.map_append]
      rfl

theorem at?_ofList (file : Text) (line : Int) :
    (ofList symbols).at? file line =
      (ofList symbols).toList.find? (·.StandsAt ⟨Text.slashed file, line⟩) := by
  induction symbols using List.reverseRecOn with
  | nil => rfl
  | append_singleton symbols symbol induction =>
    rw [ofList_concat]
    cases known : (ofList symbols).contains symbol.name with
    | true => rw [insert_of_known _ known, induction]
    | false =>
      rw [at?_insert _ known, toList_insert _ known, List.find?_append, induction,
        List.find?_singleton]
      simp

end

/-! ## The two indexes -/

def FirstAt (table : SymbolTable) (position : Position) (symbol : Symbol) : Prop :=
  symbol.StandsAt position ∧ ∃ before after, table.toList = before ++ symbol :: after ∧
    ∀ other ∈ before, ¬other.StandsAt position

theorem firstAt_of_at? {symbols : List Symbol} {file : Text} {line : Int} {symbol : Symbol}
    (found : (ofList symbols).at? file line = some symbol) :
    (ofList symbols).FirstAt ⟨Text.slashed file, line⟩ symbol := by
  rw [at?_ofList] at found
  rcases exists_split_of_find? found with ⟨stands, before, after, parts, absent⟩
  refine ⟨of_decide_eq_true stands, before, after, parts, ?_⟩
  exact fun other member there => absent other member (decide_eq_true there)

theorem exists_at?_of_mem {symbols : List Symbol} {symbol : Symbol}
    (kept : (ofList symbols).get? symbol.name = some symbol) {path : Text} {line : LineNumber}
    (located : SourceLocation.ofPath path line ∈ symbol.locations) :
    ∃ first, (ofList symbols).at? path line.toInt = some first := by
  have stands : symbol.StandsAt ⟨Text.slashed path, line.toInt⟩ := ⟨_, located, rfl⟩
  rw [at?_ofList, ← Option.isSome_iff_exists, List.find?_isSome]
  exact ⟨symbol, (mem_toList _).mpr kept, decide_eq_true stands⟩

theorem map_get?_names (table : SymbolTable) :
    table.names.map table.get? = table.toList.map some := by
  rw [← map_name_toList, List.map_map]
  exact List.map_congr_left fun symbol member => (mem_toList table).mp member

theorem get?_concat {symbols : List Symbol} (added : Symbol) {name : Text} {symbol : Symbol}
    (found : (ofList symbols).get? name = some symbol) :
    (ofList (symbols ++ [added])).get? name = some symbol := by
  rw [ofList_concat, get?_insert, found, Option.some_or]

theorem ofList_concat_of_known {symbols : List Symbol} {added : Symbol}
    (known : added.name ∈ symbols.map (·.name)) :
    ofList (symbols ++ [added]) = ofList symbols := by
  rw [ofList_concat]
  exact insert_of_known _ ((contains_ofList symbols added.name).mpr known)

theorem at?_concat {symbols : List Symbol} (added : Symbol) {file : Text} {line : Int}
    {symbol : Symbol} (found : (ofList symbols).at? file line = some symbol) :
    (ofList (symbols ++ [added])).at? file line = some symbol := by
  rw [ofList_concat]
  cases known : (ofList symbols).contains added.name with
  | true => rw [insert_of_known _ known, found]
  | false => rw [at?_insert _ known, found, Option.some_or]

/-- The names of a table are those of its symbols, each at its first occurrence, and the symbol
kept under a name is the first of that name. What a table has at a position it also has by its
name, and wherever a kept symbol stands, the first kept symbol that stands there is answered.
A further symbol changes no answer that there is, and nothing at all if its name is known. -/
theorem indexes_agree (symbols : List Symbol) :
    let table := ofList symbols
    (table.names = (symbols.map (·.name)).eraseDups ∧
      ∀ name, table.get? name = symbols.find? (·.name == name)) ∧
    (∀ file line symbol, table.at? file line = some symbol →
      table.get? symbol.name = some symbol ∧ symbol.StandsAt ⟨Text.slashed file, line⟩) ∧
    (table.names.map table.get? = table.toList.map some ∧
      ∀ symbol, table.get? symbol.name = some symbol →
        ∀ path line, SourceLocation.ofPath path line ∈ symbol.locations →
          ∃ first, table.at? path line.toInt = some first ∧
            table.FirstAt ⟨Text.slashed path, line.toInt⟩ first) ∧
    ∀ added,
      (∀ name symbol, table.get? name = some symbol →
        (ofList (symbols ++ [added])).get? name = some symbol) ∧
      (∀ file line symbol, table.at? file line = some symbol →
        (ofList (symbols ++ [added])).at? file line = some symbol) ∧
      (added.name ∈ symbols.map (·.name) → ofList (symbols ++ [added]) = table) := by
  intro table
  refine ⟨⟨names_ofList symbols, get?_ofList symbols⟩, ?_, ⟨map_get?_names table, ?_⟩, ?_⟩
  · intro file line symbol found
    exact ⟨get?_of_at? found, (firstAt_of_at? found).1⟩
  · intro symbol kept path line located
    rcases exists_at?_of_mem kept located with ⟨first, found⟩
    exact ⟨first, found, firstAt_of_at? found⟩
  · intro added
    refine ⟨?_, ?_, ofList_concat_of_known⟩
    · exact fun _ _ found => get?_concat added found
    · exact fun _ _ _ found => at?_concat added found

end SymbolTable

end DocAtlas
