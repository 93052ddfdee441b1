import DocAtlas.Proofs.Results
import DocAtlas.Proofs.Value
import DocAtlas.Symbol.Record
import Mathlib.Data.List.Forall2

/-!
# Laws of symbol records

A record is a symbol that is written down: its name and its kind as texts, its places as mappings
of a file and a line, and its metadata as a mapping. The symbols of a list of records are those
that the records write, in order, and there are such symbols exactly if every record has the form
of one.
-/

namespace DocAtlas

/-! ## Locations -/

inductive SourceLocation.WrittenIn (value : Value) : SourceLocation → Prop
  | number {file : Text} {line : Int} : value.field? "file" = some (.text file) →
      value.field? "line" = some (.integer line) → WrittenIn value (.ofPath file (.number line))
  | truth {file : Text} {line : Bool} : value.field? "file" = some (.text file) →
      value.field? "line" = some (.truth line) → WrittenIn value (.ofPath file (.truth line))

theorem SourceLocation.ofValue?_eq_some {value : Value} {location : SourceLocation} :
    ofValue? value = some location ↔ location.WrittenIn value := by
  constructor
  · intro found
    unfold ofValue? at found
    split at found
    · next file line =>
      cases found
      exact .number file line
    · next file line =>
      cases found
      exact .truth file line
    · cases found
  · intro written
    cases written with
    | number file line => simp only [ofValue?, file, line]
    | truth file line => simp only [ofValue?, file, line]

namespace SymbolKind

theorem ofLabel?_eq_some {label : Text} {kind : SymbolKind} :
    ofLabel? label = some kind ↔ kind.label = label := by
  constructor
  · intro found
    have equal := List.find?_some found
    exact eq_of_beq equal
  · rintro rfl
    exact ofLabel?_label kind

end SymbolKind

namespace Symbol

/-! ## One record -/

inductive Metadata : Option Value → List (Value × Value) → Prop
  | absent : Metadata none []
  | empty {value : Value} : value.isEmpty = true → Metadata (some value) []
  | mapping {value : Value} {entries : List (Value × Value)} :
      value.entries? = some entries → Metadata (some value) entries

theorem metadataOf?_eq_some {value : Option Value} {entries : List (Value × Value)} :
    metadataOf? value = some entries ↔ Metadata value entries := by
  constructor
  · intro found
    unfold metadataOf? at found
    split at found
    · cases found
      exact .absent
    · split at found
      · next empty =>
        cases found
        exact .empty empty
      · exact .mapping found
  · intro metadata
    cases metadata with
    | absent => rfl
    | empty empty => exact if_pos empty
    | @mapping value entries inside =>
      by_cases empty : value.isEmpty = true
      · rw [Value.entries_of_isEmpty empty inside]
        exact if_pos empty
      · rw [← inside]
        exact if_neg empty

theorem kindOf?_eq_some {value : Option Value} {kind : SymbolKind} :
    kindOf? value = some kind ↔
      ∃ label, value = some (.text label) ∧ kind.label = Text.lower label := by
  unfold kindOf?
  split
  · next label => simp [SymbolKind.ofLabel?_eq_some]
  · next other =>
    refine iff_of_false nofun ?_
    rintro ⟨label, same, _⟩
    exact other label same

structure WrittenAs (record : Value) (symbol : Symbol) : Prop where
  name : record.field? "name" = some (.text symbol.name)
  named : symbol.name ≠ []
  kind : ∃ label, record.field? "kind" = some (.text label) ∧
    symbol.kind.label = Text.lower label
  metadata : Metadata (record.field? "metadata") symbol.metadata
  declaration : ∀ location, symbol.declaration = some location ↔ location.WrittenIn record
  definition : ∀ location, symbol.definition = some location ↔
    ∃ place, record.field? "definition" = some place ∧ location.WrittenIn place

theorem ofRecord_eq_ok {index : Nat} {record : Value} {symbol : Symbol} :
    ofRecord index record = .ok symbol ↔ WrittenAs record symbol := by
  constructor
  · intro made
    unfold ofRecord at made
    split at made
    · next fields inside =>
      simp only [← Value.field?_eq_lookup? inside] at made
      split at made
      · next first rest name =>
        split at made
        · cases made
        · cases made
        · next kind metadata knownKind knownMetadata =>
          cases made
          refine ⟨name, List.cons_ne_nil first rest, kindOf?_eq_some.mp knownKind,
            metadataOf?_eq_some.mp knownMetadata, fun location => ?_, fun location => ?_⟩
          · exact SourceLocation.ofValue?_eq_some
          · simp only [Option.bind_eq_some_iff, SourceLocation.ofValue?_eq_some]
      · cases made
    · cases made
  · intro written
    rcases Value.isMapping_of_field? written.name with ⟨fields, inside⟩
    have declared : SourceLocation.ofValue? record = symbol.declaration := by
      ext location
      rw [SourceLocation.ofValue?_eq_some, written.declaration]
    have defined :
        (record.field? "definition").bind SourceLocation.ofValue? = symbol.definition := by
      ext location
      rw [written.definition]
      simp only [Option.bind_eq_some_iff, SourceLocation.ofValue?_eq_some]
    have kind := kindOf?_eq_some.mpr written.kind
    have metadata := metadataOf?_eq_some.mpr written.metadata
    rcases List.exists_cons_of_ne_nil written.named with ⟨first, rest, named⟩
    have name := named ▸ written.name
    simp only [ofRecord, inside, ← Value.field?_eq_lookup? inside, name, kind, metadata, declared,
      defined]
    rw [← named]

structure IsRecord (record : Value) : Prop where
  mapping : record.IsMapping
  named : ∃ name, record.field? "name" = some (.text name) ∧ name ≠ []
  kind : ∃ label, record.field? "kind" = some (.text label) ∧
    ∃ kind : SymbolKind, kind.label = Text.lower label
  metadata : ∀ value, record.field? "metadata" = some value →
    value.isEmpty = true ∨ value.IsMapping

theorem exists_metadata_iff {value : Option Value} :
    (∃ entries, Metadata value entries) ↔
      ∀ held, value = some held → held.isEmpty = true ∨ held.IsMapping := by
  constructor
  · rintro ⟨entries, metadata⟩ held rfl
    cases metadata with
    | empty empty => exact .inl empty
    | mapping inside => exact .inr ⟨entries, inside⟩
  · intro shape
    cases value with
    | none => exact ⟨[], .absent⟩
    | some held =>
      rcases shape held rfl with empty | ⟨entries, inside⟩
      · exact ⟨[], .empty empty⟩
      · exact ⟨entries, .mapping inside⟩

theorem exists_writtenAs_iff {record : Value} :
    (∃ symbol, WrittenAs record symbol) ↔ IsRecord record := by
  constructor
  · rintro ⟨symbol, written⟩
    rcases written.kind with ⟨label, known, same⟩
    exact
      { mapping := Value.isMapping_of_field? written.name
        named := ⟨symbol.name, written.name, written.named⟩
        kind := ⟨label, known, symbol.kind, same⟩
        metadata := exists_metadata_iff.mp ⟨_, written.metadata⟩ }
  · intro form
    rcases form.named with ⟨name, known, named⟩
    rcases form.kind with ⟨label, labelled, kind, same⟩
    rcases exists_metadata_iff.mpr form.metadata with ⟨entries, metadata⟩
    let symbol : Symbol :=
      { kind := kind
        name := name
        declaration := SourceLocation.ofValue? record
        definition := (record.field? "definition").bind SourceLocation.ofValue?
        metadata := entries }
    refine ⟨symbol, known, named, ⟨label, labelled, same⟩, metadata, fun location => ?_,
      fun location => ?_⟩
    · exact SourceLocation.ofValue?_eq_some
    · simp only [symbol, Option.bind_eq_some_iff, SourceLocation.ofValue?_eq_some]

/-! ## Lists of records -/

theorem ofRecords_eq_ok {index : Nat} {records : List Value} {symbols : List Symbol} :
    ofRecords index records = .ok symbols ↔ List.Forall₂ WrittenAs records symbols := by
  induction records generalizing index symbols with
  | nil =>
    rw [List.forall₂_nil_left_iff]
    exact ⟨fun made => (Except.ok.inj made).symm, fun empty => empty ▸ rfl⟩
  | cons record rest induction =>
    rw [List.forall₂_cons_left_iff, ofRecords, bind_eq_ok]
    constructor
    · rintro ⟨symbol, here, more⟩
      rcases bind_eq_ok.mp more with ⟨others, there, made⟩
      cases made
      exact ⟨symbol, others, ofRecord_eq_ok.mp here, induction.mp there, rfl⟩
    · rintro ⟨symbol, others, here, there, rfl⟩
      refine ⟨symbol, ofRecord_eq_ok.mpr here, ?_⟩
      exact bind_eq_ok.mpr ⟨others, induction.mpr there, rfl⟩

theorem exists_written_iff {records : List Value} :
    (∃ symbols, List.Forall₂ WrittenAs records symbols) ↔ ∀ record ∈ records, IsRecord record := by
  induction records with
  | nil => exact iff_of_true ⟨[], .nil⟩ nofun
  | cons record rest induction =>
    rw [List.forall_mem_cons, ← exists_writtenAs_iff, ← induction]
    constructor
    · rintro ⟨_, written⟩
      cases written with
      | cons here there => exact ⟨⟨_, here⟩, _, there⟩
    · rintro ⟨⟨symbol, here⟩, symbols, there⟩
      exact ⟨symbol :: symbols, .cons here there⟩

/-! ## The contents of a file -/

/-- Contents that list some records: a list, alone or under `symbols` in a mapping. Null and a
mapping without `symbols` list none. -/
inductive Lists : Value → List Value → Prop
  | null : Lists .null []
  | list {contents : Value} {records : List Value} :
      contents.items? = some records → Lists contents records
  | within {contents list : Value} {records : List Value} :
      contents.field? "symbols" = some list → list.items? = some records → Lists contents records
  | without {contents : Value} : contents.IsMapping → contents.field? "symbols" = none →
      Lists contents []

theorem recordsOf?_eq_some {contents : Value} {records : List Value} :
    recordsOf? contents = some records ↔
      Lists contents records ∨ contents.isEmpty = true ∧ records = [] := by
  by_cases empty : contents.isEmpty = true
  · rw [recordsOf?, if_pos empty, Option.some.injEq, and_iff_right empty]
    refine ⟨fun nothing => .inr nothing.symm, ?_⟩
    rintro (listed | rfl)
    · cases listed with
      | null | without => rfl
      | list inside => rw [Value.items_of_isEmpty empty inside]
      | within found inside =>
        rw [Value.field?_of_isEmpty empty] at found
        cases found
    · rfl
  · rw [recordsOf?, if_neg empty, or_iff_left (fun nothing => empty nothing.1)]
    -- A list has no entries and a mapping no items, so only one of the rules can apply.
    cases inside : contents.entries? with
    | none =>
      have scalar := Value.not_isMapping_iff.mpr inside
      refine ⟨.list, fun listed => ?_⟩
      cases listed with
      | null => exact absurd rfl empty
      | list items => exact items
      | within found items => exact absurd (Value.isMapping_of_field? found) scalar
      | without mapping absent => exact absurd mapping scalar
    | some fields =>
      have mapping : contents.IsMapping := ⟨fields, inside⟩
      have noItems := Value.items?_of_isMapping mapping
      simp only [← Value.field?_eq_lookup? inside]
      cases under : contents.field? "symbols" with
      | none =>
        refine ⟨fun none => Option.some.inj none ▸ .without mapping under, fun listed => ?_⟩
        cases listed with
        | null | without => rfl
        | list items =>
          rw [noItems] at items
          cases items
        | within found items =>
          rw [under] at found
          cases found
      | some list =>
        refine ⟨.within under, fun listed => ?_⟩
        cases listed with
        | null => exact absurd rfl empty
        | list items =>
          rw [noItems] at items
          cases items
        | within found items =>
          rw [under] at found
          cases found
          exact items
        | without mapping absent =>
          rw [under] at absent
          cases absent

theorem recordsOf?_eq_none {contents : Value} :
    recordsOf? contents = none ↔ contents.isEmpty = false ∧ ∀ records, ¬Lists contents records := by
  constructor
  · intro nothing
    refine ⟨Bool.eq_false_iff.mpr fun empty => ?_, fun records listed => ?_⟩
    · rw [recordsOf?_eq_some.mpr (.inr ⟨empty, rfl⟩)] at nothing
      cases nothing
    · rw [recordsOf?_eq_some.mpr (.inl listed)] at nothing
      cases nothing
  · rintro ⟨full, unlisted⟩
    cases found : recordsOf? contents with
    | none => rfl
    | some records =>
      rcases recordsOf?_eq_some.mp found with listed | ⟨empty, _⟩
      · exact absurd listed (unlisted records)
      · rw [full] at empty
        cases empty

theorem ofRecord_ne_notAList {index : Nat} {record : Value} {fileName : Text} :
    ofRecord index record ≠ .error (.notAList fileName) := by
  unfold ofRecord
  split
  · split
    · split <;> nofun
    · nofun
  · nofun

theorem ofRecords_ne_notAList {index : Nat} {records : List Value} {fileName : Text} :
    ofRecords index records ≠ .error (.notAList fileName) := by
  induction records generalizing index with
  | nil => nofun
  | cons record rest induction =>
    rw [ofRecords]
    cases here : ofRecord index record with
    | error error =>
      intro same
      cases same
      exact ofRecord_ne_notAList here
    | ok symbol =>
      cases there : ofRecords (index + 1) rest with
      | error error =>
        intro same
        cases same
        exact induction there
      | ok symbols => nofun

end Symbol

end DocAtlas
