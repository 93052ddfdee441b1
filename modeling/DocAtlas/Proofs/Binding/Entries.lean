import DocAtlas.Binding
import DocAtlas.Proofs.Entry.Content
import DocAtlas.Proofs.Lists
import DocAtlas.Proofs.Resolution.Settled

/-!
# The entries of a binding

Every comment is about one symbol of the table, or is rejected with a diagnostic that
carries its tags. The entries are the symbols that some comment is about, each once,
and the comments of an entry are exactly those about its symbol. The tags of all
comments are thereby spread over entries and diagnostics.
-/

namespace DocAtlas

/-! ## The choice of a symbol -/

namespace Candidate

variable {table : SymbolTable} {candidate : Candidate}

theorem choose_eq_ok {symbol : Symbol} :
    candidate.choose table = .ok symbol ↔
      (∃ topic, candidate.explicit = some topic ∧
        table.get? (topic.target.getD []) = some symbol) ∨
      candidate.explicit = none ∧ candidate.adjacent.bind table.get? = some symbol := by
  unfold choose
  cases candidate.explicit with
  | some topic => cases found : table.get? (topic.target.getD []) <;> simp [found]
  | none => cases found : candidate.adjacent.bind table.get? <;> simp

theorem choose_eq_error {diagnostic : Diagnostic} :
    candidate.choose table = .error diagnostic ↔
      (∃ topic, candidate.explicit = some topic ∧ table.get? (topic.target.getD []) = none ∧
        candidate.unknownTarget topic (topic.target.getD []) = diagnostic) ∨
      candidate.explicit = none ∧ candidate.adjacent.bind table.get? = none ∧
        candidate.orphaned = diagnostic := by
  unfold choose
  cases candidate.explicit with
  | some topic => cases found : table.get? (topic.target.getD []) <;> simp [found]
  | none => cases found : candidate.adjacent.bind table.get? <;> simp

theorem get?_of_choose {symbol : Symbol} (chosen : candidate.choose table = .ok symbol) :
    table.get? symbol.name = some symbol := by
  rcases choose_eq_ok.mp chosen with ⟨topic, _, found⟩ | ⟨_, found⟩
  · rw [SymbolTable.name_of_get? found]
    exact found
  · obtain ⟨name, _, known⟩ := Option.bind_eq_some_iff.mp found
    rw [SymbolTable.name_of_get? known]
    exact known

theorem known_of_chosen? {key : Text} (chosen : candidate.chosen? table = some key) :
    ∃ symbol, table.get? key = some symbol := by
  unfold chosen? at chosen
  cases choice : candidate.choose table with
  | error diagnostic => simp [choice] at chosen
  | ok symbol =>
    simp only [choice, Option.some.injEq] at chosen
    exact ⟨symbol, chosen ▸ get?_of_choose choice⟩

theorem rejection_of_choose {diagnostic : Diagnostic}
    (rejected : candidate.choose table = .error diagnostic) :
    diagnostic.tags = candidate.parsed.tags ∧
      (diagnostic.kind = .unknownSymbolReference ∨ diagnostic.kind = .orphanedDocumentation) := by
  rcases choose_eq_error.mp rejected with ⟨topic, _, _, rfl⟩ | ⟨_, _, rfl⟩
  · exact ⟨rfl, .inl rfl⟩
  · exact ⟨rfl, .inr rfl⟩

end Candidate

namespace Binding

variable {table : SymbolTable} {candidates : List Candidate}

theorem mem_keys {key : Text} :
    key ∈ keys table candidates ↔
      ∃ candidate ∈ candidates, candidate.chosen? table = some key := by
  rw [keys, List.mem_eraseDups, List.mem_filterMap]

theorem keys_nodup (table : SymbolTable) (candidates : List Candidate) :
    (keys table candidates).Nodup :=
  nodup_eraseDups _

theorem known_of_mem_keys {key : Text} (member : key ∈ keys table candidates) :
    ∃ symbol, table.get? key = some symbol := by
  obtain ⟨candidate, _, chosen⟩ := mem_keys.mp member
  exact Candidate.known_of_chosen? chosen

theorem mem_entries {entry : Entry} :
    entry ∈ (ofCandidates table candidates).entries ↔
      ∃ symbol, symbol.name ∈ keys table candidates ∧ table.get? symbol.name = some symbol ∧
        Entry.ofComments symbol (commentsOf table candidates symbol.name) = entry := by
  simp only [ofCandidates, List.mem_filterMap, entryOf?, Option.map_eq_some_iff]
  constructor
  · rintro ⟨key, member, symbol, found, made⟩
    cases SymbolTable.name_of_get? found
    exact ⟨symbol, member, found, made⟩
  · rintro ⟨symbol, member, found, made⟩
    exact ⟨symbol.name, member, symbol, found, made⟩

theorem entry_of_chosen? {candidate : Candidate} (member : candidate ∈ candidates) {key : Text}
    (chosen : candidate.chosen? table = some key) :
    ∃ symbol, symbol.name = key ∧
      Entry.ofComments symbol (commentsOf table candidates key) ∈
        (ofCandidates table candidates).entries ∧
      candidate.parsed ∈ commentsOf table candidates key := by
  obtain ⟨symbol, found⟩ := Candidate.known_of_chosen? chosen
  cases SymbolTable.name_of_get? found
  refine ⟨symbol, rfl, ?_, ?_⟩
  · exact mem_entries.mpr ⟨symbol, mem_keys.mpr ⟨candidate, member, chosen⟩, found, rfl⟩
  · refine List.mem_map.mpr ⟨candidate, List.mem_filter.mpr ⟨member, ?_⟩, rfl⟩
    rw [chosen, beq_self_eq_true]

theorem map_entries {α : Type} (view : Entry → α) (ofKey : Text → α)
    (agree : ∀ symbol, view (Entry.ofComments symbol (commentsOf table candidates symbol.name)) =
      ofKey symbol.name) :
    (ofCandidates table candidates).entries.map view = (keys table candidates).map ofKey := by
  have known : ∀ key ∈ keys table candidates, ∃ symbol, table.get? key = some symbol :=
    fun _ member => known_of_mem_keys member
  unfold ofCandidates
  generalize keys table candidates = names at known
  induction names with
  | nil => rfl
  | cons name rest induction =>
    obtain ⟨symbol, found⟩ := known name List.mem_cons_self
    have made : entryOf? table candidates name =
        some (Entry.ofComments symbol (commentsOf table candidates name)) := by
      rw [entryOf?, found, Option.map_some]
    rw [List.filterMap_cons_some made, List.map_cons, List.map_cons,
      induction fun other member => known other (List.mem_cons_of_mem _ member)]
    cases SymbolTable.name_of_get? found
    rw [agree]

theorem keys_ofCandidates (table : SymbolTable) (candidates : List Candidate) :
    Resolution.keys (ofCandidates table candidates).entries = keys table candidates := by
  have same : (ofCandidates table candidates).entries.map Entry.key =
      (keys table candidates).map id := by
    apply map_entries
    intro symbol
    rw [Entry.ofComments_eq]
    rfl
  rw [Resolution.keys, same, List.map_id]

theorem nodup_keys_ofCandidates (table : SymbolTable) (candidates : List Candidate) :
    (Resolution.keys (ofCandidates table candidates).entries).Nodup := by
  rw [keys_ofCandidates]
  exact keys_nodup table candidates

theorem fresh_of_mem_entries {entry : Entry}
    (member : entry ∈ (ofCandidates table candidates).entries) : entry.Fresh := by
  obtain ⟨symbol, _, _, rfl⟩ := mem_entries.mp member
  exact fun reference inside => (Entry.of_mem_references_ofComments inside).unresolved

theorem source_of_mem_entries {entry : Entry}
    (member : entry ∈ (ofCandidates table candidates).entries) :
    ∀ reference ∈ entry.references, reference.source = entry.key := by
  obtain ⟨symbol, _, _, rfl⟩ := mem_entries.mp member
  intro reference inside
  rw [(Entry.of_mem_references_ofComments inside).source_eq, Entry.ofComments_eq]

theorem explicit_of_mem_entries {entry : Entry}
    (member : entry ∈ (ofCandidates table candidates).entries) :
    ∀ reference ∈ entry.references, reference.origin ≠ .implicit := by
  rcases mem_entries.mp member with ⟨symbol, _, _, rfl⟩
  exact fun reference inside => (Entry.of_mem_references_ofComments inside).explicit

theorem kind_of_mem_diagnostics {diagnostic : Diagnostic}
    (member : diagnostic ∈ (ofCandidates table candidates).diagnostics) :
    diagnostic.kind = .unknownSymbolReference ∨ diagnostic.kind = .orphanedDocumentation := by
  obtain ⟨candidate, _, rejected⟩ := List.mem_filterMap.mp member
  unfold Candidate.rejection? at rejected
  cases choice : candidate.choose table with
  | ok symbol => simp [choice] at rejected
  | error other =>
    simp only [choice, Option.some.injEq] at rejected
    exact rejected ▸ (Candidate.rejection_of_choose choice).2

/-- Resolving what binding made always succeeds. -/
theorem resolution_ofCandidates (linkPartners : Bool) (table : SymbolTable)
    (candidates : List Candidate) :
    let entries := (ofCandidates table candidates).entries
    Resolution.ofEntries linkPartners table entries =
      ⟨.ok (Resolution.settledEntries linkPartners table entries),
        Resolution.danglingDiagnostics table
          (Resolution.settledEntries linkPartners table entries)⟩ :=
  Resolution.ofEntries_of_fresh linkPartners table fun _ member => fresh_of_mem_entries member

/-! ## The tags -/

theorem flatMap_entries {α : Type} (table : SymbolTable) (candidates : List Candidate)
    (view : Entry → List α) (taken : ParsedComment → List α)
    (agree : ∀ symbol comments, view (Entry.ofComments symbol comments) =
      comments.flatMap taken) :
    (ofCandidates table candidates).entries.flatMap view =
      (keys table candidates).flatMap fun key =>
        (candidates.filter fun candidate => candidate.chosen? table == some key).flatMap
          fun candidate => taken candidate.parsed := by
  rw [List.flatMap_def, map_entries view
    (fun key => (commentsOf table candidates key).flatMap taken), ← List.flatMap_def]
  · simp only [commentsOf, List.flatMap_map]
  · exact fun symbol => agree symbol _

theorem tags_entries (table : SymbolTable) (candidates : List Candidate) :
    (ofCandidates table candidates).entries.flatMap (·.tags) =
      (keys table candidates).flatMap fun key =>
        (candidates.filter fun candidate => candidate.chosen? table == some key).flatMap
          (·.parsed.tags) := by
  apply flatMap_entries
  intro symbol comments
  rw [Entry.ofComments_eq]

theorem tags_diagnostics (table : SymbolTable) (candidates : List Candidate) :
    (ofCandidates table candidates).diagnostics.flatMap (·.tags) =
      (candidates.filter fun candidate => candidate.chosen? table == none).flatMap
        (·.parsed.tags) := by
  unfold ofCandidates
  induction candidates with
  | nil => rfl
  | cons candidate rest induction =>
    cases choice : candidate.choose table with
    | ok symbol => simpa [Candidate.rejection?, Candidate.chosen?, choice] using induction
    | error diagnostic =>
      have carried := (Candidate.rejection_of_choose choice).1
      simpa [Candidate.rejection?, Candidate.chosen?, choice, carried] using induction

/-- Every tag of every comment goes into one entry or into one diagnostic. -/
theorem tags_perm (table : SymbolTable) (candidates : List Candidate) :
    (candidates.flatMap (·.parsed.tags)).Perm
      ((ofCandidates table candidates).entries.flatMap (·.tags) ++
        (ofCandidates table candidates).diagnostics.flatMap (·.tags)) := by
  rw [tags_entries, tags_diagnostics]
  apply flatMap_perm_of_labels _ _ (keys_nodup table candidates)
  exact fun candidate member key chosen => mem_keys.mpr ⟨candidate, member, chosen⟩

end Binding

end DocAtlas
