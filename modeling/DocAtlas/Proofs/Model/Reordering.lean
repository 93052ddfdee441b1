import DocAtlas.Proofs.Model.Entries
import DocAtlas.Proofs.Resolution.Reordering

/-!
# Models of the same sources in another order

The order of the sources decides which comments of a symbol come first, and so what its
brief is and how its tags are ordered. It decides nothing else.
-/

namespace DocAtlas.Run

variable {builder : Builder} {sources others : List Source}

theorem parse_perm (shuffled : others.Perm sources) (markers : Markers) :
    (parse markers others).Perm (parse markers sources) :=
  (shuffled.flatMap_right _).map _

/-! ## Entries -/

theorem commentsOf_perm (shuffled : others.Perm sources) (table : SymbolTable) (key : Text) :
    (Binding.commentsOf table (ofSources builder others table).candidates key).Perm
      (Binding.commentsOf table (ofSources builder sources table).candidates key) := by
  have comments := (parse_perm shuffled builder.markers).filter fun parsed =>
    decide (parsed.Documents table key)
  exact ((commentsOf_candidates builder others table key).trans comments).trans
    (commentsOf_candidates builder sources table key).symm

theorem exists_rearranges (shuffled : others.Perm sources) (table : SymbolTable) :
    ∀ entry ∈ (ofSources builder sources table).binding.entries,
      ∃ other ∈ (ofSources builder others table).binding.entries, entry.Rearranges other := by
  intro entry member
  rcases Binding.mem_entries.mp member with ⟨symbol, listed, known, rfl⟩
  have alsoListed :
      symbol.name ∈ Binding.keys table (ofSources builder others table).candidates := by
    rcases mem_keys_candidates.mp listed with ⟨parsed, inside, documents⟩
    have there := (parse_perm shuffled builder.markers).mem_iff.mpr inside
    exact mem_keys_candidates.mpr ⟨parsed, there, documents⟩
  exact ⟨_, Binding.mem_entries.mpr ⟨symbol, alsoListed, known, rfl⟩,
    Entry.rearranges_of_perm symbol (commentsOf_perm shuffled table symbol.name)⟩

theorem entries_rearranged (shuffled : others.Perm sources) (table : SymbolTable) :
    Resolution.Rearranged (ofSources builder sources table).binding.entries
      (ofSources builder others table).binding.entries where
  nodup := Binding.nodup_keys_ofCandidates table _
  otherNodup := Binding.nodup_keys_ofCandidates table _
  forth := exists_rearranges shuffled table
  back := exists_rearranges shuffled.symm table

/-! ## Diagnostics -/

/-- Whether a comment is rejected, and how, has nothing to do with the other files. -/
theorem bindingDiagnostics_perm (builder : Builder) (sources : List Source)
    (table : SymbolTable) :
    (ofSources builder sources table).binding.diagnostics.Perm
      ((parse builder.markers sources).filterMap fun parsed =>
        (Candidate.ofParsed table [] parsed).rejection? table) := by
  have rejected := (candidates_perm builder sources table).filterMap (·.rejection? table)
  rw [List.filterMap_map] at rejected
  exact rejected

theorem diagnostics_perm (shuffled : others.Perm sources) (table : SymbolTable) :
    (ofSources builder others table).diagnostics.Perm
      (ofSources builder sources table).diagnostics := by
  have comments := parse_perm shuffled builder.markers
  have scanned : (ofSources builder others table).scanDiagnostics.Perm
      (ofSources builder sources table).scanDiagnostics :=
    comments.filterMap _
  have judged : (ofSources builder others table).tagDiagnostics.Perm
      (ofSources builder sources table).tagDiagnostics :=
    comments.flatMap_right _
  have bound : (ofSources builder others table).binding.diagnostics.Perm
      (ofSources builder sources table).binding.diagnostics :=
    ((bindingDiagnostics_perm builder others table).trans (comments.filterMap _)).trans
      (bindingDiagnostics_perm builder sources table).symm
  have resolved : (ofSources builder others table).resolution.diagnostics.Perm
      (ofSources builder sources table).resolution.diagnostics := by
    rw [resolutionDiagnostics_eq, resolutionDiagnostics_eq]
    exact (entries_rearranged shuffled table).danglingDiagnostics_perm _ table
  exact ((scanned.append judged).append bound).append resolved

/-- The order of the sources decides only in which order things are merged. Models of the
same sources have the same keys; their entries hold the same tags, spans and settled
references, each as often, under the same flags; and they report the same. -/
theorem same_up_to_order (builder : Builder) {sources others : List Source}
    (shuffled : others.Perm sources) (table : SymbolTable) :
    ∃ model other,
      (ofSources builder sources table).model = .ok model ∧
      (ofSources builder others table).model = .ok other ∧
      other.keys = model.keys ∧
      List.Forall₂ Entry.Rearranges model.entries other.entries ∧
      other.diagnostics.Perm model.diagnostics := by
  have rearranged : Resolution.Rearranged (ofSources builder sources table).binding.entries
      (ofSources builder others table).binding.entries :=
    entries_rearranged shuffled table
  refine ⟨_, _, model_eq builder sources table, model_eq builder others table, ?_, ?_, ?_⟩
  · exact rearranged.keys_settledEntries_eq builder.linkPartners table
  · exact rearranged.settledEntries_rearranges builder.linkPartners table
  · exact diagnostics_perm shuffled table

/-- Two files about one property, the one with its reader in front of the other or behind
it. -/
theorem same_for_swapped_files :
    let builder : Builder := ⟨⟨["/*!"], by decide⟩, true, 1, by decide⟩
    let first : Source := ⟨"a.h", "/*! \\property p\n\\brief First. */ /*! \\fn q */"⟩
    let second : Source := ⟨"b.h", "/*! \\property p\n\\brief Second. \\sa missing */"⟩
    let table := SymbolTable.ofList
      [⟨.propertyKind, "p", none, none, [(.text "read", .text "q")]⟩,
        ⟨.functionKind, "q", none, none, []⟩]
    [second, first].Perm [first, second] ∧ [second, first] ≠ [first, second] ∧
      ∃ model other,
        (ofSources builder [first, second] table).model = .ok model ∧
        (ofSources builder [second, first] table).model = .ok other ∧
        "p".toList ∈ model.keys ∧ other.keys = model.keys ∧
        List.Forall₂ Entry.Rearranges model.entries other.entries ∧
        other.diagnostics.Perm model.diagnostics := by
  intro builder first second table
  have shuffled : [second, first].Perm [first, second] := .swap _ _ _
  have different : [second, first] ≠ [first, second] := by decide
  rcases same_up_to_order builder shuffled table with
    ⟨model, other, built, rebuilt, keys, entries, diagnostics⟩
  have documented : ∃ parsed ∈ parse builder.markers [first, second],
      parsed.Documents table "p".toList := by
    decide +kernel
  have listed : "p".toList ∈ model.keys := (mem_keys_model built).mpr documented
  exact ⟨shuffled, different, model, other, built, rebuilt, listed, keys, entries, diagnostics⟩

end DocAtlas.Run
