import DocAtlas.Model.Build
import DocAtlas.Proofs.Binding.Entries
import DocAtlas.Proofs.Binding.Order

/-!
# The stages of a run

A run always comes to a model: what binding makes is fresh, so resolving it succeeds.
The entries of the model are the bound entries, settled, and each stage reports its own
kinds of diagnostics, so that what a stage reported can be read off the model.
-/

namespace DocAtlas

namespace Resolution

theorem tags_settledEntries (linkPartners : Bool) (table : SymbolTable) (entries : List Entry) :
    ((settledEntries linkPartners table entries).flatMap (·.tags)).Perm
      (entries.flatMap (·.tags)) := by
  rw [settledEntries, List.flatMap_map]
  exact (sortedByKey_perm entries).flatMap_right _

theorem spans_settledEntries (linkPartners : Bool) (table : SymbolTable) (entries : List Entry) :
    ((settledEntries linkPartners table entries).flatMap (·.spans)).Perm
      (entries.flatMap (·.spans)) := by
  rw [settledEntries, List.flatMap_map]
  exact (sortedByKey_perm entries).flatMap_right _

end Resolution

namespace Run

variable {builder : Builder} {sources : List Source} {table : SymbolTable}

theorem candidates_perm (builder : Builder) (sources : List Source) (table : SymbolTable) :
    (ofSources builder sources table).candidates.Perm
      ((parse builder.markers sources).map (Candidate.ofParsed table (fileOrder sources))) :=
  Candidate.collect_perm _ _ _

/-- The entries that a run binds, each with its references settled. -/
theorem model_eq (builder : Builder) (sources : List Source) (table : SymbolTable) :
    let run := ofSources builder sources table
    run.model = .ok ⟨Resolution.settledEntries builder.linkPartners table run.binding.entries,
      run.diagnostics⟩ := by
  intro run
  have resolved : run.resolution.entries = .ok _ :=
    congrArg Resolution.entries
      (Binding.resolution_ofCandidates builder.linkPartners table run.candidates)
  unfold model
  rw [resolved]
  rfl

/-! ## The diagnostics of each stage -/

theorem resolutionDiagnostics_eq (builder : Builder) (sources : List Source)
    (table : SymbolTable) :
    let run := ofSources builder sources table
    run.resolution.diagnostics = Resolution.danglingDiagnostics table
      (Resolution.settledEntries builder.linkPartners table run.binding.entries) :=
  congrArg Resolution.diagnostics (Binding.resolution_ofCandidates builder.linkPartners table _)

theorem kind_of_mem_scanDiagnostics {run : Run} {diagnostic : Diagnostic}
    (member : diagnostic ∈ run.scanDiagnostics) : diagnostic.kind = .unterminatedComment := by
  obtain ⟨parsed, _, found⟩ := List.mem_filterMap.mp member
  unfold Comment.unterminated? at found
  split at found
  · simp at found
  · cases found
    rfl

theorem mem_tagDiagnostics {run : Run} {diagnostic : Diagnostic} :
    diagnostic ∈ run.tagDiagnostics ↔
      ∃ parsed ∈ run.parsed, ∃ judged ∈ parsed.judged, ∃ fault,
        judged.fault = some fault ∧ fault.diagnostic judged.tag = diagnostic := by
  simp only [tagDiagnostics, ParsedComment.diagnostics, List.mem_flatMap, List.mem_filterMap,
    Option.map_eq_some_iff]

theorem kind_of_mem_tagDiagnostics {run : Run} {diagnostic : Diagnostic}
    (member : diagnostic ∈ run.tagDiagnostics) : diagnostic.kind = .malformedTagArgument := by
  obtain ⟨_, _, _, _, _, _, rfl⟩ := mem_tagDiagnostics.mp member
  rfl

theorem kind_of_mem_bindingDiagnostics {diagnostic : Diagnostic}
    (member : diagnostic ∈ (ofSources builder sources table).binding.diagnostics) :
    diagnostic.kind = .unknownSymbolReference ∨ diagnostic.kind = .orphanedDocumentation :=
  Binding.kind_of_mem_diagnostics member

theorem kind_of_mem_resolutionDiagnostics {diagnostic : Diagnostic}
    (member : diagnostic ∈ (ofSources builder sources table).resolution.diagnostics) :
    diagnostic.kind = .danglingCrossReference := by
  rw [resolutionDiagnostics_eq] at member
  obtain ⟨reference, _, found⟩ := List.mem_filterMap.mp member
  unfold Resolution.diagnostic? at found
  split at found
  · cases found
    rfl
  · simp at found

theorem filter_kind {diagnostics : List Diagnostic} {own : DiagnosticKind}
    (all : ∀ diagnostic ∈ diagnostics, diagnostic.kind = own) (kind : DiagnosticKind) :
    diagnostics.filter (·.kind = kind) = if own = kind then diagnostics else [] := by
  split
  · next equal =>
    apply List.filter_eq_self.mpr
    intro diagnostic member
    rw [all diagnostic member, equal, decide_eq_true rfl]
  · next different =>
    apply List.filter_eq_nil_iff.mpr
    intro diagnostic member
    rw [all diagnostic member, decide_eq_true_eq]
    exact different

/-- Each kind of diagnostic comes from one stage, and only binding has two kinds. -/
theorem diagnosticsOf_eq (builder : Builder) (sources : List Source) (table : SymbolTable)
    (entries : List Entry) (kind : DiagnosticKind) :
    let run := ofSources builder sources table
    (Model.mk entries run.diagnostics).diagnosticsOf kind =
      match kind with
      | .unterminatedComment => run.scanDiagnostics
      | .malformedTagArgument => run.tagDiagnostics
      | .danglingCrossReference => run.resolution.diagnostics
      | .unknownSymbolReference | .orphanedDocumentation =>
        run.binding.diagnostics.filter (·.kind = kind) := by
  intro run
  have scanned : run.scanDiagnostics.filter (·.kind = kind) =
      if .unterminatedComment = kind then run.scanDiagnostics else [] :=
    filter_kind (fun _ member => kind_of_mem_scanDiagnostics member) kind
  have parsed : run.tagDiagnostics.filter (·.kind = kind) =
      if .malformedTagArgument = kind then run.tagDiagnostics else [] :=
    filter_kind (fun _ member => kind_of_mem_tagDiagnostics member) kind
  have resolved : run.resolution.diagnostics.filter (·.kind = kind) =
      if .danglingCrossReference = kind then run.resolution.diagnostics else [] :=
    filter_kind (fun _ member => kind_of_mem_resolutionDiagnostics member) kind
  have bound (other : kind ≠ .unknownSymbolReference ∧ kind ≠ .orphanedDocumentation) :
      run.binding.diagnostics.filter (·.kind = kind) = [] := by
    apply List.filter_eq_nil_iff.mpr
    intro diagnostic member
    rcases kind_of_mem_bindingDiagnostics member with own | own
    · simpa [own] using other.1.symm
    · simpa [own] using other.2.symm
  simp only [Model.diagnosticsOf, diagnostics, List.filter_append, scanned, parsed, resolved]
  cases kind <;> simp [bound]

theorem diagnosticsOf_unbound (builder : Builder) (sources : List Source)
    (table : SymbolTable) (entries : List Entry) :
    let run := ofSources builder sources table
    let model := Model.mk entries run.diagnostics
    (model.diagnosticsOf .unknownSymbolReference ++
      model.diagnosticsOf .orphanedDocumentation).Perm run.binding.diagnostics := by
  intro run model
  have others : run.binding.diagnostics.filter (·.kind = .orphanedDocumentation) =
      run.binding.diagnostics.filter fun diagnostic =>
        !decide (diagnostic.kind = .unknownSymbolReference) := by
    apply List.filter_congr
    intro diagnostic member
    rcases kind_of_mem_bindingDiagnostics member with kind | kind <;> simp [kind]
  rw [diagnosticsOf_eq, diagnosticsOf_eq]
  exact others ▸ List.filter_append_perm _ _

end Run

end DocAtlas
