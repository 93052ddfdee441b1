import DocAtlas.Proofs.Model.Entries

/-!
# Diagnostics as an account of a run

The diagnostics of a model tell of its run, stage by stage: of the comments that are not
closed, of the faulty tags, of the comments that document nothing and of the references
that lead nowhere, each once and in the order of its stage. What is left of the comments
is told by the spans of the entries.
-/

namespace DocAtlas

/-! ## What is reported -/

structure Comment.Unclosed (comment : Comment) (diagnostic : Diagnostic) : Prop where
  kind : diagnostic.kind = .unterminatedComment
  file : diagnostic.file = some comment.span.file
  line : diagnostic.line = some comment.span.startLine
  tags : diagnostic.tags = []

structure JudgedTag.Malformed (judged : JudgedTag) (diagnostic : Diagnostic) : Prop where
  kind : diagnostic.kind = .malformedTagArgument
  file : diagnostic.file = some judged.tag.file
  line : diagnostic.line = some judged.tag.line
  tags : diagnostic.tags = [judged.tag]

structure CrossReference.Dangles (reference : CrossReference) (diagnostic : Diagnostic) :
    Prop where
  kind : diagnostic.kind = .danglingCrossReference
  file : diagnostic.file = reference.file
  line : diagnostic.line = reference.line
  symbol : diagnostic.symbol = some reference.target
  tags : diagnostic.tags = []

namespace Comment

theorem unclosed_of_scan (markers : Markers) (path text : Text) :
    let comments := scan markers path text
    (comments.filter fun comment => !comment.terminated) = [] ∨
      ∃ earlier last, comments = earlier ++ [last] ∧
        (comments.filter fun comment => !comment.terminated) = [last] := by
  intro comments
  cases unclosed : comments.filter fun comment => !comment.terminated with
  | nil => exact .inl rfl
  | cons last others =>
    rcases List.filter_eq_cons_iff.mp unclosed with ⟨earlier, later, split, _, isOpen, behind⟩
    have unterminated : last.terminated = false := by simpa using isOpen
    have atEnd : later = [] := eq_nil_of_unterminated split unterminated
    rw [atEnd] at split behind
    cases behind
    exact .inr ⟨earlier, last, split, rfl⟩

end Comment

namespace Binding

theorem length_diagnostics (table : SymbolTable) (candidates : List Candidate) :
    (ofCandidates table candidates).diagnostics.length =
      (candidates.filter fun candidate => candidate.chosen? table == none).length := by
  rw [ofCandidates, List.length_filterMap_eq_countP, ← List.countP_eq_length_filter]
  simp only [Candidate.isSome_rejection?]

theorem spans_entries (table : SymbolTable) (candidates : List Candidate) :
    (ofCandidates table candidates).entries.flatMap (·.spans) =
      (keys table candidates).flatMap fun key =>
        (candidates.filter fun candidate => candidate.chosen? table == some key).flatMap
          fun candidate => [candidate.parsed.comment.span] := by
  apply flatMap_entries table candidates (·.spans) fun parsed => [parsed.comment.span]
  intro symbol comments
  rw [Entry.ofComments_eq]
  exact List.map_eq_flatMap

theorem length_candidates (table : SymbolTable) (candidates : List Candidate) :
    candidates.length = (ofCandidates table candidates).diagnostics.length +
      ((ofCandidates table candidates).entries.flatMap (·.spans)).length := by
  have spread := flatMap_perm_of_labels (fun candidate => candidate.chosen? table)
    (fun candidate => [candidate.parsed.comment.span]) (keys_nodup table candidates)
    fun candidate member key chosen => mem_keys.mpr ⟨candidate, member, chosen⟩
  have counted := spread.length_eq
  rw [← spans_entries] at counted
  simp only [← List.map_eq_flatMap, List.length_append, List.length_map] at counted
  rw [counted, length_diagnostics, Nat.add_comm]

end Binding

namespace Run

variable (builder : Builder) (sources : List Source) (table : SymbolTable)

theorem scanDiagnostics_unclosed :
    List.Forall₂ (fun parsed : ParsedComment => parsed.comment.Unclosed)
      ((parse builder.markers sources).filter fun parsed => !parsed.comment.terminated)
      (ofSources builder sources table).scanDiagnostics := by
  apply forall₂_filterMap
  · intro parsed closed
    simp only [Bool.not_eq_false'] at closed
    simp [Comment.unterminated?, closed]
  · intro parsed unclosed
    simp only [Bool.not_eq_true'] at unclosed
    refine ⟨parsed.comment.unterminatedDiagnostic, ?_, ⟨rfl, rfl, rfl, rfl⟩⟩
    simp [Comment.unterminated?, unclosed]

theorem tagDiagnostics_malformed :
    List.Forall₂ JudgedTag.Malformed
      (((parse builder.markers sources).flatMap (·.judged)).filter (·.fault.isSome))
      (ofSources builder sources table).tagDiagnostics := by
  have inOrder : (ofSources builder sources table).tagDiagnostics =
      ((parse builder.markers sources).flatMap (·.judged)).filterMap fun judged =>
        judged.fault.map fun fault => fault.diagnostic judged.tag := by
    rw [List.filterMap_flatMap]
    rfl
  rw [inOrder]
  apply forall₂_filterMap
  · intro judged faultless
    rw [Option.isSome_eq_false_iff, Option.isNone_iff_eq_none] at faultless
    rw [faultless, Option.map_none]
  · intro judged faulty
    rcases Option.isSome_iff_exists.mp faulty with ⟨fault, found⟩
    exact ⟨fault.diagnostic judged.tag, by rw [found, Option.map_some], ⟨rfl, rfl, rfl, rfl⟩⟩

theorem candidates_eq_map :
    let candidates := (ofSources builder sources table).candidates
    candidates =
      (candidates.map (·.parsed)).map (Candidate.ofParsed table (fileOrder sources)) := by
  intro candidates
  have made : ∀ candidate ∈ candidates,
      Candidate.ofParsed table (fileOrder sources) candidate.parsed = candidate := by
    intro candidate member
    have listed := (candidates_perm builder sources table).mem_iff.mp member
    rcases List.mem_map.mp listed with ⟨parsed, _, rfl⟩
    rfl
  rw [List.map_map]
  exact ((List.map_congr_left made).trans (List.map_id candidates)).symm

theorem bindingDiagnostics_unbound :
    List.Forall₂ (fun parsed : ParsedComment => parsed.Unbound table)
      (((ofSources builder sources table).candidates.map (·.parsed)).filter fun parsed =>
        ¬∃ key, parsed.Documents table key)
      (ofSources builder sources table).binding.diagnostics := by
  have inOrder : (ofSources builder sources table).binding.diagnostics =
      ((ofSources builder sources table).candidates.map (·.parsed)).filterMap fun parsed =>
        (Candidate.ofParsed table (fileOrder sources) parsed).rejection? table := by
    rw [← Function.comp_def, ← List.filterMap_map, ← candidates_eq_map]
    rfl
  rw [inOrder]
  apply forall₂_filterMap
  · intro parsed documented
    rw [decide_eq_false_iff_not, ← Candidate.isSome_rejection?_ofParsed] at documented
    exact Option.not_isSome_iff_eq_none.mp documented
  · intro parsed undocumented
    rw [decide_eq_true_eq, ← Candidate.isSome_rejection?_ofParsed] at undocumented
    rcases Option.isSome_iff_exists.mp undocumented with ⟨diagnostic, rejected⟩
    exact ⟨diagnostic, rejected, Candidate.rejection?_ofParsed.mp rejected⟩

theorem resolutionDiagnostics_dangle :
    let run := ofSources builder sources table
    let entries := Resolution.settledEntries builder.linkPartners table run.binding.entries
    List.Forall₂ CrossReference.Dangles (Model.dangling ⟨entries, run.diagnostics⟩)
      run.resolution.diagnostics := by
  intro run entries
  rw [resolutionDiagnostics_eq]
  apply forall₂_filterMap
  · intro reference settled
    rw [decide_eq_false_iff_not] at settled
    exact if_neg settled
  · intro reference dangling
    rw [decide_eq_true_eq] at dangling
    exact ⟨_, if_pos dangling, ⟨rfl, rfl, rfl, rfl, rfl⟩⟩

/-- The diagnostics of a model are the reports of four stages, one behind the other. A
comment is told of by one span of an entry or by one report that it documents nothing. -/
theorem diagnostics_account_for_run :
    let run := ofSources builder sources table
    let comments := parse builder.markers sources
    ∃ model, run.model = .ok model ∧
      (∃ unclosed malformed unbound dangling,
        model.diagnostics = unclosed ++ malformed ++ unbound ++ dangling ∧
        List.Forall₂ (fun parsed : ParsedComment => parsed.comment.Unclosed)
          (comments.filter fun parsed => !parsed.comment.terminated) unclosed ∧
        List.Forall₂ JudgedTag.Malformed
          ((comments.flatMap (·.judged)).filter (·.fault.isSome)) malformed ∧
        List.Forall₂ (fun parsed : ParsedComment => parsed.Unbound table)
          ((run.candidates.map (·.parsed)).filter fun parsed =>
            ¬∃ key, parsed.Documents table key) unbound ∧
        List.Forall₂ CrossReference.Dangles model.dangling dangling) ∧
      (run.candidates.map (·.parsed)).Perm comments ∧
      (∀ source ∈ sources,
        let found := Comment.scan builder.markers source.path source.text
        (found.filter fun comment => !comment.terminated) = [] ∨
          ∃ earlier last, found = earlier ++ [last] ∧
            (found.filter fun comment => !comment.terminated) = [last]) ∧
      comments.length =
        (model.diagnosticsOf .unknownSymbolReference).length +
          (model.diagnosticsOf .orphanedDocumentation).length +
          (model.entries.flatMap (·.spans)).length := by
  intro run comments
  let entries := Resolution.settledEntries builder.linkPartners table run.binding.entries
  have shuffled := (candidates_perm builder sources table).map Candidate.parsed
  rw [List.map_map] at shuffled
  have bound : (run.candidates.map (·.parsed)).Perm comments :=
    shuffled.trans (.of_eq (List.map_id comments))
  refine ⟨⟨entries, run.diagnostics⟩, model_eq builder sources table, ?_, bound, ?_, ?_⟩
  · exact ⟨run.scanDiagnostics, run.tagDiagnostics, run.binding.diagnostics,
      run.resolution.diagnostics, rfl, scanDiagnostics_unclosed builder sources table,
      tagDiagnostics_malformed builder sources table,
      bindingDiagnostics_unbound builder sources table,
      resolutionDiagnostics_dangle builder sources table⟩
  · intro source _
    exact Comment.unclosed_of_scan builder.markers source.path source.text
  -- Only binding tells of whole comments, so they are counted before anything is resolved.
  · have told : run.candidates.length = run.binding.diagnostics.length +
        (run.binding.entries.flatMap (·.spans)).length :=
      Binding.length_candidates table run.candidates
    have reports := (diagnosticsOf_unbound builder sources table entries).length_eq
    rw [List.length_append] at reports
    have spans : (entries.flatMap (·.spans)).Perm _ :=
      Resolution.spans_settledEntries builder.linkPartners table run.binding.entries
    have counted := bound.length_eq
    rw [List.length_map] at counted
    rw [← counted, told, reports, spans.length_eq]

end Run

end DocAtlas
