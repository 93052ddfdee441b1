import DocAtlas.Proofs.Binding.Choice
import DocAtlas.Proofs.Binding.Sequence
import DocAtlas.Proofs.Model.Stages
import DocAtlas.Proofs.Tag.Faults

/-!
# The entries of a model

A model has an entry for every symbol that some comment documents, and for no other. The
entry is named and placed as the symbol is, and it tells where its comments stand, in
the order of the files and of the places in them.
-/

namespace DocAtlas

namespace Binding

theorem commentsOf_map (table : SymbolTable) (files : List Text) (comments : List ParsedComment)
    (key : Text) :
    commentsOf table (comments.map (Candidate.ofParsed table files)) key =
      comments.filter fun parsed => parsed.Documents table key := by
  rw [commentsOf, List.filter_map, List.map_map]
  have same : (fun parsed : ParsedComment => decide (parsed.Documents table key)) =
      (fun candidate : Candidate => candidate.chosen? table == some key) ∘
        Candidate.ofParsed table files := by
    funext parsed
    rw [Function.comp_apply, Bool.eq_iff_iff, decide_eq_true_eq, beq_iff_eq,
      Candidate.chosen?_ofParsed]
  rw [same]
  exact List.map_id _

theorem commentsOf_perm (table : SymbolTable) {candidates others : List Candidate}
    (shuffled : candidates.Perm others) (key : Text) :
    (commentsOf table candidates key).Perm (commentsOf table others key) :=
  (shuffled.filter _).map _

end Binding

namespace Run

variable {builder : Builder} {sources : List Source} {table : SymbolTable}

theorem mem_keys_candidates {key : Text} :
    key ∈ Binding.keys table (ofSources builder sources table).candidates ↔
      ∃ parsed ∈ parse builder.markers sources, parsed.Documents table key := by
  have shuffled := candidates_perm builder sources table
  simp only [Binding.mem_keys, shuffled.mem_iff, List.mem_map, exists_exists_and_eq_and,
    Candidate.chosen?_ofParsed]

theorem mem_keys_entries {key : Text} :
    key ∈ Resolution.keys (ofSources builder sources table).binding.entries ↔
      ∃ parsed ∈ parse builder.markers sources, parsed.Documents table key := by
  have keysOf : Resolution.keys (ofSources builder sources table).binding.entries =
      Binding.keys table (ofSources builder sources table).candidates :=
    Binding.keys_ofCandidates table _
  rw [keysOf]
  exact mem_keys_candidates

theorem mem_keys_model {model : Model} (built : (ofSources builder sources table).model = .ok model)
    {key : Text} :
    key ∈ model.keys ↔ ∃ parsed ∈ parse builder.markers sources, parsed.Documents table key := by
  cases (model_eq builder sources table).symm.trans built
  exact (Resolution.keys_settledEntries _ _ _).mem_iff.trans mem_keys_entries

theorem nodup_keys_model {model : Model}
    (built : (ofSources builder sources table).model = .ok model) : model.keys.Nodup := by
  cases (model_eq builder sources table).symm.trans built
  exact (Resolution.keys_settledEntries _ _ _).nodup_iff.mpr
    (Binding.nodup_keys_ofCandidates table _)

theorem commentsOf_candidates (builder : Builder) (sources : List Source) (table : SymbolTable)
    (key : Text) :
    (Binding.commentsOf table (ofSources builder sources table).candidates key).Perm
      ((parse builder.markers sources).filter fun parsed => parsed.Documents table key) := by
  rw [← Binding.commentsOf_map table (fileOrder sources)]
  exact Binding.commentsOf_perm table (candidates_perm builder sources table) key

theorem commentsOf_pairwise (distinct : (fileOrder sources).Nodup) (key : Text) :
    (Binding.commentsOf table (ofSources builder sources table).candidates key).Pairwise
      (ParsedComment.Precedes (fileOrder sources)) := by
  have inSequence : (ofSources builder sources table).candidates =
      (parse builder.markers sources).map (Candidate.ofParsed table (fileOrder sources)) :=
    collect_parse distinct table
  rw [inSequence, Binding.commentsOf_map]
  apply List.Pairwise.filter
  exact (parse_pairwise_precedes distinct).imp And.left

/-- The keys of a model are the names of the symbols that comments document, in ascending
order. Each entry has the place of its symbol, and the spans of the comments about it: in
the order of the files and of the offsets, if no two files have one path. Only topics
name symbols for a comment. -/
theorem entries_are_documented (builder : Builder) (sources : List Source)
    (table : SymbolTable) :
    let comments := parse builder.markers sources
    ∃ model, (ofSources builder sources table).model = .ok model ∧
      (∀ parsed ∈ comments, ∀ tag ∈ parsed.tags, tag.target ≠ none →
        tag.kind.isTopic = true) ∧
      (∀ key, key ∈ model.keys ↔ ∃ parsed ∈ comments, parsed.Documents table key) ∧
      (model.keys.Pairwise fun first second => Text.le first second = true ∧ first ≠ second) ∧
      ∀ entry ∈ model.entries,
        (∃ symbol, table.get? entry.key = some symbol ∧ symbol.name = entry.key ∧
          entry.kind = symbol.kind ∧ entry.anchor = symbol.anchor ∧
          entry.page = symbol.page) ∧
        ∃ own : List ParsedComment, entry.spans = own.map (·.comment.span) ∧
          own.Perm (comments.filter fun parsed => parsed.Documents table entry.key) ∧
          ((fileOrder sources).Nodup →
            own.Pairwise (ParsedComment.Precedes (fileOrder sources))) := by
  intro comments
  let run := ofSources builder sources table
  have keysOf : Resolution.keys run.binding.entries = Binding.keys table run.candidates :=
    Binding.keys_ofCandidates table run.candidates
  have nodup : (Resolution.keys run.binding.entries).Nodup := by
    rw [keysOf]
    exact Binding.keys_nodup table run.candidates
  refine ⟨_, model_eq builder sources table, ?_, ?_, ?_, ?_⟩
  · intro parsed member tag inside names
    rcases List.mem_map.mp inside with ⟨judged, made, rfl⟩
    exact (made_of_mem_parse member made).isTopic_of_target names
  · intro key
    have sameKeys := Resolution.keys_settledEntries builder.linkPartners table run.binding.entries
    refine sameKeys.mem_iff.trans ?_
    rw [keysOf, mem_keys_candidates]
  · exact Resolution.keys_settledEntries_pairwise builder.linkPartners table nodup
  · intro entry member
    rcases Resolution.mem_settledEntries.mp member with ⟨bound, inBinding, rfl⟩
    rcases Binding.mem_entries.mp inBinding with ⟨symbol, _, found, rfl⟩
    rw [Entry.ofComments_eq]
    exact ⟨⟨symbol, found, rfl, rfl, rfl, rfl⟩, _, rfl,
      commentsOf_candidates builder sources table symbol.name,
      fun distinct => commentsOf_pairwise distinct symbol.name⟩

/-- Three comments in two files, two of them about one symbol. -/
theorem entries_of_two_files :
    let builder : Builder := ⟨⟨["/*!"], by decide⟩, false, 1, by decide⟩
    let sources : List Source :=
      [⟨"b.h", "/*! \\variable x */ /*! below */ int y;"⟩, ⟨"a.h", "/*! above */\nint x;"⟩]
    let table := SymbolTable.ofList
      [⟨.variableKind, "x", some ⟨"a.h", .number 2⟩, none, []⟩,
        ⟨.variableKind, "y", some ⟨"b.h", .number 1⟩, none, []⟩]
    (fileOrder sources).Nodup ∧
      ∃ model, (ofSources builder sources table).model = .ok model ∧
        ∀ entry ∈ model.entries, ∃ own : List ParsedComment,
          entry.spans = own.map (·.comment.span) ∧
          own.Perm ((parse builder.markers sources).filter fun parsed =>
            parsed.Documents table entry.key) ∧
          own.Pairwise (ParsedComment.Precedes (fileOrder sources)) := by
  intro builder sources table
  have distinct : (fileOrder sources).Nodup := by decide
  rcases entries_are_documented builder sources table with ⟨model, built, _, _, _, entries⟩
  refine ⟨distinct, model, built, ?_⟩
  intro entry member
  rcases entries entry member with ⟨_, own, spans, documented, inOrder⟩
  exact ⟨own, spans, documented, inOrder distinct⟩

end Run

end DocAtlas
