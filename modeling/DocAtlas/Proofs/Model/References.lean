import DocAtlas.Proofs.Model.Stages

/-!
# The references of a model

References are settled before there is a model to look names up in. They still come out
as the finished model would have it: each starts at its entry, and what its target means
there is what the model finds for it.
-/

namespace DocAtlas

namespace Resolution

theorem source_of_mem_referencesOf {links : List Link} {entry : Entry}
    (written : ∀ reference ∈ entry.references, reference.source = entry.key)
    {reference : CrossReference} (member : reference ∈ referencesOf links entry) :
    reference.source = entry.key := by
  rcases List.mem_append.mp member with own | linked
  · exact written reference own
  · obtain ⟨link, inLinks, rfl⟩ := List.mem_map.mp linked
    exact beq_iff_eq.mp (List.mem_filter.mp inLinks).2

end Resolution

def CrossReference.unsettled (reference : CrossReference) : CrossReference :=
  { reference with state := .unresolved }

/-- An entry has its references in their order, whatever states they are in now, and behind
them the links from it, if links are asked for. -/
structure Entry.KeepsReferences (linkPartners : Bool) (bound entry : Entry) (links : List Link) :
    Prop where
  key : entry.key = bound.key
  references : entry.references.map CrossReference.unsettled =
    bound.references ++ links.map Link.toReference
  starts : ∀ link ∈ links, link.source = bound.key
  asked : linkPartners = false → links = []

theorem CrossReference.unsettled_of_unresolved {reference : CrossReference}
    (fresh : reference.state = .unresolved) : reference.unsettled = reference := by
  rw [unsettled, ← fresh]

theorem Resolution.unsettled_settledEntry {entries : List Entry} {links : List Link}
    {entry : Entry} (fresh : entry.Fresh) :
    (settledEntry entries links entry).references.map CrossReference.unsettled =
      referencesOf links entry := by
  have same : ∀ reference ∈ referencesOf links entry,
      (settled entries entry.scope? reference).unsettled = reference := fun reference member =>
    CrossReference.unsettled_of_unresolved (referencesOf_unresolved links fresh reference member)
  rw [settledEntry, List.map_map]
  exact (List.map_congr_left same).trans (List.map_id' _)

namespace Run

/-- Settling a run changes nothing of what was bound but the states of the references. -/
theorem references_are_kept (builder : Builder) (sources : List Source) (table : SymbolTable) :
    let run := ofSources builder sources table
    ∃ model, run.model = .ok model ∧
      List.Forall₂
        (fun bound entry => ∃ links, Entry.KeepsReferences builder.linkPartners bound entry links)
        (Resolution.sortedByKey run.binding.entries) model.entries := by
  intro run
  refine ⟨_, model_eq builder sources table, ?_⟩
  rw [Resolution.settledEntries, List.forall₂_map_right_iff, List.forall₂_same]
  intro bound member
  have fresh := Binding.fresh_of_mem_entries (Resolution.mem_sortedByKey.mp member)
  refine ⟨_, rfl, Resolution.unsettled_settledEntry fresh, fun link inLinks => ?_, fun none => ?_⟩
  · exact beq_iff_eq.mp (List.mem_filter.mp inLinks).2
  · rw [Resolution.links, none, if_neg Bool.false_ne_true, List.filter_nil]

/-- Every reference of a model, written or linked, is settled as the model looks its
target up. A qualified target means itself or nothing; any other target means the key of
its scope, if there is one, before the keys of other scopes. -/
theorem references_agree_with_lookup (builder : Builder) (sources : List Source)
    (table : SymbolTable) :
    ∃ model, (ofSources builder sources table).model = .ok model ∧
      ∀ entry ∈ model.entries, ∀ reference ∈ entry.references,
        reference.source = entry.key ∧ reference.state ≠ .unresolved ∧
        reference.state =
          (match model.lookup? reference.target entry.scope? with
            | some found => .resolved found.key (some found.href)
            | none => .dangling) ∧
        (Name.owner? reference.target ≠ none →
          ∀ key href, reference.state = .resolved key href → key = reference.target) ∧
        (∀ scope, entry.scope? = some scope → Name.owner? reference.target = none →
          reference.target ∉ model.keys → Name.qualify scope reference.target ∈ model.keys →
            reference.state.key? = some (Name.qualify scope reference.target)) := by
  let run := ofSources builder sources table
  let entries := Resolution.settledEntries builder.linkPartners table run.binding.entries
  refine ⟨⟨entries, run.diagnostics⟩, model_eq builder sources table, ?_⟩
  intro entry member reference inside
  obtain ⟨bound, inBinding, rfl⟩ := Resolution.mem_settledEntries.mp member
  obtain ⟨fresh, listed, rfl⟩ := List.mem_map.mp inside
  have nodup : (Resolution.keys run.binding.entries).Nodup := by
    rw [show Resolution.keys run.binding.entries = _ from Binding.keys_ofCandidates _ _]
    exact Binding.keys_nodup _ _
  have sameKeys := Resolution.keys_settledEntries builder.linkPartners table run.binding.entries
  have agrees := Resolution.outcome_eq_lookup? builder.linkPartners table nodup run.diagnostics
    bound.scope? fresh.target
  have means := Resolution.key?_outcome run.binding.entries bound.scope? fresh.target
  refine ⟨?_, ?_, agrees, ?_, ?_⟩
  · have starts : fresh.source = bound.key :=
      Resolution.source_of_mem_referencesOf (Binding.source_of_mem_entries inBinding) listed
    exact starts
  · intro unsettled
    have outcome := agrees.symm.trans unsettled
    split at outcome <;> cases outcome
  · intro qualified key href settled
    have meant : Name.resolve? fresh.target _ bound.scope? = some key :=
      means.symm.trans (congrArg ReferenceState.key? settled)
    exact Name.eq_of_resolve?_qualified qualified meant
  · intro scope inScope unqualified unkeyed keyed
    have meant := Name.resolve?_scoped unqualified
      (fun present => unkeyed (sameKeys.mem_iff.mpr present)) (sameKeys.mem_iff.mp keyed)
    rw [← show bound.scope? = some scope from inScope] at meant
    exact means.trans meant

end Run

end DocAtlas
