import DocAtlas.Proofs.Binding.Extension
import DocAtlas.Proofs.Model.Entries

/-!
# Models of more sources

Sources that are added behind others, under other paths, extend the model: its entries
stay and are continued. A written reference may come to mean something else, but not one
that finds a key by its full name.
-/

namespace DocAtlas

def Entry.written (entry : Entry) : List CrossReference :=
  entry.references.filter fun reference => reference.origin ≠ .implicit

/-- A reference before and after something was added to what it refers to. -/
structure CrossReference.Survives (before after : CrossReference) : Prop where
  same : after = { before with state := after.state }
  found : Name.owner? before.target ≠ none → ∀ key href,
    before.state = .resolved key href → after.state = .resolved key href

namespace Resolution

theorem written_settledEntry {entry : Entry} (entries : List Entry) (links : List Link)
    (explicit : ∀ reference ∈ entry.references, reference.origin ≠ .implicit) :
    (settledEntry entries links entry).written =
      entry.references.map (settled entries entry.scope?) := by
  simp only [Entry.written, settledEntry, referencesOf, List.map_append, List.filter_append]
  rw [List.filter_eq_self.mpr, List.filter_eq_nil_iff.mpr, List.append_nil]
  · intro reference member
    rcases List.mem_map.mp member with ⟨linked, inside, rfl⟩
    rcases List.mem_map.mp inside with ⟨link, _, rfl⟩
    simp [settled, Link.toReference]
  · intro reference member
    rcases List.mem_map.mp member with ⟨own, inside, rfl⟩
    exact decide_eq_true (explicit own inside)

section

variable {entries more : List Entry} (nodup : (keys entries).Nodup) (moreNodup : (keys more).Nodup)
  (continued : ∀ entry ∈ entries, ∃ later ∈ more, entry.Continues later)

include nodup moreNodup continued

/-- A qualified name can only mean the key that it is, and the place of that key stays. -/
theorem survives_settled (scope moreScope : Option Text) (reference : CrossReference) :
    (settled entries scope reference).Survives (settled more moreScope reference) := by
  constructor
  case same => rfl
  case found =>
    intro qualified key href state
    have before : outcome entries scope reference.target = .resolved key href := state
    have meant := key?_outcome entries scope reference.target
    rw [before] at meant
    have own : key = reference.target := Name.eq_of_resolve?_qualified qualified meant.symm
    rcases List.mem_map.mp (Name.mem_of_resolve? meant.symm) with ⟨entry, member, named⟩
    rcases continued entry member with ⟨later, inside, continues⟩
    have here := outcome_of_mem nodup member scope
    have there := outcome_of_mem moreNodup inside moreScope
    rw [continues.key, continues.href] at there
    rw [named, own] at here there
    exact (there.trans here.symm).trans before

theorem written_survives {entry later : Entry} (links moreLinks : List Link)
    (explicit : ∀ reference ∈ entry.references, reference.origin ≠ .implicit)
    (laterExplicit : ∀ reference ∈ later.references, reference.origin ≠ .implicit)
    (ahead : entry.references <+: later.references) :
    ∃ kept added, (settledEntry more moreLinks later).written = kept ++ added ∧
      List.Forall₂ CrossReference.Survives (settledEntry entries links entry).written kept := by
  rcases ahead with ⟨added, whole⟩
  refine ⟨entry.references.map (settled more later.scope?), added.map (settled more later.scope?),
    ?_, ?_⟩
  · rw [written_settledEntry more moreLinks laterExplicit, ← whole, List.map_append]
  · rw [written_settledEntry entries links explicit]
    apply List.forall₂_map_left_iff.mpr
    apply List.forall₂_map_right_iff.mpr
    exact List.forall₂_same.mpr fun reference _ =>
      survives_settled nodup moreNodup continued entry.scope? later.scope? reference

end

end Resolution

namespace Run

variable {builder : Builder} {sources more : List Source} {table : SymbolTable} {entry : Entry}

theorem mem_tags_of_documents (bound : entry ∈ (ofSources builder sources table).binding.entries)
    {parsed : ParsedComment} (member : parsed ∈ parse builder.markers sources)
    (documents : parsed.Documents table entry.key) {tag : Tag} (inside : tag ∈ parsed.tags) :
    tag ∈ entry.tags := by
  rcases Binding.mem_entries.mp bound with ⟨symbol, _, _, rfl⟩
  have comments := commentsOf_candidates builder sources table symbol.name
  rw [Entry.ofComments_eq] at documents ⊢
  have own : parsed ∈ Binding.commentsOf table (ofSources builder sources table).candidates
      symbol.name :=
    comments.mem_iff.mpr (List.mem_filter.mpr ⟨member, decide_eq_true documents⟩)
  exact List.mem_flatMap.mpr ⟨parsed, own, inside⟩

theorem continues_of_separate (separate : ∀ file ∈ fileOrder more, file ∉ fileOrder sources)
    (bound : entry ∈ (ofSources builder sources table).binding.entries) :
    ∃ later ∈ (ofSources builder (sources ++ more) table).binding.entries,
      entry.Continues later ∧ entry.references <+: later.references := by
  rcases candidates_append builder separate table with ⟨added, appended⟩
  have longer :
      (ofSources builder (sources ++ more) table).binding = Binding.ofCandidates table _ :=
    congrArg (Binding.ofCandidates table) appended
  rw [longer]
  exact Binding.continues_of_append added bound

/-- Sources that are added under other paths extend a model. Its keys stay, and what their
entries hold stays in front, with the brief if it is written. A written reference that found
a key by its full name finds it as before. -/
theorem added_sources_extend (builder : Builder) {sources more : List Source}
    (separate : ∀ file ∈ fileOrder more, file ∉ fileOrder sources) (table : SymbolTable) :
    ∃ model extended,
      (ofSources builder sources table).model = .ok model ∧
      (ofSources builder (sources ++ more) table).model = .ok extended ∧
      model.keys ⊆ extended.keys ∧
      ∀ entry ∈ model.entries, ∃ later, extended.get? entry.key = some later ∧
        entry.tags <+: later.tags ∧ entry.spans <+: later.spans ∧
        entry.flags.labels ⊆ later.flags.labels ∧
        (∃ kept added, later.written = kept ++ added ∧
          List.Forall₂ CrossReference.Survives entry.written kept) ∧
        ((∃ parsed ∈ parse builder.markers sources, parsed.Documents table entry.key ∧
            ∃ tag ∈ parsed.tags, tag.kind = .brief ∧ tag.body ≠ []) →
          later.brief = entry.brief) := by
  let run := ofSources builder sources table
  let longer := ofSources builder (sources ++ more) table
  have nodup : (Resolution.keys run.binding.entries).Nodup :=
    Binding.nodup_keys_ofCandidates table run.candidates
  have longerNodup : (Resolution.keys longer.binding.entries).Nodup :=
    Binding.nodup_keys_ofCandidates table longer.candidates
  have continued : ∀ entry ∈ run.binding.entries, ∃ later ∈ longer.binding.entries,
      entry.Continues later := by
    intro entry bound
    rcases continues_of_separate separate bound with ⟨later, inside, continues, _⟩
    exact ⟨later, inside, continues⟩
  refine ⟨_, _, model_eq builder sources table, model_eq builder (sources ++ more) table, ?_, ?_⟩
  · intro key member
    rcases List.mem_map.mp member with ⟨settled, listed, rfl⟩
    rcases Resolution.mem_settledEntries.mp listed with ⟨bound, inBinding, rfl⟩
    rcases continued bound inBinding with ⟨later, inside, continues⟩
    exact List.mem_map.mpr ⟨_, Resolution.mem_settledEntries.mpr ⟨later, inside, rfl⟩,
      continues.key⟩
  · intro settled listed
    rcases Resolution.mem_settledEntries.mp listed with ⟨bound, inBinding, rfl⟩
    rcases continues_of_separate separate inBinding with ⟨later, inside, continues, ahead⟩
    have found : Resolution.find? longer.binding.entries bound.key = some later :=
      (Resolution.find?_eq_some longerNodup).mpr ⟨inside, continues.key⟩
    have settledFound := Resolution.find?_settledEntries builder.linkPartners table longerNodup
      bound.key
    rw [found, Option.map_some] at settledFound
    refine ⟨_, settledFound, continues.tags, continues.spans, continues.flags, ?_, ?_⟩
    · exact Resolution.written_survives nodup longerNodup continued _ _
        (Binding.explicit_of_mem_entries inBinding) (Binding.explicit_of_mem_entries inside) ahead
    · rintro ⟨parsed, member, documents, tag, written, isBrief, stated⟩
      exact continues.brief tag (mem_tags_of_documents inBinding member documents written)
        isBrief stated

/-- A variable with a brief and a reference in one file, and more about it in a file that is
added. -/
theorem added_file_extends_variable :
    let builder : Builder := ⟨⟨["/*!"], by decide⟩, false, 1, by decide⟩
    let sources : List Source :=
      [⟨"a.h", "/*! \\brief First.\n\\sa S::y */ int x;\n/*! \\variable S::y */"⟩]
    let more : List Source := [⟨"b.h", "/*! \\variable x\n\\brief Second. */"⟩]
    let table := SymbolTable.ofList
      [⟨.variableKind, "x", some ⟨"a.h", .number 2⟩, none, []⟩,
        ⟨.variableKind, "S::y", none, none, []⟩]
    (∀ file ∈ fileOrder more, file ∉ fileOrder sources) ∧
      ∃ model extended,
        (ofSources builder sources table).model = .ok model ∧
        (ofSources builder (sources ++ more) table).model = .ok extended ∧
        ∃ entry ∈ model.entries, ∃ later, entry.key = "x".toList ∧
          extended.get? "x".toList = some later ∧ entry.tags <+: later.tags ∧
          later.brief = entry.brief ∧
          ∃ before ∈ entry.written, ∃ after ∈ later.written,
            before.target = "S::y".toList ∧ after.state = before.state ∧
            before.state = .resolved "S::y" (some "s.html#y-var") := by
  intro builder sources more table
  have separate : ∀ file ∈ fileOrder more, file ∉ fileOrder sources := by decide
  have briefed : ∃ parsed ∈ parse builder.markers sources, parsed.Documents table "x".toList ∧
      ∃ tag ∈ parsed.tags, tag.kind = .brief ∧ tag.body ≠ [] := by decide +kernel
  let run := ofSources builder sources table
  have collected : run.candidates =
      (parse builder.markers sources).map (Candidate.ofParsed table (fileOrder sources)) :=
    collect_parse (by decide) table
  have refers : ∃ bound ∈ run.binding.entries, bound.key = "x".toList ∧
      ∃ reference ∈ bound.references, reference.target = "S::y".toList ∧
        Resolution.outcome run.binding.entries bound.scope? reference.target =
          .resolved "S::y" (some "s.html#y-var") := by
    change ∃ bound ∈ (Binding.ofCandidates table run.candidates).entries, bound.key = "x".toList ∧
      ∃ reference ∈ bound.references, reference.target = "S::y".toList ∧
        Resolution.outcome (Binding.ofCandidates table run.candidates).entries bound.scope?
          reference.target = .resolved "S::y" (some "s.html#y-var")
    rw [collected]
    decide +kernel
  rcases refers with ⟨bound, inBinding, key, reference, inside, target, found⟩
  rcases added_sources_extend builder separate table with
    ⟨model, extended, built, rebuilt, _, entries⟩
  cases (model_eq builder sources table).symm.trans built
  let links := Resolution.links builder.linkPartners table run.binding.entries
  let entry := Resolution.settledEntry run.binding.entries links bound
  have member : entry ∈ Resolution.settledEntries builder.linkPartners table run.binding.entries :=
    Resolution.mem_settledEntries.mpr ⟨bound, inBinding, rfl⟩
  rcases entries entry member with ⟨later, there, tags, _, _, ⟨kept, added, parts, survive⟩, brief⟩
  let before := Resolution.settled run.binding.entries bound.scope? reference
  have written : before ∈ entry.written := by
    rw [Resolution.written_settledEntry _ _ (Binding.explicit_of_mem_entries inBinding)]
    exact List.mem_map_of_mem inside
  have resolved : before.state = .resolved "S::y" (some "s.html#y-var") := found
  rcases exists_right_of_forall₂ survive written with ⟨after, inKept, survives⟩
  have qualified : Name.owner? before.target ≠ none := by
    change Name.owner? reference.target ≠ none
    rw [target]
    decide
  have same := survives.found qualified _ _ resolved
  rw [show entry.key = "x".toList from key] at there brief
  refine ⟨separate, _, extended, built, rebuilt, entry, member, later, key, there, tags,
    brief briefed, before, written, after, ?_, target, same.trans resolved.symm, resolved⟩
  rw [parts]
  exact List.mem_append_left added inKept

end Run

end DocAtlas
