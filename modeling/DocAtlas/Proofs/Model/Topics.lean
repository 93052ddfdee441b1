import DocAtlas.Proofs.Model.Entries

/-!
# What becomes of the topics

A comment is bound as a whole, to the symbol that its first naming topic names. If the
table does not know that symbol, a diagnostic carries all tags of the comment. If it does,
the symbol has an entry, and all tags of the comment are in it: the later topics too, so
that a symbol named only by a later topic has no entry of its own.
-/

namespace DocAtlas

namespace Run

variable {builder : Builder} {sources : List Source} {table : SymbolTable}
  {parsed : ParsedComment}

theorem candidate_of_mem_parse (member : parsed ∈ parse builder.markers sources) :
    Candidate.ofParsed table (fileOrder sources) parsed ∈
      (ofSources builder sources table).candidates := by
  apply (candidates_perm builder sources table).mem_iff.mpr
  exact List.mem_map_of_mem member

/-- A comment that documents a symbol is part of the entry of that symbol. -/
theorem entry_of_documents (member : parsed ∈ parse builder.markers sources) {key : Text}
    (documents : parsed.Documents table key) :
    let bound := (ofSources builder sources table).binding.entries
    ∃ entry ∈ Resolution.settledEntries builder.linkPartners table bound,
      entry.key = key ∧ parsed.tags <:+: entry.tags := by
  intro bound
  have chosen : (Candidate.ofParsed table (fileOrder sources) parsed).chosen? table = some key :=
    Candidate.chosen?_ofParsed.mpr documents
  rcases Binding.entry_of_chosen? (candidate_of_mem_parse member) chosen with
    ⟨symbol, name, inBinding, own⟩
  refine ⟨_, Resolution.mem_settledEntries.mpr ⟨_, inBinding, rfl⟩, ?_, ?_⟩
  · change (Entry.ofComments symbol _).key = key
    rw [Entry.ofComments_eq]
    exact name
  · exact Entry.tags_infix_ofComments symbol own

theorem reported_of_unknown (member : parsed ∈ parse builder.markers sources) {topic : Tag}
    {name : Text} (names : parsed.FirstNames topic name) (unknown : table.contains name = false)
    (entries : List Entry) :
    let model : Model := ⟨entries, (ofSources builder sources table).diagnostics⟩
    ∃ diagnostic ∈ model.diagnosticsOf .unknownSymbolReference,
      diagnostic.symbol = some name ∧ diagnostic.tags = parsed.tags := by
  intro model
  have unbound := ParsedComment.Unbound.unknown names unknown
  have reported : _ ∈ (ofSources builder sources table).binding.diagnostics :=
    List.mem_filterMap.mpr
      ⟨_, candidate_of_mem_parse member, Candidate.rejection?_ofParsed.mpr unbound⟩
  rw [diagnosticsOf_eq]
  exact ⟨_, List.mem_filter.mpr ⟨reported, rfl⟩, rfl, rfl⟩

/-- The first naming topic of a comment decides for all of them: they are in the entry of
the symbol that it names, or in the report that the table does not know this symbol. -/
theorem first_topic_decides (builder : Builder) (sources : List Source) (table : SymbolTable) :
    ∃ model, (ofSources builder sources table).model = .ok model ∧
      ∀ parsed ∈ parse builder.markers sources, ∀ tag ∈ parsed.tags, tag.target ≠ none →
        ∃ topic first, parsed.FirstNames topic first ∧
          ((table.contains first = true ∧
              ∃ entry ∈ model.entries, entry.key = first ∧ tag ∈ entry.tags) ∨
            (table.contains first = false ∧
              ∃ diagnostic ∈ model.diagnosticsOf .unknownSymbolReference,
                diagnostic.symbol = some first ∧ tag ∈ diagnostic.tags)) := by
  refine ⟨_, model_eq builder sources table, ?_⟩
  intro parsed member tag inside names
  have explicit : ∃ topic, parsed.explicitTopic? = some topic := by
    apply Option.isSome_iff_exists.mp
    exact List.find?_isSome.mpr ⟨tag, inside, Option.isSome_iff_ne_none.mpr names⟩
  rcases explicit with ⟨topic, found⟩
  rcases ParsedComment.explicitTopic?_eq_some.mp found with ⟨first, firstNames⟩
  refine ⟨topic, first, firstNames, ?_⟩
  cases known : table.contains first with
  | true =>
    rcases entry_of_documents member (.named firstNames known) with ⟨entry, inModel, key, together⟩
    exact .inl ⟨rfl, entry, inModel, key, together.subset inside⟩
  | false =>
    rcases reported_of_unknown member firstNames known _ with ⟨diagnostic, reported, symbol, tags⟩
    exact .inr ⟨rfl, diagnostic, reported, symbol, tags ▸ inside⟩

/-- A comment with the topics of two classes leaves the second without entry or report. -/
theorem second_topic_is_not_served :
    let builder : Builder := ⟨⟨["/*!"], by decide⟩, false, 1, by decide⟩
    let sources : List Source := [⟨"a.h", "/*!\n\\class A\n\\class B\n*/\n"⟩]
    let table := SymbolTable.ofList
      [⟨.classKind, "A", none, none, []⟩, ⟨.classKind, "B", none, none, []⟩]
    ∃ model, (ofSources builder sources table).model = .ok model ∧
      ¬∀ parsed ∈ parse builder.markers sources, ∀ tag ∈ parsed.tags, ∀ name,
        tag.kind.isTopic = true → tag.target = some name → table.contains name = true →
          (∃ entry ∈ model.entries, entry.key = name) ∨
            ∃ diagnostic ∈ model.diagnostics, tag ∈ diagnostic.tags := by
  intro builder sources table
  let topic (name : Text) (line : Nat) : Tag :=
    ⟨.classTopic, "class", "a.h", line, some name, some name, [], []⟩
  let entry : Entry :=
    ⟨"A", .classKind, [], [], [], "details", "a.html", .none, [⟨"a.h", 1, 4⟩],
      [topic "A" 2, topic "B" 3]⟩
  have built : (ofSources builder sources table).model = .ok ⟨[entry], []⟩ := by decide +kernel
  have inComment : ∃ parsed ∈ parse builder.markers sources, topic "B" 3 ∈ parsed.tags := by
    decide +kernel
  refine ⟨_, built, ?_⟩
  intro served
  rcases inComment with ⟨parsed, member, inside⟩
  rcases served parsed member _ inside "B" rfl rfl rfl with ⟨other, listed, key⟩ | ⟨_, carried, _⟩
  · cases List.mem_singleton.mp listed
    exact absurd key (by decide)
  · exact absurd carried List.not_mem_nil

end Run

end DocAtlas
