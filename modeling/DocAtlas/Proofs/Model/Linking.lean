import DocAtlas.Proofs.Model.Stages
import DocAtlas.Proofs.Resolution.Links

/-!
# What linking adds to a model

Asking for the links of properties changes neither the keys of a model nor its
diagnostics. Entries gain references behind those they have, each of them to another
documented symbol, and a property and its documented partners refer to each other.
-/

namespace DocAtlas

/-- The metadata of a symbol names a key: in full, or without an owner, and then inside the
owner of the symbol. -/
inductive Symbol.NamesPartner (symbol : Symbol) : Text → Prop
  | full {field name : Text} : field ∈ Link.partnerFields →
      symbol.metadataText? field = some name → Name.owner? name ≠ none →
      NamesPartner symbol name
  | member {field name owner : Text} : field ∈ Link.partnerFields →
      symbol.metadataText? field = some name → Name.owner? name = none →
      Name.owner? symbol.name = some owner → NamesPartner symbol (Name.qualify owner name)
  | free {field name : Text} : field ∈ Link.partnerFields →
      symbol.metadataText? field = some name → Name.owner? name = none →
      Name.owner? symbol.name = none → NamesPartner symbol name

/-- An entry with the links that it gains: settled references behind its own, each to
another entry and to each at most one. -/
structure Entry.GainsLinks (plain linked : Entry) (gained : List CrossReference) : Prop where
  linked_eq : linked = { plain with references := plain.references ++ gained }
  implicit : ∀ reference ∈ gained, reference.origin = .implicit
  resolved : ∀ reference ∈ gained, reference.state.key? = some reference.target
  elsewhere : ∀ reference ∈ gained, reference.target ≠ plain.key
  nodup : (gained.map (·.target)).Nodup

namespace Link

variable {table : SymbolTable} {entries : List Entry} {link : Link}

theorem mem_partners {symbol : Symbol} {key : Text} :
    key ∈ partners symbol ↔ symbol.NamesPartner key := by
  simp only [partners, List.mem_filterMap, Option.map_eq_some_iff, Symbol.owner?]
  constructor
  · rintro ⟨field, listed, name, named, rfl⟩
    unfold qualifyIn
    cases owned : Name.owner? symbol.name with
    | none =>
      cases unqualified : Name.owner? name with
      | none => exact .free listed named unqualified owned
      | some _ => exact .full listed named (by simp [unqualified])
    | some owner =>
      cases unqualified : Name.owner? name with
      | none => exact .member listed named unqualified owned
      | some _ => exact .full listed named (by simp [unqualified])
  · intro names
    cases names with
    | @full field _ listed named qualified =>
      refine ⟨field, listed, key, named, ?_⟩
      cases owned : Name.owner? symbol.name <;>
        simp [qualifyIn, Option.isSome_iff_ne_none.mpr qualified]
    | @member field name owner listed named unqualified owned =>
      exact ⟨field, listed, name, named, by simp [qualifyIn, unqualified, owned]⟩
    | @free field _ listed named unqualified owned =>
      exact ⟨field, listed, key, named, by simp [qualifyIn, owned]⟩

theorem ne_of_mem_ofEntries (made : link ∈ ofEntries table entries) :
    link.target ≠ link.source := by
  rcases (mem_ofEntries.mp made).1 with paired | paired
  · exact paired.different
  · exact paired.different.symm

end Link

namespace Resolution

variable {table : SymbolTable} {entries : List Entry}

theorem gainsLinks (nodup : (keys entries).Nodup) (table : SymbolTable) (entry : Entry) :
    let links := Link.ofEntries table entries
    (settledEntry entries [] entry).GainsLinks (settledEntry entries links entry)
      (gained entries links entry) := by
  intro links
  constructor
  case linked_eq => exact settledEntry_eq entries links entry
  case implicit =>
    intro reference member
    rcases mem_gained.mp member with ⟨link, _, _, rfl⟩
    rfl
  case resolved =>
    intro reference member
    rcases mem_gained.mp member with ⟨link, made, _, rfl⟩
    exact settled_link nodup made entry.scope?
  case elsewhere =>
    intro reference member
    rcases mem_gained.mp member with ⟨link, made, source, rfl⟩
    intro own
    exact Link.ne_of_mem_ofEntries made (own.trans source.symm)
  case nodup =>
    have targets : (gained entries links entry).map (·.target) =
        (links.filter fun link => link.source == entry.key).map (·.target) := by
      rw [gained, List.map_map, List.map_map]
      rfl
    rw [targets]
    apply ((Link.nodup_ofEntries table entries).filter _).map_on
    intro first here second there sameTarget
    have firstSource := beq_iff_eq.mp (List.mem_filter.mp here).2
    have secondSource := beq_iff_eq.mp (List.mem_filter.mp there).2
    cases first
    cases second
    simp_all

/-- Links report nothing: all that they add is resolved. -/
theorem danglingDiagnostics_links (nodup : (keys entries).Nodup) (table : SymbolTable) :
    danglingDiagnostics table (settledEntries true table entries) =
      danglingDiagnostics table (settledEntries false table entries) := by
  unfold danglingDiagnostics settledEntries
  rw [List.filterMap_flatMap, List.filterMap_flatMap, List.flatMap_map, List.flatMap_map]
  apply List.flatMap_congr
  intro entry _
  have gains := gainsLinks nodup table entry
  have silent : (gained entries (Link.ofEntries table entries) entry).filterMap
      (diagnostic? table) = [] :=
    List.filterMap_eq_nil_iff.mpr fun reference member =>
      diagnostic?_of_resolved (gains.resolved reference member)
  have references := congrArg Entry.references gains.linked_eq
  simp only [links, if_true, references, List.filterMap_append, silent, List.append_nil]
  rfl

theorem key?_of_refers (nodup : (keys entries).Nodup) {links : List Link} {entry other : Entry}
    (member : other ∈ entries) {reference : CrossReference}
    (refers : reference ∈ referencesOf links entry) (target : reference.target = other.key) :
    ∃ reference ∈ (settledEntry entries links entry).references,
      reference.state.key? = some other.key := by
  refine ⟨_, List.mem_map_of_mem refers, ?_⟩
  have outcome := outcome_of_mem nodup member entry.scope?
  rw [← target] at outcome
  rw [← target]
  exact congrArg ReferenceState.key? outcome

theorem key?_of_asked (nodup : (keys entries).Nodup) {entry other : Entry}
    (here : entry ∈ entries) (there : other ∈ entries)
    (asked : Link.Asked table entries ⟨entry.key, other.key⟩) :
    ∃ reference ∈ (settledEntry entries (Link.ofEntries table entries) entry).references,
      reference.state.key? = some other.key := by
  rcases asked.exists_reference with
    ⟨source, member, sameKey, reference, refers, target⟩
  rw [eq_of_key_eq nodup member here sameKey] at refers
  exact key?_of_refers nodup there refers target

end Resolution

namespace Run

/-- With links and without, a model has the same keys and the same diagnostics. Entries only
gain references to other entries; and a property and the documented symbols that its
metadata names refer to each other. -/
theorem linking_only_adds (builder : Builder) (sources : List Source) (table : SymbolTable) :
    ∃ plain linked,
      (ofSources { builder with linkPartners := false } sources table).model = .ok plain ∧
      (ofSources { builder with linkPartners := true } sources table).model = .ok linked ∧
      linked.keys = plain.keys ∧ linked.diagnostics = plain.diagnostics ∧
      List.Forall₂ (fun plain linked => ∃ gained, plain.GainsLinks linked gained)
        plain.entries linked.entries ∧
      ∀ property ∈ linked.entries, property.kind = .propertyKind →
        ∀ symbol, table.get? property.key = some symbol →
          ∀ partner ∈ linked.entries, symbol.NamesPartner partner.key →
            partner.key ≠ property.key →
            (∃ reference ∈ property.references, reference.state.key? = some partner.key) ∧
              ∃ reference ∈ partner.references, reference.state.key? = some property.key := by
  let plain := ofSources { builder with linkPartners := false } sources table
  let linked := ofSources { builder with linkPartners := true } sources table
  let entries := linked.binding.entries
  have nodup : (Resolution.keys entries).Nodup :=
    Binding.nodup_keys_ofCandidates table linked.candidates
  refine ⟨_, _, model_eq _ sources table, model_eq _ sources table, ?_, ?_, ?_, ?_⟩
  · simp only [Model.keys, Resolution.keys, Resolution.settledEntries, List.map_map]
    rfl
  · -- Only the last stage looks at the option.
    have reported : linked.resolution.diagnostics = plain.resolution.diagnostics := by
      rw [resolutionDiagnostics_eq, resolutionDiagnostics_eq]
      exact Resolution.danglingDiagnostics_links nodup table
    change linked.diagnostics = plain.diagnostics
    rw [diagnostics, diagnostics, reported]
    rfl
  · apply List.forall₂_map_left_iff.mpr
    apply List.forall₂_map_right_iff.mpr
    exact List.forall₂_same.mpr fun entry _ => ⟨_, Resolution.gainsLinks nodup table entry⟩
  · intro property here isProperty symbol known partner there named different
    rcases Resolution.mem_settledEntries.mp here with ⟨boundProperty, inside, rfl⟩
    rcases Resolution.mem_settledEntries.mp there with ⟨boundPartner, alsoInside, rfl⟩
    have paired : Link.Paired table entries boundProperty.key boundPartner.key :=
      ⟨⟨boundProperty, inside, rfl, isProperty⟩, ⟨symbol, known, Link.mem_partners.mpr named⟩,
        different, List.mem_map_of_mem alsoInside⟩
    have toPartner := Resolution.key?_of_asked nodup inside alsoInside (.inl paired)
    have toProperty := Resolution.key?_of_asked nodup alsoInside inside (.inr paired)
    exact ⟨toPartner, toProperty⟩

end Run

end DocAtlas
