import DocAtlas.Proofs.Model.Stages
import DocAtlas.Proofs.Tag.Faults

/-!
# What becomes of the tags

Every tag that a build parses ends up in one entry of the model or in one diagnostic.
A tag of an entry, unless it is the topic, can also be seen by a reader: in the brief,
in a section, in a flag or in a diagnostic. Only a see-also list that has an argument
without names cannot.
-/

namespace DocAtlas

namespace Resolution

theorem shows_settledEntry {entries : List Entry} {links : List Link} {entry : Entry}
    {before after : List Tag} {supplier : Option Tag} (shown : entry.Shows before supplier after) :
    (settledEntry entries links entry).Shows before supplier after where
  tags_eq := shown.tags_eq
  supplies := shown.supplies
  brief_eq := shown.brief_eq
  sections_eq := shown.sections_eq
  flags_eq := shown.flags_eq

end Resolution

/-- What can be seen of a tag: it supplies the brief, it makes a section, it sets a flag,
or a diagnostic carries it. -/
def Tag.HasEffect (tag : Tag) (model : Model) (entry : Entry) (before : List Tag)
    (supplier : Option Tag) (after : List Tag) : Prop :=
  supplier = some tag ∨
    (tag ∈ before ++ after ∧ ∃ made ∈ entry.sections, tag.section? = some made) ∨
    (tag.kind = .deprecated ∧ entry.flags.deprecated = true) ∨
    (tag.kind = .internal ∧ entry.flags.internal = true) ∨
    ∃ diagnostic ∈ model.diagnosticsOf .malformedTagArgument, tag ∈ diagnostic.tags

namespace Entry.Shows

variable {entry : Entry} {before after : List Tag} {supplier : Option Tag} {tag : Tag}

theorem flag_set (shown : entry.Shows before supplier after) (member : tag ∈ entry.tags)
    (sets : tag.setsFlag = true) :
    (tag.kind = .deprecated ∧ entry.flags.deprecated = true) ∨
      (tag.kind = .internal ∧ entry.flags.internal = true) := by
  rw [shown.flags_eq]
  rw [Tag.setsFlag, Bool.or_eq_true, decide_eq_true_eq, decide_eq_true_eq] at sets
  rcases sets with deprecated | internal
  · exact .inl ⟨deprecated, Flags.deprecated_ofTags.mpr ⟨tag, member, deprecated⟩⟩
  · exact .inr ⟨internal, Flags.internal_ofTags.mpr ⟨tag, member, internal⟩⟩

theorem section?_eq_none (shown : entry.Shows before supplier after) (member : tag ∈ entry.tags)
    (other : supplier ≠ some tag)
    (unmade : ¬(tag ∈ before ++ after ∧ ∃ made ∈ entry.sections, tag.section? = some made)) :
    tag.section? = none := by
  have inside : tag ∈ before ++ after := by
    rw [shown.tags_eq, List.append_assoc, List.mem_append, List.mem_append] at member
    rcases member with inBefore | supplies | inAfter
    · exact List.mem_append_left _ inBefore
    · exact absurd (Option.mem_toList.mp supplies) other
    · exact List.mem_append_right _ inAfter
  cases made : tag.section? with
  | none => rfl
  | some part =>
    refine absurd ⟨inside, part, ?_, made⟩ unmade
    rw [shown.sections_eq]
    exact List.mem_filterMap.mpr ⟨tag, inside, made⟩

theorem supplier_ne_of_seeAlso (shown : entry.Shows before supplier after)
    (kind : tag.kind = .seeAlso) : supplier ≠ some tag := by
  intro supplies
  rcases shown.supplies tag supplies with prose | brief
  · simp [kind] at prose
  · simp [Tag.writesBrief, kind] at brief

end Entry.Shows

namespace Run

/-- No tag is lost and none is counted twice. -/
theorem tags_conserved (builder : Builder) (sources : List Source) (table : SymbolTable) :
    ∃ model, (ofSources builder sources table).model = .ok model ∧
      ((parse builder.markers sources).flatMap (·.tags)).Perm
        (model.entries.flatMap (·.tags) ++
          (model.diagnosticsOf .unknownSymbolReference ++
            model.diagnosticsOf .orphanedDocumentation).flatMap (·.tags)) := by
  let run := ofSources builder sources table
  let entries := Resolution.settledEntries builder.linkPartners table run.binding.entries
  refine ⟨⟨entries, run.diagnostics⟩, model_eq builder sources table, ?_⟩
  have collected := (candidates_perm builder sources table).flatMap_right (·.parsed.tags)
  rw [List.flatMap_map] at collected
  have settled := Resolution.tags_settledEntries builder.linkPartners table run.binding.entries
  have reported :=
    (diagnosticsOf_unbound builder sources table entries).flatMap_right (·.tags)
  have spread : (run.candidates.flatMap (·.parsed.tags)).Perm
      (run.binding.entries.flatMap (·.tags) ++ run.binding.diagnostics.flatMap (·.tags)) :=
    Binding.tags_perm table run.candidates
  exact (collected.symm.trans spread).trans (settled.symm.append reported.symm)

theorem carried_iff (builder : Builder) (sources : List Source) (table : SymbolTable)
    (entries : List Entry) (tag : Tag) :
    (∃ diagnostic ∈ Model.diagnosticsOf ⟨entries, (ofSources builder sources table).diagnostics⟩
        .malformedTagArgument, tag ∈ diagnostic.tags) ↔
      ∃ parsed ∈ parse builder.markers sources, ∃ judged ∈ parsed.judged,
        judged.tag = tag ∧ judged.fault ≠ none := by
  rw [diagnosticsOf_eq]
  constructor
  · rintro ⟨diagnostic, member, carries⟩
    obtain ⟨parsed, inRun, judged, inside, fault, faulty, rfl⟩ := mem_tagDiagnostics.mp member
    have carried : tag = judged.tag := List.mem_singleton.mp carries
    exact ⟨parsed, inRun, judged, inside, carried.symm, by simp [faulty]⟩
  · rintro ⟨parsed, inRun, judged, inside, rfl, faulty⟩
    obtain ⟨fault, found⟩ := Option.ne_none_iff_exists'.mp faulty
    exact ⟨fault.diagnostic judged.tag,
      mem_tagDiagnostics.mpr ⟨parsed, inRun, judged, inside, fault, found, rfl⟩,
      List.mem_singleton.mpr rfl⟩

/-- A tag of an entry has an effect exactly if it is no see-also list without names. -/
theorem hasEffect_iff_of_shows {builder : Builder} {sources : List Source} {table : SymbolTable}
    {entries : List Entry} {entry : Entry} {before after : List Tag} {supplier : Option Tag}
    (shown : entry.Shows before supplier after) {parsed : ParsedComment}
    (inRun : parsed ∈ parse builder.markers sources) {tag : Tag} (inComment : tag ∈ parsed.tags)
    (inEntry : tag ∈ entry.tags) (noTopic : tag.kind.isTopic = false) :
    tag.HasEffect ⟨entries, (ofSources builder sources table).diagnostics⟩ entry before supplier
        after ↔ ¬tag.ListsNothing := by
  unfold Tag.HasEffect
  rw [carried_iff]
  constructor
  · intro effect nameless
    rcases effect with supplies | ⟨_, part, _, made⟩ | ⟨kind, _⟩ | ⟨kind, _⟩ | carried
    · exact shown.supplier_ne_of_seeAlso nameless.1 supplies
    · simp [Tag.section?, nameless.1, nameless.2.2] at made
    · simp [nameless.1] at kind
    · simp [nameless.1] at kind
    · obtain ⟨other, member, judged, inside, rfl, faulty⟩ := carried
      exact faulty ((made_of_mem_parse member inside).fault_of_listsNothing nameless)
  · intro names
    by_cases supplies : supplier = some tag
    · exact .inl supplies
    by_cases made : tag ∈ before ++ after ∧ ∃ made ∈ entry.sections, tag.section? = some made
    · exact .inr (.inl made)
    by_cases sets : tag.setsFlag = true
    · rcases shown.flag_set inEntry sets with deprecated | internal
      · exact .inr (.inr (.inl deprecated))
      · exact .inr (.inr (.inr (.inl internal)))
    obtain ⟨judged, inside, rfl⟩ := List.mem_map.mp inComment
    have faulty := (made_of_mem_parse inRun inside).fault_of_no_section noTopic
      (Bool.eq_false_iff.mpr sets) (shown.section?_eq_none inEntry supplies made) names
    exact .inr (.inr (.inr (.inr ⟨parsed, inRun, judged, inside, rfl, faulty⟩)))

/-- Every tag of a comment that is about a symbol shows in the entry of that symbol or is
reported, unless it is the topic or a see-also list without names, which never is. -/
theorem tags_have_effect (builder : Builder) (sources : List Source) (table : SymbolTable) :
    let run := ofSources builder sources table
    ∃ model, run.model = .ok model ∧
      ∀ candidate ∈ run.candidates, ∀ key, candidate.chosen? table = some key →
        ∃ entry ∈ model.entries, entry.key = key ∧ candidate.parsed.tags <:+: entry.tags ∧
          ∃ before supplier after, entry.Shows before supplier after ∧
            ∀ tag ∈ candidate.parsed.tags, tag.kind.isTopic = false →
              (tag.HasEffect model entry before supplier after ↔ ¬tag.ListsNothing) := by
  intro run
  refine ⟨_, model_eq builder sources table, ?_⟩
  intro candidate member key chosen
  obtain ⟨symbol, name, bound, own⟩ := Binding.entry_of_chosen? member chosen
  obtain ⟨before, supplier, after, shown⟩ :=
    Entry.ofComments_shows symbol (Binding.commentsOf table run.candidates key)
  have together := Entry.tags_infix_ofComments symbol own
  refine ⟨_, Resolution.mem_settledEntries.mpr ⟨_, bound, rfl⟩, ?_, together, before, supplier,
    after, Resolution.shows_settledEntry shown, ?_⟩
  · change (Entry.ofComments symbol _).key = key
    rw [Entry.ofComments_eq, name]
  · intro tag inComment noTopic
    have inRun : candidate.parsed ∈ parse builder.markers sources := by
      obtain ⟨parsed, inRun, rfl⟩ :=
        List.mem_map.mp ((candidates_perm builder sources table).mem_iff.mp member)
      exact inRun
    exact hasEffect_iff_of_shows (Resolution.shows_settledEntry shown) inRun inComment
      (together.subset inComment) noTopic

/-- A see-also list of a lone comma is kept in the entry and shows nowhere. -/
theorem lone_comma_has_no_effect :
    let builder : Builder := ⟨⟨["/*!"], by decide⟩, false, 1, by decide⟩
    let sources : List Source := [⟨"a.h", "/*!\n\\class Foo\n\\sa ,\n*/\n"⟩]
    let table := SymbolTable.ofList [⟨.classKind, "Foo", none, none, []⟩]
    let run := ofSources builder sources table
    let topic : Tag := ⟨.classTopic, "class", "a.h", 2, some "Foo", some "Foo", [], []⟩
    let silent : Tag := ⟨.seeAlso, "sa", "a.h", 3, some ",", none, [], []⟩
    let entry : Entry :=
      ⟨"Foo", .classKind, [], [], [], "details", "foo.html", .none, [⟨"a.h", 1, 4⟩],
        [topic, silent]⟩
    run.model = .ok ⟨[entry], []⟩ ∧
      (∃ candidate ∈ run.candidates, candidate.chosen? table = some entry.key ∧
        silent ∈ candidate.parsed.tags) ∧
      silent.kind.isTopic = false ∧
      ¬∃ before supplier after, entry.Shows before supplier after ∧
        silent.HasEffect ⟨[entry], []⟩ entry before supplier after := by
  intro builder sources table run topic silent entry
  have built : run.model = .ok ⟨[entry], []⟩ := by decide +kernel
  have bound : ∃ candidate ∈ run.candidates, candidate.chosen? table = some entry.key ∧
      silent ∈ candidate.parsed.tags := by decide +kernel
  refine ⟨built, bound, rfl, ?_⟩
  rintro ⟨before, supplier, after, shown, effect⟩
  rcases effect with supplies | ⟨_, part, made, _⟩ | ⟨kind, _⟩ | ⟨kind, _⟩ | ⟨_, carried, _⟩
  · exact shown.supplier_ne_of_seeAlso rfl supplies
  · exact absurd made List.not_mem_nil
  · cases kind
  · cases kind
  · exact absurd carried List.not_mem_nil

end Run

end DocAtlas
