import DocAtlas.Proofs.Model.Entries
import DocAtlas.Proofs.Model.Linking
import DocAtlas.Proofs.Resolution.Repetition

/-!
# Links to what is referred to already

A link is left out where its source refers to its target by the key of that target. A
reference that means the key but is written otherwise, such as without the owner, does not
keep the link out, and then the entry refers to one symbol twice.
-/

namespace DocAtlas

def Entry.LinksOnce (entry : Entry) : Prop :=
  entry.references.Pairwise fun first second =>
    first.origin = .implicit ∨ second.origin = .implicit →
      first.state.key? ≠ second.state.key?

/-- Where an entry refers to a partner in writing, it also spells the partner's key. -/
def Entry.SpellsPartners (table : SymbolTable) (entries : List Entry) (entry : Entry) : Prop :=
  ∀ written ∈ entry.references, written.origin ≠ .implicit →
    ∀ key, written.state.key? = some key → Link.Asked table entries ⟨entry.key, key⟩ →
      ∃ full ∈ entry.references, full.origin ≠ .implicit ∧ full.target = key

namespace Entry.GainsLinks

variable {plain linked : Entry} {gained : List CrossReference}
  (gains : plain.GainsLinks linked gained)

include gains

theorem pairwise_key? :
    gained.Pairwise fun first second => first.state.key? ≠ second.state.key? := by
  apply (List.pairwise_map.mp gains.nodup).imp_of_mem
  intro first second here there different
  rw [gains.resolved first here, gains.resolved second there]
  exact fun same => different (Option.some.inj same)

variable (explicit : ∀ reference ∈ plain.references, reference.origin ≠ .implicit)

include explicit

theorem mem_references_iff {reference : CrossReference} :
    reference ∈ linked.references ∧ reference.origin ≠ .implicit ↔
      reference ∈ plain.references := by
  rw [gains.linked_eq]
  constructor
  · rintro ⟨member, written⟩
    rcases List.mem_append.mp member with inPlain | inGained
    · exact inPlain
    · exact absurd (gains.implicit reference inGained) written
  · intro inPlain
    exact ⟨List.mem_append_left _ inPlain, explicit reference inPlain⟩

theorem filter_implicit : linked.references.filter (·.origin = .implicit) = gained := by
  have noneWritten : plain.references.filter (·.origin = .implicit) = [] :=
    List.filter_eq_nil_iff.mpr fun reference member => by simpa using explicit reference member
  have allLinks : gained.filter (·.origin = .implicit) = gained :=
    List.filter_eq_self.mpr fun reference member => by simpa using gains.implicit reference member
  rw [gains.linked_eq, List.filter_append, noneWritten, allLinks, List.nil_append]

theorem linksOnce_iff :
    linked.LinksOnce ↔ ∀ written ∈ plain.references, ∀ link ∈ gained,
      written.state.key? ≠ link.state.key? := by
  have writtenApart : plain.references.Pairwise fun first second =>
      first.origin = .implicit ∨ second.origin = .implicit →
        first.state.key? ≠ second.state.key? := by
    refine List.pairwise_of_forall_mem_list fun first here second there implicit => ?_
    exact absurd implicit (not_or.mpr ⟨explicit first here, explicit second there⟩)
  have linksApart : gained.Pairwise fun first second =>
      first.origin = .implicit ∨ second.origin = .implicit →
        first.state.key? ≠ second.state.key? := by
    apply gains.pairwise_key?.imp
    exact fun different _ => different
  rw [Entry.LinksOnce, gains.linked_eq, List.pairwise_append]
  constructor
  · rintro ⟨_, _, between⟩ written here link there
    exact between written here link there (.inr (gains.implicit link there))
  · intro between
    exact ⟨writtenApart, linksApart, fun written here link there _ =>
      between written here link there⟩

end Entry.GainsLinks

namespace Resolution

variable {table : SymbolTable} {entries : List Entry} {entry : Entry}

theorem mem_references_plain {reference : CrossReference} :
    reference ∈ (settledEntry entries [] entry).references ↔
      ∃ fresh ∈ entry.references, settled entries entry.scope? fresh = reference := by
  simp [settledEntry, referencesOf]

theorem explicit_plain (entries : List Entry)
    (explicit : ∀ reference ∈ entry.references, reference.origin ≠ .implicit) :
    ∀ reference ∈ (settledEntry entries [] entry).references, reference.origin ≠ .implicit := by
  intro reference member
  rcases mem_references_plain.mp member with ⟨fresh, refers, rfl⟩
  exact explicit fresh refers

theorem exists_gained_iff (nodup : (keys entries).Nodup) {key : Text} :
    (∃ link ∈ gained entries (Link.ofEntries table entries) entry, link.state.key? = some key) ↔
      Link.Asked table entries ⟨entry.key, key⟩ ∧
        ¬Link.Written entries ⟨entry.key, key⟩ := by
  rw [← Link.mem_ofEntries]
  constructor
  · rintro ⟨reference, member, leads⟩
    rcases mem_gained.mp member with ⟨⟨source, target⟩, made, rfl, rfl⟩
    rw [settled_link nodup made, Option.some.injEq] at leads
    exact leads ▸ made
  · intro made
    exact ⟨_, mem_gained.mpr ⟨_, made, rfl, rfl⟩, settled_link nodup made entry.scope?⟩

theorem written_iff (nodup : (keys entries).Nodup) (member : entry ∈ entries) {key : Text} :
    Link.Written entries ⟨entry.key, key⟩ ↔
      ∃ full ∈ (settledEntry entries [] entry).references, full.target = key := by
  constructor
  · rintro ⟨other, inside, sameKey, reference, refers, target⟩
    rw [eq_of_key_eq nodup inside member sameKey] at refers
    exact ⟨_, mem_references_plain.mpr ⟨reference, refers, rfl⟩, target⟩
  · rintro ⟨full, inside, target⟩
    rcases mem_references_plain.mp inside with ⟨reference, refers, rfl⟩
    exact ⟨entry, member, rfl, reference, refers, target⟩

theorem linksOnce_settledEntry_iff (nodup : (keys entries).Nodup) (table : SymbolTable)
    (member : entry ∈ entries)
    (explicit : ∀ reference ∈ entry.references, reference.origin ≠ .implicit) :
    let linked := settledEntry entries (Link.ofEntries table entries) entry
    linked.LinksOnce ↔ linked.SpellsPartners table entries := by
  intro linked
  let plain := settledEntry entries [] entry
  have gains : plain.GainsLinks linked _ := gainsLinks nodup table entry
  have explicitPlain := explicit_plain entries explicit
  have mem_plain {reference : CrossReference} :
      reference ∈ linked.references ∧ reference.origin ≠ .implicit ↔
        reference ∈ plain.references := gains.mem_references_iff explicitPlain
  rw [gains.linksOnce_iff explicitPlain]
  -- Whether a link is made is a matter of how its target is spelled, and not of what it means.
  constructor
  · intro apart written here writtenOut key leads asked
    by_contra spelled
    have unwritten : ¬Link.Written entries ⟨entry.key, key⟩ := by
      intro known
      rcases (written_iff nodup member).mp known with ⟨full, inside, target⟩
      rcases mem_plain.mpr inside with ⟨there, fullOut⟩
      exact spelled ⟨full, there, fullOut, target⟩
    rcases (exists_gained_iff nodup).mpr ⟨asked, unwritten⟩ with ⟨link, there, same⟩
    exact apart written (mem_plain.mp ⟨here, writtenOut⟩) link there (leads.trans same.symm)
  · intro spells written inPlain link there same
    rcases mem_plain.mpr inPlain with ⟨here, writtenOut⟩
    have leads := gains.resolved link there
    rcases (exists_gained_iff nodup).mp ⟨link, there, leads⟩ with ⟨asked, unwritten⟩
    rcases spells written here writtenOut _ (same.trans leads) asked with
      ⟨full, inside, fullOut, target⟩
    exact unwritten ((written_iff nodup member).mpr
      ⟨full, mem_plain.mp ⟨inside, fullOut⟩, target⟩)

end Resolution

namespace Run

/-- No two links of an entry lead to the same symbol. A link leads where a written reference
leads exactly if an entry refers to a partner and never by the partner's key. -/
theorem links_once_unless_spelled_otherwise (builder : Builder) (sources : List Source)
    (table : SymbolTable) :
    ∃ model,
      (ofSources { builder with linkPartners := true } sources table).model = .ok model ∧
      ∀ entry ∈ model.entries,
        ((entry.references.filter (·.origin = .implicit)).Pairwise fun first second =>
          first.state.key? ≠ second.state.key?) ∧
        (entry.LinksOnce ↔ entry.SpellsPartners table model.entries) := by
  let run := ofSources { builder with linkPartners := true } sources table
  let entries := run.binding.entries
  have nodup : (Resolution.keys entries).Nodup :=
    Binding.nodup_keys_ofCandidates table run.candidates
  refine ⟨_, model_eq _ sources table, fun entry member => ?_⟩
  rcases Resolution.mem_settledEntries.mp member with ⟨bound, inside, rfl⟩
  have explicit := Binding.explicit_of_mem_entries inside
  have explicitPlain := Resolution.explicit_plain entries explicit
  have gains := Resolution.gainsLinks nodup table bound
  constructor
  · exact (gains.filter_implicit explicitPlain).symm ▸ gains.pairwise_key?
  · have once := Resolution.linksOnce_settledEntry_iff nodup table inside explicit
    simp only [Entry.SpellsPartners, Link.asked_settledEntries]
    exact once

/-- A property refers to its writer without the name of their class: it is linked with the
writer nevertheless. -/
theorem unqualified_reference_is_linked_again :
    let builder : Builder := ⟨⟨["/*!"], by decide⟩, true, 1, by decide⟩
    let sources : List Source :=
      [⟨"a.h", "/*!\n\\property Foo::bar\n\\sa setBar\n*/\n/*!\n\\fn Foo::setBar()\n*/\n"⟩]
    let table := SymbolTable.ofList
      [⟨.propertyKind, "Foo::bar", none, none, [(.text "write", .text "setBar")]⟩,
        ⟨.methodKind, "Foo::setBar", none, none, []⟩]
    ∃ model, (ofSources builder sources table).model = .ok model ∧
      ¬∀ entry ∈ model.entries, entry.LinksOnce := by
  intro builder sources table
  let written : CrossReference :=
    ⟨"Foo::bar", "setBar", .seeAlso, some "a.h", some 3, .unresolved⟩
  let target : ReferenceState := .resolved "Foo::setBar" (some "foo.html#setBar")
  let link : CrossReference := ⟨"Foo::bar", "Foo::setBar", .implicit, none, none, target⟩
  let bar : Entry :=
    ⟨"Foo::bar", .propertyKind, [], [.seeAlso ["setBar"]], [written], "bar-prop", "foo.html",
      .none, [⟨"a.h", 1, 4⟩],
      [⟨.propertyTopic, "property", "a.h", 2, some "Foo::bar", some "Foo::bar", [], []⟩,
        ⟨.seeAlso, "sa", "a.h", 3, some "setBar", none, ["setBar"], []⟩]⟩
  let setBar : Entry :=
    ⟨"Foo::setBar", .methodKind, [], [], [], "setBar", "foo.html", .none, [⟨"a.h", 5, 7⟩],
      [⟨.functionTopic, "fn", "a.h", 6, some "Foo::setBar()", some "Foo::setBar", [], []⟩]⟩
  have collected : (ofSources builder sources table).candidates =
      (parse builder.markers sources).map (Candidate.ofParsed table (fileOrder sources)) :=
    collect_parse (by decide) table
  have bound : (ofSources builder sources table).binding.entries = [bar, setBar] := by
    change (Binding.ofCandidates table (ofSources builder sources table).candidates).entries = _
    rw [collected]
    decide +kernel
  have sorted : Resolution.sortedByKey [bar, setBar] = [bar, setBar] :=
    List.mergeSort_of_pairwise (by decide)
  have built := model_eq builder sources table
  simp only [bound, Resolution.settledEntries, sorted] at built
  refine ⟨_, built, fun once => ?_⟩
  let linked := Resolution.settledEntry [bar, setBar] (Link.ofEntries table [bar, setBar]) bar
  have references : linked.references = [{ written with state := target }, link] := by
    decide +kernel
  have apart : linked.LinksOnce := once linked List.mem_cons_self
  rw [Entry.LinksOnce, references, List.pairwise_pair] at apart
  exact apart (.inr rfl) rfl

end Run

end DocAtlas
