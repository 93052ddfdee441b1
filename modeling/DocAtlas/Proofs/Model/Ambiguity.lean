import DocAtlas.Proofs.Model.Entries

/-!
# Ambiguous references

A name without an owner may be the leaf of several symbols. Where it is neither a key
itself nor one inside the scope it is written in, it refers to the only documented symbol
with that leaf, and to nothing if there are none or several. Symbols of the table that
are not documented have no say in this.
-/

namespace DocAtlas

namespace Run

def Documented (builder : Builder) (sources : List Source) (table : SymbolTable)
    (name : Text) : Prop :=
  ∃ parsed ∈ parse builder.markers sources, parsed.Documents table name

/-- An unqualified target that means neither itself nor a key of its scope means the only
documented symbol of the table with that leaf. Where that symbol exists, and nothing nearer
is documented, the target does mean it. -/
theorem leaf_means_only_documented (builder : Builder) (sources : List Source)
    (table : SymbolTable) :
    let Documented := Documented builder sources table
    ∃ model, (ofSources builder sources table).model = .ok model ∧
      ∀ entry ∈ model.entries, ∀ reference ∈ entry.references,
        Name.owner? reference.target = none →
          (∀ key, reference.state.key? = some key → key ≠ reference.target →
            (∀ scope, entry.scope? = some scope → key ≠ Name.qualify scope reference.target) →
              (∃ symbol, table.get? key = some symbol) ∧ Documented key ∧
              Name.leaf key = reference.target ∧
              ∀ other symbol, table.get? other = some symbol → Documented other →
                Name.leaf other = reference.target → other = key) ∧
          (∀ key, Documented key → Name.leaf key = reference.target →
            (∀ other, Documented other → Name.leaf other = reference.target → other = key) →
            ¬Documented reference.target →
            (∀ scope, entry.scope? = some scope →
              ¬Documented (Name.qualify scope reference.target)) →
              reference.state.key? = some key) := by
  intro Documented
  let run := ofSources builder sources table
  let keys := Resolution.keys run.binding.entries
  have mem_keys {name : Text} : name ∈ keys ↔ Documented name := mem_keys_entries
  have keysOf : keys = Binding.keys table run.candidates := Binding.keys_ofCandidates table _
  have nodup : keys.Nodup := by
    rw [keysOf]
    exact Binding.keys_nodup table run.candidates
  refine ⟨_, model_eq builder sources table, ?_⟩
  intro entry member reference inside unqualified
  rcases Resolution.mem_settledEntries.mp member with ⟨bound, _, rfl⟩
  rcases List.mem_map.mp inside with ⟨fresh, _, rfl⟩
  -- The state of the reference is what its target means among the documented keys.
  have means : (Resolution.outcome run.binding.entries bound.scope? fresh.target).key? =
      Name.resolve? fresh.target keys bound.scope? :=
    Resolution.key?_outcome run.binding.entries bound.scope? fresh.target
  change Name.owner? fresh.target = none at unqualified
  constructor
  · intro key settled other outside
    have meant : Name.resolve? fresh.target keys bound.scope? = some key := means.symm.trans settled
    have only := Name.onlyLeaf_of_resolve? nodup unqualified meant other outside
    refine ⟨?_, mem_keys.mp only.present, only.leaf_eq, ?_⟩
    · exact Binding.known_of_mem_keys (keysOf ▸ only.present)
    · intro namesake _ _ documented sameLeaf
      exact only.unique namesake (mem_keys.mpr documented) sameLeaf
  · intro key documented sameLeaf unique undocumented unscoped
    have only : Name.OnlyLeaf fresh.target keys key :=
      ⟨mem_keys.mpr documented, sameLeaf, fun other present => unique other (mem_keys.mp present)⟩
    refine means.trans (Name.resolve?_of_onlyLeaf nodup unqualified only ?_ ?_)
    · exact fun present => undocumented (mem_keys.mp present)
    · exact fun scope inScope present => unscoped scope inScope (mem_keys.mp present)

/-- The table has `run` in two classes and the comments document one of them: a third class
that refers to `run` is sent there. -/
theorem undocumented_namesake_is_overlooked :
    let builder : Builder := ⟨⟨["/*!"], by decide⟩, false, 1, by decide⟩
    let sources : List Source :=
      [⟨"a.h", "/*!\n\\fn A::run()\n*/\n/*!\n\\fn C::stop()\n\\sa run\n*/\n"⟩]
    let table := SymbolTable.ofList
      [⟨.methodKind, "A::run", none, none, []⟩, ⟨.methodKind, "B::run", none, none, []⟩,
        ⟨.methodKind, "C::stop", none, none, []⟩]
    ∃ model, (ofSources builder sources table).model = .ok model ∧
      ¬∀ entry ∈ model.entries, ∀ reference ∈ entry.references,
        Name.owner? reference.target = none →
          ∀ key, reference.state.key? = some key → key ≠ reference.target →
            (∀ scope, entry.scope? = some scope → key ≠ Name.qualify scope reference.target) →
              ∀ other symbol, table.get? other = some symbol →
                Name.leaf other = reference.target → other = key := by
  intro builder sources table
  let target : Text := "run"
  let written : CrossReference :=
    ⟨"C::stop", target, .seeAlso, some "a.h", some 6, .unresolved⟩
  let settled : CrossReference :=
    { written with state := .resolved "A::run" (some "a.html#run") }
  let topic (name argument : Text) (line : Nat) : Tag :=
    ⟨.functionTopic, "fn", "a.h", line, some argument, some name, [], []⟩
  let run : Entry :=
    ⟨"A::run", .methodKind, [], [], [], "run", "a.html", .none, [⟨"a.h", 1, 3⟩],
      [topic "A::run" "A::run()" 2]⟩
  let stop (reference : CrossReference) : Entry :=
    ⟨"C::stop", .methodKind, [], [.seeAlso [target]], [reference], "stop", "c.html", .none,
      [⟨"a.h", 4, 7⟩], [topic "C::stop" "C::stop()" 5,
        ⟨.seeAlso, "sa", "a.h", 6, some target, none, [target], []⟩]⟩
  have collected : (ofSources builder sources table).candidates =
      (parse builder.markers sources).map (Candidate.ofParsed table (fileOrder sources)) :=
    collect_parse (by decide) table
  have bound : (ofSources builder sources table).binding.entries = [run, stop written] := by
    change (Binding.ofCandidates table (ofSources builder sources table).candidates).entries = _
    rw [collected]
    decide +kernel
  have sorted : Resolution.sortedByKey [run, stop written] = [run, stop written] :=
    List.mergeSort_of_pairwise (by decide)
  have built := model_eq builder sources table
  simp only [bound, Resolution.settledEntries, sorted] at built
  refine ⟨_, built, ?_⟩
  intro unique
  have elsewhere : ∀ scope, (stop settled).scope? = some scope →
      "A::run".toList ≠ Name.qualify scope target := by
    rintro scope ⟨⟩
    decide
  have same := unique (stop settled) (by decide +kernel) settled List.mem_cons_self rfl
    "A::run" rfl (by decide) elsewhere "B::run" _ rfl rfl
  exact absurd same (by decide)

end Run

end DocAtlas
