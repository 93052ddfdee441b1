import DocAtlas.Proofs.Binding.Sequence
import DocAtlas.Proofs.Model.Stages
import DocAtlas.Proofs.Symbol.Address

/-!
# The links of a model

A resolved reference carries the link of a symbol, the one that the table has under the key it
is resolved to. Main statement: no other symbol of the table has this link, if their names
differ by more than the case of their letters and follow from no page of their own, unless
the two clash.
-/

namespace DocAtlas

namespace Resolution

theorem exists_entry_of_outcome {entries : List Entry} (nodup : (keys entries).Nodup)
    {scope : Option Text} {target key : Text} {href : Option Text}
    (settled : outcome entries scope target = .resolved key href) :
    ∃ entry ∈ entries, entry.key = key ∧ href = some entry.href := by
  unfold outcome at settled
  cases meant : Name.resolve? target (keys entries) scope with
  | none =>
    rw [meant] at settled
    cases settled
  | some found =>
    cases looked : find? entries found with
    | none => exact absurd (Name.mem_of_resolve? meant) (find?_eq_none.mp looked)
    | some entry =>
      have own := (find?_eq_some nodup).mp looked
      simp only [meant, looked, Option.map_some, ReferenceState.resolved.injEq] at settled
      exact ⟨entry, own.1, own.2.trans settled.1, settled.2.symm⟩

end Resolution

namespace Run

/-- Two symbols have one link exactly if they clash, and every resolved reference of a model
has the link of the symbol whose key it has. So the link tells this symbol from all others
that do not clash with it. -/
theorem links_tell_symbols_apart (builder : Builder) (sources : List Source)
    (table : SymbolTable) :
    (∀ first second : Symbol, first.PlacedByName → second.PlacedByName →
      Text.lower first.name ≠ Text.lower second.name →
        (first.href = second.href ↔ first.Clashes second ∨ second.Clashes first)) ∧
      ∃ model, (ofSources builder sources table).model = .ok model ∧
        ∀ entry ∈ model.entries, ∀ reference ∈ entry.references, ∀ key href,
          reference.state = .resolved key href →
            ∃ target, table.get? key = some target ∧ href = some target.href ∧
              ∀ symbol ∈ table.toList, symbol.PlacedByName → target.PlacedByName →
                Text.lower symbol.name ≠ Text.lower target.name →
                  (href = some symbol.href ↔ symbol.Clashes target ∨ target.Clashes symbol) := by
  refine ⟨fun first second placed alsoPlaced => placed.href_eq_iff_clashes alsoPlaced,
    _, model_eq builder sources table, ?_⟩
  intro entry member reference inside key href settled
  rcases Resolution.mem_settledEntries.mp member with ⟨bound, _, rfl⟩
  rcases List.mem_map.mp inside with ⟨fresh, _, rfl⟩
  have nodup := Binding.nodup_keys_ofCandidates table (ofSources builder sources table).candidates
  rcases Resolution.exists_entry_of_outcome nodup settled with ⟨own, inBinding, rfl, rfl⟩
  rcases Binding.mem_entries.mp inBinding with ⟨target, _, found, rfl⟩
  rw [Symbol.key_ofComments, Symbol.href_ofComments]
  refine ⟨target, found, rfl, ?_⟩
  intro symbol _ placed alsoPlaced different
  rw [Option.some.injEq, ← placed.href_eq_iff_clashes alsoPlaced different]
  exact eq_comm

/-- A method refers to a property of its class, which is on the page of the class but has an
anchor of its own. -/
theorem links_tell_property_from_class :
    let builder : Builder := ⟨⟨["/*!"], by decide⟩, false, 1, by decide⟩
    let sources : List Source :=
      [⟨"a.h", "/*!\n\\property A::run\n*/\n/*!\n\\fn A::stop()\n\\sa run\n*/\n"⟩]
    let scope : Symbol := ⟨.classKind, "A", none, none, []⟩
    let property : Symbol := ⟨.propertyKind, "A::run", none, none, []⟩
    let table := SymbolTable.ofList [scope, property, ⟨.methodKind, "A::stop", none, none, []⟩]
    scope.PlacedByName ∧ property.PlacedByName ∧
      Text.lower scope.name ≠ Text.lower property.name ∧ scope.href ≠ property.href ∧
      ∃ model, (ofSources builder sources table).model = .ok model ∧
        ∃ entry ∈ model.entries, ∃ reference ∈ entry.references, ∃ href,
          reference.state = .resolved property.name href ∧ scope ∈ table.toList ∧
            href ≠ some scope.href := by
  intro builder sources scope property table
  have owner : Name.Word ['A'] := .identifier (by decide) (List.all_eq_true.mp (by decide))
  have leaf : Name.Word ['r', 'u', 'n'] :=
    .identifier (by decide) (List.all_eq_true.mp (by decide))
  have placed : scope.PlacedByName := ⟨.leaf owner, rfl⟩
  have alsoPlaced : property.PlacedByName := ⟨.owner owner (.leaf leaf), rfl⟩
  have different : Text.lower scope.name ≠ Text.lower property.name := by decide
  have apart : ¬(scope.Clashes property ∨ property.Clashes scope) := by
    rintro (clash | clash)
    · cases clash with
      | details _ _ bare => cases bare
      | index isMember => cases isMember
    · cases clash with
      | details isScope => cases isScope
      | index _ isMember => cases isMember
  let written : CrossReference :=
    ⟨"A::stop", "run", .seeAlso, some "a.h", some 6, .unresolved⟩
  let settled : CrossReference :=
    { written with state := .resolved property.name (some "a.html#run-prop") }
  let topic (kind : TagKind) (marker argument name : Text) (line : Nat) : Tag :=
    ⟨kind, marker, "a.h", line, some argument, some name, [], []⟩
  let run : Entry :=
    ⟨"A::run", .propertyKind, [], [], [], "run-prop", "a.html", .none, [⟨"a.h", 1, 3⟩],
      [topic .propertyTopic "property" "A::run" "A::run" 2]⟩
  let stop (reference : CrossReference) : Entry :=
    ⟨"A::stop", .methodKind, [], [.seeAlso ["run"]], [reference], "stop", "a.html", .none,
      [⟨"a.h", 4, 7⟩], [topic .functionTopic "fn" "A::stop()" "A::stop" 5,
        ⟨.seeAlso, "sa", "a.h", 6, some "run", none, ["run"], []⟩]⟩
  have collected : (ofSources builder sources table).candidates =
      (parse builder.markers sources).map (Candidate.ofParsed table (fileOrder sources)) :=
    collect_parse (by decide) table
  have bound : (ofSources builder sources table).binding.entries = [run, stop written] := by
    change (Binding.ofCandidates table (ofSources builder sources table).candidates).entries = _
    rw [collected]
    decide +kernel
  have sorted : Resolution.sortedByKey [run, stop written] = [run, stop written] :=
    List.mergeSort_of_pairwise (by decide)
  have built := model_eq builder sources table
  simp only [bound, Resolution.settledEntries, sorted] at built
  have links := links_tell_symbols_apart builder sources table
  rcases links.2 with ⟨model, same, resolves⟩
  cases built.symm.trans same
  have inModel : stop settled ∈ [run, stop written].map
      (Resolution.settledEntry [run, stop written]
        (Resolution.links builder.linkPartners table [run, stop written])) := by decide +kernel
  rcases resolves (stop settled) inModel settled List.mem_cons_self property.name _ rfl with
    ⟨target, found, equal, tells⟩
  cases found
  refine ⟨placed, alsoPlaced, different, ?_, _, same, _, inModel, _, List.mem_cons_self, _, rfl,
    List.mem_cons_self, ?_⟩
  · exact fun shared => apart ((links.1 scope property placed alsoPlaced different).mp shared)
  · exact fun shared =>
      apart ((tells scope List.mem_cons_self placed alsoPlaced different).mp shared)

/-- The words of the layout may be names: a method `details` has the link of its class, and a
function the link of one in a class `index`. -/
theorem details_method_clashes_with_class :
    let scope : Symbol := ⟨.classKind, "Foo", none, none, []⟩
    let details : Symbol := ⟨.methodKind, "Foo::details", none, none, []⟩
    let free : Symbol := ⟨.functionKind, "run", none, none, []⟩
    let member : Symbol := ⟨.methodKind, "Index::run", none, none, []⟩
    scope.PlacedByName ∧ details.PlacedByName ∧
      Text.lower scope.name ≠ Text.lower details.name ∧ scope.href = details.href ∧
      free.PlacedByName ∧ member.PlacedByName ∧
      Text.lower free.name ≠ Text.lower member.name ∧ free.href = member.href := by
  intro scope details free member
  have foo : Name.Word ['F', 'o', 'o'] :=
    .identifier (by decide) (List.all_eq_true.mp (by decide))
  have leaf : Name.Word ['d', 'e', 't', 'a', 'i', 'l', 's'] :=
    .identifier (by decide) (List.all_eq_true.mp (by decide))
  have run : Name.Word ['r', 'u', 'n'] :=
    .identifier (by decide) (List.all_eq_true.mp (by decide))
  have index : Name.Word ['I', 'n', 'd', 'e', 'x'] :=
    .identifier (by decide) (List.all_eq_true.mp (by decide))
  exact ⟨⟨.leaf foo, rfl⟩, ⟨.owner foo (.leaf leaf), rfl⟩, by decide, by decide,
    ⟨.leaf run, rfl⟩, ⟨.owner index (.leaf run), rfl⟩, by decide, by decide⟩

end Run

end DocAtlas
