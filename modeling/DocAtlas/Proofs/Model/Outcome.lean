import DocAtlas.Proofs.Model.Stages
import DocAtlas.Proofs.Name.Lookup
import DocAtlas.Proofs.Results
import DocAtlas.Proofs.Tag.Faults

/-!
# The outcome of a build

What a caller gives is a table and sources, or the build says what contract is broken. Main
statement: this decides whether there is a model, for no step of a run ever misses what it
looks for, whatever the sources say. Two kinds of sources escape the contract: a number has
no items to look at, and an empty text has none that could be wrong.
-/

namespace DocAtlas

/-! ## What a caller gives -/

namespace Value

inductive IsJson : Value → Prop
  | null : IsJson .null
  | truth (value : Bool) : IsJson (.truth value)
  | integer (value : Int) : IsJson (.integer value)
  | real (value : Float) : IsJson (.real value)
  | text (value : Text) : IsJson (.text value)
  | list {items : List Value} : (∀ item ∈ items, IsJson item) → IsJson (.list items)
  | mapping {entries : List (Value × Value)} :
      (∀ entry ∈ entries, ∃ key, entry.1 = .text key) → (∀ entry ∈ entries, IsJson entry.2) →
      IsJson (.mapping entries)

/-- A truth value counts as a number. -/
inductive IsNumber : Value → Prop
  | truth (value : Bool) : IsNumber (.truth value)
  | integer (value : Int) : IsNumber (.integer value)
  | real (value : Float) : IsNumber (.real value)

end Value

namespace Source

def toItem (source : Source) : Value := .list [.text source.path, .text source.text]

def toEntry (source : Source) : Value × Value := (.text source.path, .text source.text)

inductive GivenBy : Value → List Source → Prop
  | pairs (sources : List Source) : GivenBy (.list (sources.map toItem)) sources
  | texts (sources : List Source) : GivenBy (.mapping (sources.map toEntry)) sources

/-- The first item that is no source has an integer in it that is too long to be written. -/
inductive StopsAtLong : Value → Prop
  | item (before : List Source) (wrong : Value) (after : List Value) :
      wrong.hasLongInteger = true →
      StopsAtLong (.list (before.map toItem ++ wrong :: after))
  | entry (before : List Source) (wrong : Value × Value) (after : List (Value × Value)) :
      (Value.pair wrong.1 wrong.2).hasLongInteger = true →
      StopsAtLong (.mapping (before.map toEntry ++ wrong :: after))

section

variable {α : Type} {read : α → Except BuildError Source} {write : Source → α} {shown : α → Value}

/-- A way to write sources as items: what is read is what was written, and every other item is
refused for what it shows, which a source does not make too long to be written. -/
structure Reads (read : α → Except BuildError Source) (write : Source → α) (shown : α → Value) :
    Prop where
  ok : ∀ item source, read item = .ok source ↔ write source = item
  refused : ∀ item error, read item = .error error → error = refusal (shown item)
  short : ∀ source, (shown (write source)).hasLongInteger = false

namespace Reads

theorem of_long (reads : Reads read write shown) {item : α}
    (long : (shown item).hasLongInteger = true) : read item = .error .longInteger := by
  cases outcome : read item with
  | ok source =>
    rw [← (reads.ok item source).mp outcome, reads.short] at long
    cases long
  | error error => rw [reads.refused item error outcome, refusal, if_pos long]

theorem mapM_of_long (reads : Reads read write shown) (before : List Source) (after : List α)
    {wrong : α} (long : (shown wrong).hasLongInteger = true) :
    (before.map write ++ wrong :: after).mapM read = .error .longInteger :=
  (mapM_eq_error reads.ok).mpr ⟨before, wrong, after, rfl, reads.of_long long⟩

theorem cases_of_mapM (reads : Reads read write shown) {items : List α} {error : BuildError}
    (refused : items.mapM read = .error error) :
    (error = .longInteger ∧ ∃ (before : List Source) (wrong : α) (after : List α),
      items = before.map write ++ wrong :: after ∧ (shown wrong).hasLongInteger = true) ∨
      ∃ broken, error = .contract broken := by
  rcases (mapM_eq_error reads.ok).mp refused with ⟨before, wrong, after, rfl, here⟩
  rw [reads.refused wrong error here, refusal]
  split
  · next long => exact .inl ⟨rfl, before, wrong, after, rfl, long⟩
  · exact .inr ⟨_, rfl⟩

end Reads

end

theorem reads_ofItem : Reads ofItem toItem id where
  ok := by
    intro item source
    constructor
    · intro read
      unfold ofItem at read
      split at read
      · cases read
        rfl
      · cases read
    · rintro rfl
      rfl
  refused := by
    intro item error refused
    unfold ofItem at refused
    split at refused
    · cases refused
    · exact (Except.error.inj refused).symm
  short := fun _ => rfl

theorem reads_ofEntry : Reads ofEntry toEntry fun entry => .pair entry.1 entry.2 where
  ok := by
    intro entry source
    constructor
    · intro read
      unfold ofEntry at read
      split at read
      · cases read
        rfl
      · cases read
    · rintro rfl
      rfl
  refused := by
    intro entry error refused
    unfold ofEntry at refused
    split at refused
    · cases refused
    · exact (Except.error.inj refused).symm
  short := fun _ => rfl

theorem ofValue_eq_ok {value : Value} {sources : List Source} :
    ofValue value = .ok sources ↔ GivenBy value sources ∨ value = .text [] ∧ sources = [] := by
  constructor
  · intro read
    unfold ofValue at read
    split at read
    · cases read
    · next items =>
      rw [← (mapM_eq_ok reads_ofItem.ok).mp read]
      exact .inl (.pairs sources)
    · next entries =>
      rw [← (mapM_eq_ok reads_ofEntry.ok).mp read]
      exact .inl (.texts sources)
    · cases read
      exact .inr ⟨rfl, rfl⟩
    · cases read
    · cases read
  · rintro ((_ | _) | ⟨rfl, rfl⟩)
    · exact (mapM_eq_ok reads_ofItem.ok).mpr rfl
    · exact (mapM_eq_ok reads_ofEntry.ok).mpr rfl
    · rfl

theorem ofValue_of_stopsAtLong {value : Value} (stops : StopsAtLong value) :
    ofValue value = .error .longInteger := by
  cases stops with
  | item before wrong after long => exact reads_ofItem.mapM_of_long before after long
  | entry before wrong after long => exact reads_ofEntry.mapM_of_long before after long

/-- Sources that are refused break the contract, unless there is nothing to look at or what is
looked at cannot be shown. -/
theorem refusal_of_ofValue {value : Value} (json : value.IsJson) {error : BuildError}
    (refused : ofValue value = .error error) :
    error = .sourcesNotIterable ∧ value.IsNumber ∨ error = .longInteger ∧ StopsAtLong value ∨
      ∃ broken, error = .contract broken := by
  cases json with
  | null =>
    cases refused
    exact .inr (.inr ⟨_, rfl⟩)
  | truth value =>
    cases refused
    exact .inl ⟨rfl, .truth value⟩
  | integer value =>
    cases refused
    exact .inl ⟨rfl, .integer value⟩
  | real value =>
    cases refused
    exact .inl ⟨rfl, .real value⟩
  | text value =>
    cases value with
    | nil => cases refused
    | cons c rest =>
      cases refused
      exact .inr (.inr ⟨_, rfl⟩)
  | list _ =>
    rcases reads_ofItem.cases_of_mapM refused with ⟨rfl, before, wrong, after, rfl, long⟩ | broken
    · exact .inr (.inl ⟨rfl, .item before wrong after long⟩)
    · exact .inr (.inr broken)
  | mapping _ _ =>
    rcases reads_ofEntry.cases_of_mapM refused with ⟨rfl, before, wrong, after, rfl, long⟩ | broken
    · exact .inr (.inl ⟨rfl, .entry before wrong after long⟩)
    · exact .inr (.inr broken)

section

variable {value : Value} (json : value.IsJson)

include json

theorem ofValue_eq_notIterable : ofValue value = .error .sourcesNotIterable ↔ value.IsNumber := by
  constructor
  · intro refused
    rcases refusal_of_ofValue json refused with ⟨_, number⟩ | ⟨wrong, _⟩ | ⟨_, wrong⟩
    · exact number
    · cases wrong
    · cases wrong
  · rintro (_ | _ | _) <;> rfl

theorem ofValue_eq_longInteger : ofValue value = .error .longInteger ↔ StopsAtLong value := by
  refine ⟨fun refused => ?_, ofValue_of_stopsAtLong⟩
  rcases refusal_of_ofValue json refused with ⟨wrong, _⟩ | ⟨_, stops⟩ | ⟨_, wrong⟩
  · cases wrong
  · exact stops
  · cases wrong

theorem exists_ofValue_eq_contract :
    (∃ broken, ofValue value = .error (.contract broken)) ↔
      (¬∃ sources, ofValue value = .ok sources) ∧ ¬value.IsNumber ∧ ¬StopsAtLong value := by
  rw [← ofValue_eq_notIterable json, ← ofValue_eq_longInteger json]
  constructor
  · rintro ⟨broken, refused⟩
    rw [refused]
    exact ⟨nofun, nofun, nofun⟩
  · rintro ⟨unread, noNumber, short⟩
    cases read : ofValue value with
    | ok sources => exact absurd ⟨sources, read⟩ unread
    | error error =>
      rcases refusal_of_ofValue json read with ⟨rfl, _⟩ | ⟨rfl, _⟩ | ⟨broken, rfl⟩
      · exact absurd read noNumber
      · exact absurd read short
      · exact ⟨broken, rfl⟩

end

end Source

namespace TableInput

/-- A table, or symbols for one; no symbols can also be given as an empty list. -/
inductive Gives : TableInput → SymbolTable → Prop
  | table (given : SymbolTable) : Gives (.table given) given
  | symbols (given : List Symbol) : Gives (.symbols given) (.ofList given)
  | nothing : Gives (.data (.list [])) .empty

theorem toTable_eq_ok {input : TableInput} {table : SymbolTable} :
    input.toTable = .ok table ↔ input.Gives table := by
  constructor
  · intro made
    unfold toTable at made
    split at made
    · cases made
      exact .table _
    · cases made
      exact .symbols _
    · cases made
    · cases made
      exact .nothing
    · cases made
    · cases made
  · rintro (_ | _ | _) <;> rfl

theorem exists_toTable_eq_error {input : TableInput} :
    (∃ broken, input.toTable = .error broken) ↔ ¬∃ table, input.Gives table := by
  simp only [← toTable_eq_ok]
  cases input.toTable <;> simp

end TableInput

/-! ## What a run looks for -/

namespace Vocabulary

theorem level_of_heading {name : Text} (heading : (spec name).kind = .heading) :
    ∃ last level, name.getLast? = some last ∧ Text.digitValue? last = some level := by
  have all : ∀ entry ∈ commands, entry.2.kind = .heading →
      ((entry.1.getLast?).bind Text.digitValue?).isSome := by decide
  unfold spec at heading
  cases listed : lookup? name with
  | none =>
    rw [listed] at heading
    cases heading
  | some row =>
    rw [listed] at heading
    have numbered := all _ (mem_commands_of_lookup? listed) heading
    rcases Option.isSome_iff_exists.mp numbered with ⟨level, found⟩
    rcases Option.bind_eq_some_iff.mp found with ⟨last, ends, digit⟩
    exact ⟨last, level, ends, digit⟩

end Vocabulary

namespace Run

/-- Every step of a run finds what it looks for: declared symbols are in the table, every
comment that has a symbol goes into an entry, no reference is settled before, a key that a
name means is the key of an entry, and a heading's command ends in its level. -/
structure FindsAll (run : Run) : Prop where
  declared : ∀ candidate ∈ run.candidates, ∀ name, candidate.adjacent = some name →
    ∃ symbol, run.table.get? name = some symbol
  bound : ∀ candidate ∈ run.candidates, ∀ key, candidate.chosen? run.table = some key →
    ∃ entry ∈ run.binding.entries, entry.key = key
  unsettled : ∀ links, ∀ entry ∈ run.binding.entries,
    ∀ reference ∈ Resolution.referencesOf links entry, reference.state = .unresolved
  meant : ∀ name scope key,
    Name.resolve? name (Resolution.keys run.binding.entries) scope = some key →
      ∃ entry, Resolution.find? run.binding.entries key = some entry
  numbered : ∀ parsed ∈ run.parsed, ∀ tag ∈ parsed.tags, tag.kind = .heading →
    ∃ last level, tag.marker.getLast? = some last ∧ Text.digitValue? last = some level

theorem findsAll (builder : Builder) (sources : List Source) (table : SymbolTable) :
    (ofSources builder sources table).FindsAll where
  declared := by
    intro candidate member name adjacent
    rcases List.mem_map.mp ((candidates_perm builder sources table).mem_iff.mp member) with
      ⟨parsed, _, rfl⟩
    rcases Option.map_eq_some_iff.mp adjacent with ⟨symbol, placed, rfl⟩
    rcases Option.bind_eq_some_iff.mp placed with ⟨line, _, found⟩
    exact ⟨symbol, SymbolTable.get?_of_at? found⟩
  bound := by
    intro candidate member key chosen
    rcases Binding.entry_of_chosen? member chosen with ⟨symbol, name, bound, _⟩
    refine ⟨_, bound, ?_⟩
    rw [Entry.ofComments_eq, name]
  unsettled := by
    intro links entry member
    exact Resolution.referencesOf_unresolved links (Binding.fresh_of_mem_entries member)
  meant := by
    intro name scope key found
    cases looked : Resolution.find? (ofSources builder sources table).binding.entries key with
    | none => exact absurd (Name.mem_of_resolve? found) (Resolution.find?_eq_none.mp looked)
    | some entry => exact ⟨entry, rfl⟩
  numbered := by
    intro parsed inRun tag inComment heading
    rcases List.mem_map.mp inRun with ⟨comment, _, rfl⟩
    rw [Comment.tags_parse] at inComment
    rcases List.mem_filterMap.mp inComment with ⟨passage, _, made⟩
    cases passage with
    | gap line => cases made
    | prose first rest =>
      cases made
      cases heading
    | command line name argument body =>
      cases made
      exact Vocabulary.level_of_heading heading
    | code line name argument body closing =>
      cases made
      exact Vocabulary.level_of_heading heading

end Run

namespace Model

theorem build_of_ok {builder : Builder} {value : Value} {input : TableInput}
    {table : SymbolTable} {sources : List Source} (given : input.toTable = .ok table)
    (read : Source.ofValue value = .ok sources) :
    build builder value input = (Run.ofSources builder sources table).model := by
  simp only [build, given, read]
  rfl

theorem build_of_error {builder : Builder} {value : Value} {input : TableInput}
    {table : SymbolTable} {error : BuildError} (given : input.toTable = .ok table)
    (refused : Source.ofValue value = .error error) :
    build builder value input = .error error := by
  simp only [build, given, refused]
  rfl

/-- A caller gives sources, or an empty text, which none could be read from. -/
def Given (sources : Value) : Prop :=
  (∃ given, Source.GivenBy sources given) ∨ sources = .text []

theorem given_iff {sources : Value} :
    Given sources ↔ ∃ given, Source.ofValue sources = .ok given := by
  simp only [Given, Source.ofValue_eq_ok, exists_or, exists_and_left, exists_eq, and_true]

theorem exists_build_eq_ok {builder : Builder} {sources : Value} {table : TableInput} :
    (∃ model, build builder sources table = .ok model) ↔
      (∃ symbols, table.Gives symbols) ∧ Given sources := by
  simp only [← TableInput.toTable_eq_ok, given_iff]
  constructor
  · rintro ⟨model, built⟩
    rcases bind_eq_ok.mp built with ⟨symbols, given, next⟩
    rcases bind_eq_ok.mp next with ⟨list, read, _⟩
    exact ⟨⟨symbols, mapError_eq_ok.mp given⟩, list, read⟩
  · rintro ⟨⟨symbols, given⟩, list, read⟩
    exact ⟨_, (build_of_ok given read).trans (Run.model_eq builder list symbols)⟩

/-- No run fails, so an error is one about the table or, where that is given, about the
sources. -/
theorem build_eq_error {builder : Builder} {sources : Value} {table : TableInput}
    {error : BuildError} :
    build builder sources table = .error error ↔
      (∃ broken, table.toTable = .error broken ∧ error = .contract broken) ∨
        (∃ symbols, table.Gives symbols) ∧ Source.ofValue sources = .error error := by
  simp only [← TableInput.toTable_eq_ok]
  cases given : table.toTable with
  | error broken =>
    simp only [build, given]
    constructor
    · intro failed
      cases failed
      exact .inl ⟨broken, rfl, rfl⟩
    · rintro (⟨other, same, rfl⟩ | ⟨⟨symbols, none⟩, _⟩)
      · cases same
        rfl
      · cases none
  | ok symbols =>
    cases read : Source.ofValue sources with
    | ok list =>
      rw [build_of_ok given read, Run.model_eq builder list symbols]
      exact iff_of_false nofun (by rintro (⟨_, none, _⟩ | ⟨_, none⟩) <;> cases none)
    | error other =>
      rw [build_of_error given read]
      constructor
      · intro same
        cases same
        exact .inr ⟨⟨symbols, rfl⟩, rfl⟩
      · rintro (⟨_, none, _⟩ | ⟨_, same⟩)
        · cases none
        · cases same
          rfl

/-- There is a model exactly if the caller gives a table and sources or an empty text, and
then it is that of a run that finds all it looks for. Everything else breaks the contract,
except for a number in place of the sources and for a first wrong item that is too long to be
shown. -/
theorem build_outcome (builder : Builder) {sources : Value} (json : sources.IsJson)
    (table : TableInput) :
    ((∃ model, build builder sources table = .ok model) ↔
        (∃ symbols, table.Gives symbols) ∧
          ((∃ given, Source.GivenBy sources given) ∨ sources = .text [])) ∧
      ((∃ broken, build builder sources table = .error (.contract broken)) ↔
        (¬∃ symbols, table.Gives symbols) ∨
          ¬((∃ given, Source.GivenBy sources given) ∨ sources = .text []) ∧
            ¬sources.IsNumber ∧ ¬Source.StopsAtLong sources) ∧
      (build builder sources table = .error .sourcesNotIterable ↔
        (∃ symbols, table.Gives symbols) ∧ sources.IsNumber) ∧
      (build builder sources table = .error .longInteger ↔
        (∃ symbols, table.Gives symbols) ∧ Source.StopsAtLong sources) ∧
      ∀ symbols given, table.Gives symbols → Source.GivenBy sources given →
        let run := Run.ofSources builder given symbols
        build builder sources table = run.model ∧ run.FindsAll := by
  refine ⟨exists_build_eq_ok, ?_, ?_, ?_, ?_⟩
  · have wrongSources := Source.exists_ofValue_eq_contract json
    rw [← given_iff] at wrongSources
    rw [← Given, ← wrongSources]
    by_cases has : ∃ symbols, table.Gives symbols
    · have noError : ∀ broken, table.toTable ≠ .error broken :=
        fun broken wrong => TableInput.exists_toTable_eq_error.mp ⟨broken, wrong⟩ has
      simp [build_eq_error, has, noError]
    · rcases TableInput.exists_toTable_eq_error.mpr has with ⟨broken, refused⟩
      exact iff_of_true ⟨broken, build_eq_error.mpr (.inl ⟨broken, refused, rfl⟩)⟩ (.inl has)
  · rw [build_eq_error, ← Source.ofValue_eq_notIterable json]
    exact or_iff_right (by rintro ⟨_, _, wrong⟩; cases wrong)
  · rw [build_eq_error, ← Source.ofValue_eq_longInteger json]
    exact or_iff_right (by rintro ⟨_, _, wrong⟩; cases wrong)
  · intro symbols given has listed
    have read := Source.ofValue_eq_ok.mpr (.inl listed)
    exact ⟨build_of_ok (TableInput.toTable_eq_ok.mpr has) read,
      Run.findsAll builder given symbols⟩

/-- What the files say is nothing that a build could fail on. -/
theorem build_outcome_of_mapping :
    let builder : Builder := ⟨⟨["/*!"], by decide⟩, true, 1, by decide⟩
    let given : List Source := [⟨"a.h", "/*! \\class A\n\\section1\n\\sa B, C"⟩, ⟨"b.h", "*/ x"⟩]
    let sources : Value := .mapping (given.map Source.toEntry)
    let symbols : List Symbol := [⟨.classKind, "A", none, none, []⟩]
    sources.IsJson ∧ (∃ model, build builder sources (.symbols symbols) = .ok model) ∧
      (Run.ofSources builder given (.ofList symbols)).FindsAll := by
  intro builder given sources symbols
  have json : sources.IsJson := by
    apply Value.IsJson.mapping
    · rw [List.forall_mem_map]
      exact fun source _ => ⟨source.path, rfl⟩
    · rw [List.forall_mem_map]
      exact fun source _ => .text source.text
  have listed : Source.GivenBy sources given := .texts given
  have has : (TableInput.symbols symbols).Gives (.ofList symbols) := .symbols symbols
  have outcome := build_outcome builder json (.symbols symbols)
  exact ⟨json, outcome.1.mpr ⟨⟨_, has⟩, .inl ⟨given, listed⟩⟩,
    (outcome.2.2.2.2 _ given has listed).2⟩

/-- Neither a number nor an empty text are sources, but no contract is broken by them. -/
theorem number_breaks_no_contract :
    let builder : Builder := ⟨⟨["/*!"], by decide⟩, false, 1, by decide⟩
    let table : TableInput := .table .empty
    (∃ symbols, table.Gives symbols) ∧
      (¬∃ given, Source.GivenBy (.integer 5) given) ∧
      build builder (.integer 5) table = .error .sourcesNotIterable ∧
      (¬∃ broken, build builder (.integer 5) table = .error (.contract broken)) ∧
      (¬∃ given, Source.GivenBy (.text []) given) ∧
      build builder (.text []) table = .ok ⟨[], []⟩ := by
  intro builder table
  have refused : build builder (.integer 5) table = .error .sourcesNotIterable := rfl
  refine ⟨⟨_, .table .empty⟩, nofun, refused, ?_, nofun, by decide +kernel⟩
  rintro ⟨broken, other⟩
  rw [refused] at other
  cases other

end Model

end DocAtlas
