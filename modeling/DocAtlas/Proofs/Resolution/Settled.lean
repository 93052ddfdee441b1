import DocAtlas.Model
import DocAtlas.Proofs.Name.Lookup

/-!
# Settled entries

A pass over entries whose references are all unresolved succeeds. It visits every
reference once, those that are written before those that are linked, changes nothing but
their states, and reports exactly those that come out dangling.
-/

namespace DocAtlas

def Entry.Fresh (entry : Entry) : Prop :=
  ∀ reference ∈ entry.references, reference.state = .unresolved

namespace Resolution

def settled (entries : List Entry) (scope : Option Text) (reference : CrossReference) :
    CrossReference :=
  { reference with state := outcome entries scope reference.target }

def settledEntry (entries : List Entry) (links : List Link) (entry : Entry) : Entry :=
  { entry with
    references := (referencesOf links entry).map (settled entries entry.scope?) }

def settledEntries (linkPartners : Bool) (table : SymbolTable) (entries : List Entry) :
    List Entry :=
  (sortedByKey entries).map (settledEntry entries (links linkPartners table entries))

def danglingDiagnostics (table : SymbolTable) (entries : List Entry) : List Diagnostic :=
  (entries.flatMap (·.references)).filterMap (diagnostic? table)

theorem settle_of_unresolved {reference : CrossReference} (state : ReferenceState)
    (fresh : reference.state = .unresolved) :
    reference.settle state = .ok { reference with state := state } := by
  simp [CrossReference.settle, fresh]

theorem settleAll_of_fresh {table : SymbolTable} {entries : List Entry} {scope : Option Text}
    {references : List CrossReference}
    (fresh : ∀ reference ∈ references, reference.state = .unresolved) :
    settleAll table entries scope references =
      (.ok (references.map (settled entries scope)),
        (references.map (settled entries scope)).filterMap (diagnostic? table)) := by
  induction references with
  | nil => rfl
  | cons reference rest induction =>
    rw [List.forall_mem_cons] at fresh
    rw [settleAll, settle_of_unresolved _ fresh.1]
    simp only [induction fresh.2, Except.map, List.map_cons, List.filterMap_cons]
    cases found : diagnostic? table (settled entries scope reference) <;>
      simp_all [settled]

theorem referencesOf_unresolved (links : List Link) {entry : Entry} (fresh : entry.Fresh) :
    ∀ reference ∈ referencesOf links entry, reference.state = .unresolved := by
  intro reference member
  rcases List.mem_append.mp member with written | linked
  · exact fresh reference written
  · obtain ⟨link, _, rfl⟩ := List.mem_map.mp linked
    rfl

theorem settleEntries_of_fresh {table : SymbolTable} {entries : List Entry}
    {links : List Link} {pending : List Entry} (fresh : ∀ entry ∈ pending, entry.Fresh) :
    settleEntries table entries links pending =
      (.ok (pending.map (settledEntry entries links)),
        danglingDiagnostics table (pending.map (settledEntry entries links))) := by
  induction pending with
  | nil => rfl
  | cons entry rest induction =>
    rw [List.forall_mem_cons] at fresh
    rw [settleEntries, settleAll_of_fresh (referencesOf_unresolved links fresh.1)]
    simp only [induction fresh.2, Except.map, danglingDiagnostics, List.map_cons,
      List.flatMap_cons, List.filterMap_append]
    rfl

theorem sortedByKey_perm (entries : List Entry) : (sortedByKey entries).Perm entries :=
  List.mergeSort_perm _ _

theorem mem_sortedByKey {entries : List Entry} {entry : Entry} :
    entry ∈ sortedByKey entries ↔ entry ∈ entries :=
  (sortedByKey_perm entries).mem_iff

theorem ofEntries_of_fresh (linkPartners : Bool) (table : SymbolTable) {entries : List Entry}
    (fresh : ∀ entry ∈ entries, entry.Fresh) :
    ofEntries linkPartners table entries =
      ⟨.ok (settledEntries linkPartners table entries),
        danglingDiagnostics table (settledEntries linkPartners table entries)⟩ := by
  rw [ofEntries, settleEntries_of_fresh fun entry member =>
    fresh entry (mem_sortedByKey.mp member)]
  rfl

/-! ## Finding entries by their keys -/

theorem find?_eq_some {entries : List Entry} (nodup : (keys entries).Nodup) {key : Text}
    {entry : Entry} : find? entries key = some entry ↔ entry ∈ entries ∧ entry.key = key := by
  induction entries with
  | nil => simp [find?]
  | cons head rest induction =>
    rw [keys, List.map_cons, List.nodup_cons] at nodup
    rw [find?, List.find?_cons, List.mem_cons]
    by_cases same : head.key = key
    · have absent : ∀ other ∈ rest, other.key ≠ key := fun other member equal =>
        nodup.1 (List.mem_map.mpr ⟨other, member, equal.trans same.symm⟩)
      rw [beq_iff_eq.mpr same]
      constructor
      · intro equal
        cases equal
        exact ⟨.inl rfl, same⟩
      · rintro ⟨rfl | member, equal⟩
        · rfl
        · exact absurd equal (absent entry member)
    · rw [beq_false_of_ne same]
      refine (induction nodup.2).trans ⟨fun found => ⟨.inr found.1, found.2⟩, ?_⟩
      rintro ⟨rfl | member, equal⟩
      · exact absurd equal same
      · exact ⟨member, equal⟩

theorem eq_of_key_eq {entries : List Entry} (nodup : (keys entries).Nodup)
    {first second : Entry} (here : first ∈ entries) (there : second ∈ entries)
    (same : first.key = second.key) : first = second := by
  have found := (find?_eq_some nodup).mpr ⟨here, same⟩
  rw [(find?_eq_some nodup).mpr ⟨there, rfl⟩] at found
  exact (Option.some.inj found).symm

theorem find?_eq_none {entries : List Entry} {key : Text} :
    find? entries key = none ↔ key ∉ keys entries := by
  simp [find?, keys, List.find?_eq_none]

theorem mem_settledEntries {linkPartners : Bool} {table : SymbolTable} {entries : List Entry}
    {entry : Entry} :
    entry ∈ settledEntries linkPartners table entries ↔
      ∃ bound ∈ entries, settledEntry entries (links linkPartners table entries) bound = entry := by
  simp only [settledEntries, List.mem_map, mem_sortedByKey]

theorem keys_settledEntries (linkPartners : Bool) (table : SymbolTable) (entries : List Entry) :
    (keys (settledEntries linkPartners table entries)).Perm (keys entries) := by
  rw [keys, settledEntries, List.map_map]
  exact (sortedByKey_perm entries).map _

theorem sortedByKey_pairwise (entries : List Entry) :
    (sortedByKey entries).Pairwise fun first second =>
      Text.le first.key second.key = true := by
  apply List.pairwise_mergeSort
  · exact fun _ _ _ left right => Text.le_trans left right
  · exact fun first second => Text.le_total first.key second.key

theorem keys_sortedByKey_pairwise {entries : List Entry} (nodup : (keys entries).Nodup) :
    (keys (sortedByKey entries)).Pairwise fun first second =>
      Text.le first second = true ∧ first ≠ second := by
  have distinct : (keys (sortedByKey entries)).Nodup :=
    ((sortedByKey_perm entries).map Entry.key).nodup_iff.mpr nodup
  exact (List.pairwise_map.mpr (sortedByKey_pairwise entries)).and distinct

theorem settledEntries_pairwise (linkPartners : Bool) (table : SymbolTable)
    (entries : List Entry) :
    (settledEntries linkPartners table entries).Pairwise fun first second =>
      Text.le first.key second.key = true := by
  rw [settledEntries, List.pairwise_map]
  exact sortedByKey_pairwise entries

theorem keys_settledEntries_pairwise (linkPartners : Bool) (table : SymbolTable)
    {entries : List Entry} (nodup : (keys entries).Nodup) :
    (keys (settledEntries linkPartners table entries)).Pairwise fun first second =>
      Text.le first second = true ∧ first ≠ second := by
  have distinct := (keys_settledEntries linkPartners table entries).nodup_iff.mpr nodup
  have ordered := settledEntries_pairwise linkPartners table entries
  exact (List.pairwise_map.mpr ordered).and distinct

theorem sortedByKey_settledEntries (linkPartners : Bool) (table : SymbolTable)
    (entries : List Entry) :
    sortedByKey (settledEntries linkPartners table entries) =
      settledEntries linkPartners table entries :=
  List.mergeSort_of_pairwise (settledEntries_pairwise linkPartners table entries)

theorem find?_settledEntries (linkPartners : Bool) (table : SymbolTable) {entries : List Entry}
    (nodup : (keys entries).Nodup) (key : Text) :
    find? (settledEntries linkPartners table entries) key =
      (find? entries key).map (settledEntry entries (links linkPartners table entries)) := by
  have same := keys_settledEntries linkPartners table entries
  cases found : find? entries key with
  | none => exact find?_eq_none.mpr fun member => find?_eq_none.mp found (same.mem_iff.mp member)
  | some entry =>
    obtain ⟨inside, own⟩ := (find?_eq_some nodup).mp found
    apply (find?_eq_some (same.nodup_iff.mpr nodup)).mpr
    exact ⟨mem_settledEntries.mpr ⟨entry, inside, rfl⟩, own⟩

theorem key?_outcome (entries : List Entry) (scope : Option Text) (target : Text) :
    (outcome entries scope target).key? = Name.resolve? target (keys entries) scope := by
  unfold outcome
  cases Name.resolve? target (keys entries) scope <;> rfl

theorem outcome_ne_unresolved (entries : List Entry) (scope : Option Text) (target : Text) :
    outcome entries scope target ≠ .unresolved := by
  unfold outcome
  cases Name.resolve? target (keys entries) scope <;> simp

theorem outcome_of_mem {entries : List Entry} (nodup : (keys entries).Nodup) {entry : Entry}
    (member : entry ∈ entries) (scope : Option Text) :
    outcome entries scope entry.key = .resolved entry.key (some entry.href) := by
  have present : entry.key ∈ keys entries := List.mem_map_of_mem member
  have found : find? entries entry.key = some entry := (find?_eq_some nodup).mpr ⟨member, rfl⟩
  simp only [outcome, Name.resolve?_of_mem present, found, Option.map_some]

theorem outcome_eq_lookup? (linkPartners : Bool) (table : SymbolTable) {entries : List Entry}
    (nodup : (keys entries).Nodup) (diagnostics : List Diagnostic) (scope : Option Text)
    (target : Text) :
    outcome entries scope target =
      match Model.lookup? ⟨settledEntries linkPartners table entries, diagnostics⟩ target scope with
      | some found => .resolved found.key (some found.href)
      | none => .dangling := by
  have sameKeys : Name.resolve? target (keys (settledEntries linkPartners table entries)) scope =
      Name.resolve? target (keys entries) scope :=
    Name.resolve?_perm (keys_settledEntries linkPartners table entries) scope
  have sameEntry := find?_settledEntries linkPartners table nodup
  simp only [outcome, Model.lookup?, Model.keys, sameKeys]
  cases resolved : Name.resolve? target (keys entries) scope with
  | none => rfl
  | some key =>
    cases found : find? entries key with
    | none => exact absurd (Name.mem_of_resolve? resolved) (find?_eq_none.mp found)
    | some entry =>
      obtain ⟨_, own⟩ := (find?_eq_some nodup).mp found
      simp only [Option.bind_some, Model.get?, sameEntry, found, Option.map_some]
      rw [← own]
      rfl

end Resolution

end DocAtlas
