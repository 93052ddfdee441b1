import DocAtlas.Proofs.Resolution.Links

/-!
# Settling once

The first attempt to settle a reference succeeds, and every later one is refused. A pass
makes all links that are asked for, so a second pass over its entries makes none, and it
stops at the first reference that it meets before it reports anything. Where no entry has
a reference, it changes nothing.
-/

namespace DocAtlas

/-! ## One reference -/

inductive Settling where
  | resolve (key : Text) (href : Option Text)
  | markDangling
deriving DecidableEq, Repr

namespace Settling

def state : Settling → ReferenceState
  | resolve key href => .resolved key href
  | markDangling => .dangling

def apply (reference : CrossReference) : Settling → Except AlreadySettled CrossReference
  | resolve key href => reference.resolve key href
  | markDangling => reference.markDangling

theorem state_ne_unresolved (settling : Settling) : settling.state ≠ .unresolved := by
  cases settling <;> simp [state]

theorem apply_eq (settling : Settling) (reference : CrossReference) :
    settling.apply reference = reference.settle settling.state := by
  cases settling <;> rfl

end Settling

namespace CrossReference

variable {reference : CrossReference}

/-- What an attempt leaves: the settled reference, or the old one if it was refused. -/
def behind (reference : CrossReference) (settling : Settling) : CrossReference :=
  match settling.apply reference with
  | .ok settled => settled
  | .error _ => reference

/-- What some attempts come to, each of them made on what the last one left. -/
def attempts (reference : CrossReference) :
    List Settling → List (Except AlreadySettled CrossReference)
  | [] => []
  | settling :: rest => settling.apply reference :: attempts (reference.behind settling) rest

theorem settle_of_settled (settled : reference.state ≠ .unresolved) (state : ReferenceState) :
    reference.settle state = .error ⟨reference⟩ :=
  if_neg settled

theorem behind_of_settled (settled : reference.state ≠ .unresolved) (settling : Settling) :
    reference.behind settling = reference := by
  rw [behind, settling.apply_eq, settle_of_settled settled]

/-- A settled reference stays as it is, whatever is tried. -/
theorem attempts_of_settled (settled : reference.state ≠ .unresolved)
    (settlings : List Settling) :
    reference.attempts settlings = settlings.map (fun _ => .error ⟨reference⟩) ∧
      settlings.foldl behind reference = reference := by
  induction settlings with
  | nil => exact ⟨rfl, rfl⟩
  | cons settling rest induction =>
    have refused : settling.apply reference = .error ⟨reference⟩ := by
      rw [settling.apply_eq, settle_of_settled settled]
    rw [attempts, List.foldl_cons, behind_of_settled settled, refused, induction.1, induction.2]
    exact ⟨rfl, rfl⟩

theorem attempts_of_unresolved (fresh : reference.state = .unresolved) (first : Settling)
    (later : List Settling) :
    let settled := { reference with state := first.state }
    reference.attempts (first :: later) = .ok settled :: later.map (fun _ => .error ⟨settled⟩) ∧
      (first :: later).foldl behind reference = settled := by
  intro settled
  have accepted : first.apply reference = .ok settled := by
    rw [first.apply_eq, Resolution.settle_of_unresolved _ fresh]
  have left : reference.behind first = settled := by
    rw [behind, accepted]
  have refused : settled.attempts later = _ ∧ _ :=
    attempts_of_settled first.state_ne_unresolved later
  rw [attempts, List.foldl_cons, left, accepted, refused.1, refused.2]
  exact ⟨rfl, rfl⟩

end CrossReference

/-! ## One pass -/

namespace Link

variable {linkPartners : Bool} {table : SymbolTable} {entries : List Entry} {link : Link}

theorem paired_settledEntries {property partner : Text} :
    Paired table (Resolution.settledEntries linkPartners table entries) property partner ↔
      Paired table entries property partner := by
  have sameKeys := Resolution.keys_settledEntries linkPartners table entries
  constructor
  · rintro ⟨⟨entry, member, key, kind⟩, named, different, present⟩
    rcases Resolution.mem_settledEntries.mp member with ⟨bound, inside, rfl⟩
    exact ⟨⟨bound, inside, key, kind⟩, named, different, sameKeys.mem_iff.mp present⟩
  · rintro ⟨⟨bound, inside, key, kind⟩, named, different, present⟩
    exact ⟨⟨_, Resolution.mem_settledEntries.mpr ⟨bound, inside, rfl⟩, key, kind⟩, named,
      different, sameKeys.mem_iff.mpr present⟩

theorem asked_settledEntries :
    Asked table (Resolution.settledEntries linkPartners table entries) link ↔
      Asked table entries link :=
  or_congr paired_settledEntries paired_settledEntries

/-- A pass that makes links leaves none to be made. -/
theorem ofEntries_settledEntries (table : SymbolTable) (entries : List Entry) :
    ofEntries table (Resolution.settledEntries true table entries) = [] := by
  apply List.eq_nil_iff_forall_not_mem.mpr
  intro link made
  rw [mem_ofEntries, asked_settledEntries] at made
  rcases made with ⟨asked, unwritten⟩
  rcases Asked.exists_reference asked with ⟨entry, member, source, reference, refers, target⟩
  -- What an entry refers to by a link, it refers to in writing once it is settled.
  exact unwritten ⟨_, Resolution.mem_settledEntries.mpr ⟨entry, member, rfl⟩, source, _,
    List.mem_map_of_mem refers, target⟩

end Link

namespace Resolution

variable {linkPartners : Bool} {table : SymbolTable} {entries : List Entry}

theorem links_settledEntries (linkPartners : Bool) (table : SymbolTable) (entries : List Entry) :
    links linkPartners table (settledEntries linkPartners table entries) = [] := by
  cases linkPartners with
  | false => rfl
  | true => exact Link.ofEntries_settledEntries table entries

theorem settled_of_mem_settledEntries {entry : Entry}
    (member : entry ∈ settledEntries linkPartners table entries) :
    ∀ reference ∈ entry.references, reference.state ≠ .unresolved := by
  rcases mem_settledEntries.mp member with ⟨bound, _, rfl⟩
  intro reference inside
  rcases List.mem_map.mp inside with ⟨fresh, _, rfl⟩
  exact outcome_ne_unresolved entries bound.scope? fresh.target

theorem settleEntries_of_settled {pending : List Entry}
    (settled : ∀ entry ∈ pending, ∀ reference ∈ entry.references,
      reference.state ≠ .unresolved) :
    settleEntries table entries [] pending =
      match pending.flatMap (·.references) with
      | first :: _ => (.error ⟨first⟩, [])
      | [] => (.ok pending, []) := by
  induction pending with
  | nil => rfl
  | cons entry rest induction =>
    rw [List.forall_mem_cons] at settled
    have own : referencesOf [] entry = entry.references := List.append_nil _
    rw [settleEntries, own, List.flatMap_cons]
    cases written : entry.references with
    | nil =>
      have unchanged : { entry with references := [] } = entry := by rw [← written]
      rw [settleAll, List.nil_append]
      simp only [induction settled.2, unchanged]
      cases rest.flatMap (·.references) <;> rfl
    | cons reference others =>
      have refused := settled.1 reference (written ▸ List.mem_cons_self)
      rw [settleAll, CrossReference.settle_of_settled refused]
      rfl

theorem ofEntries_settledEntries (linkPartners : Bool) (table : SymbolTable)
    (entries : List Entry) :
    ofEntries linkPartners table (settledEntries linkPartners table entries) =
      match (settledEntries linkPartners table entries).flatMap (·.references) with
      | first :: _ => ⟨.error ⟨first⟩, []⟩
      | [] => ⟨.ok (settledEntries linkPartners table entries), []⟩ := by
  rw [ofEntries, links_settledEntries, sortedByKey_settledEntries,
    settleEntries_of_settled fun _ member => settled_of_mem_settledEntries member]
  cases (settledEntries linkPartners table entries).flatMap (·.references) <;> rfl

/-- A reference takes its state from the first attempt, and every later attempt is refused and
leaves it as it is. A pass over fresh entries succeeds; the same pass over its result is
refused at the first reference or, where there is none, gives the same entries. It reports
nothing either way. -/
theorem settles_once (linkPartners : Bool) (table : SymbolTable) {entries : List Entry}
    (fresh : ∀ entry ∈ entries, entry.Fresh) :
    (∀ (reference : CrossReference) (first : Settling) (later : List Settling),
      reference.state = .unresolved →
        let settled := { reference with state := first.state }
        reference.attempts (first :: later) =
            .ok settled :: later.map (fun _ => .error ⟨settled⟩) ∧
          (first :: later).foldl CrossReference.behind reference = settled) ∧
    ∃ settled, (ofEntries linkPartners table entries).entries = .ok settled ∧
      ofEntries linkPartners table settled =
        match settled.flatMap (·.references) with
        | first :: _ => ⟨.error ⟨first⟩, []⟩
        | [] => ⟨.ok settled, []⟩ := by
  constructor
  · intro reference first later unresolved
    exact CrossReference.attempts_of_unresolved unresolved first later
  · refine ⟨settledEntries linkPartners table entries, ?_, ?_⟩
    · rw [ofEntries_of_fresh linkPartners table fresh]
    · exact ofEntries_settledEntries linkPartners table entries

/-- A property and its reader, neither of which refers to anything: the first pass links them,
and the second is refused at the first link. -/
theorem settles_once_with_link :
    let table := SymbolTable.ofList
      [⟨.propertyKind, "p", none, none, [(.text "read", .text "q")]⟩,
        ⟨.functionKind, "q", none, none, []⟩]
    let entries : List Entry :=
      [⟨"p", .propertyKind, [], [], [], "p-prop", "index.html", .none, [], []⟩,
        ⟨"q", .functionKind, [], [], [], "q", "index.html", .none, [], []⟩]
    let first : CrossReference :=
      ⟨"p", "q", .implicit, none, none, .resolved "q" (some "index.html#q")⟩
    let second : CrossReference :=
      ⟨"q", "p", .implicit, none, none, .resolved "p" (some "index.html#p-prop")⟩
    (∀ entry ∈ entries, entry.Fresh) ∧
      ∃ settled, (ofEntries true table entries).entries = .ok settled ∧
        settled.flatMap (·.references) = [first, second] ∧
        ofEntries true table settled = ⟨.error ⟨first⟩, []⟩ := by
  intro table entries first second
  have fresh : ∀ entry ∈ entries, entry.Fresh := by
    intro entry member reference inside
    simp only [entries, List.mem_cons, List.not_mem_nil, or_false] at member
    rcases member with rfl | rfl <;> exact absurd inside List.not_mem_nil
  have inOrder : sortedByKey entries = entries :=
    List.mergeSort_of_pairwise (by decide)
  rcases (settles_once true table fresh).2 with ⟨settled, passed, again⟩
  have references : settled.flatMap (·.references) = [first, second] := by
    rw [ofEntries_of_fresh true table fresh] at passed
    cases passed
    rw [settledEntries, inOrder]
    decide +kernel
  rw [references] at again
  exact ⟨fresh, settled, passed, references, again⟩

end Resolution

end DocAtlas
