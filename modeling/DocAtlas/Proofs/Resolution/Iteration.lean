import DocAtlas.Proofs.Resolution.Reordering

/-!
# Passes over the same entries in another order

What is written is settled in the order of the keys, whatever order the entries come in.
The links of properties are made in the order in which the properties come, so an entry
that several properties ask to be linked may gain its links in another order. Main
statement: nothing else in what a pass comes to depends on the order of the entries.
-/

namespace DocAtlas

/-- An entry and one with the same links in another order, behind the same references. -/
def Entry.LinkedAlike (entry other : Entry) : Prop :=
  ∃ written links reordered, entry.references = written ++ links ∧
    (∀ link ∈ links, link.origin = .implicit) ∧ reordered.Perm links ∧
    other = { entry with references := written ++ reordered }

/-! ## Links in the order of the properties -/

namespace Link

def leaving (links : List Link) (key : Text) : List Link :=
  links.filter fun link => link.source == key

def askers (table : SymbolTable) (entries : List Entry) (key : Text) : List Entry :=
  entries.filter fun property => !(leaving (requestsOf table entries property) key).isEmpty

theorem mem_leaving {links : List Link} {key : Text} {link : Link} :
    link ∈ leaving links key ↔ link ∈ links ∧ link.source = key := by
  rw [leaving, List.mem_filter, beq_iff_eq]

theorem leaving_append (first second : List Link) (key : Text) :
    leaving (first ++ second) key = leaving first key ++ leaving second key :=
  List.filter_append ..

theorem leaving_cons_of_eq {key : Text} {link : Link} (own : link.source = key)
    (links : List Link) : leaving (link :: links) key = link :: leaving links key :=
  List.filter_cons_of_pos (beq_iff_eq.mpr own)

theorem leaving_cons_of_ne {key : Text} {link : Link} (foreign : link.source ≠ key)
    (links : List Link) : leaving (link :: links) key = leaving links key :=
  List.filter_cons_of_neg fun own => foreign (beq_iff_eq.mp own)

/-- Whether a link is added depends on the links with its source alone. -/
theorem leaving_add (entries : List Entry) (links : List Link) (link : Link) (key : Text) :
    leaving (add entries links link) key =
      if link.source = key then add entries (leaving links key) link else leaving links key := by
  by_cases known : link.Written entries ∨ link ∈ links
  · rw [add_of_known known]
    split
    · next own => rw [add_of_known (known.imp_right fun made => mem_leaving.mpr ⟨made, own⟩)]
    · rfl
  · rw [not_or] at known
    rw [add_of_new known.1 known.2, leaving_append]
    split
    · next own =>
      have absent : link ∉ leaving links key := fun made => known.2 (mem_leaving.mp made).1
      rw [add_of_new known.1 absent, leaving_cons_of_eq own]
      rfl
    · next foreign =>
      rw [leaving_cons_of_ne foreign]
      exact List.append_nil _

theorem leaving_foldl_add (entries : List Entry) (requests links : List Link) (key : Text) :
    leaving (requests.foldl (add entries) links) key =
      (leaving requests key).foldl (add entries) (leaving links key) := by
  induction requests generalizing links with
  | nil => rfl
  | cons request rest induction =>
    rw [List.foldl_cons, induction, leaving_add]
    by_cases own : request.source = key
    · rw [if_pos own, leaving_cons_of_eq own, List.foldl_cons]
    · rw [if_neg own, leaving_cons_of_ne own]

theorem leaving_requests (table : SymbolTable) (entries : List Entry) (key : Text) :
    leaving (requests table entries) key =
      (askers table entries key).flatMap fun property =>
        leaving (requestsOf table entries property) key := by
  -- What an entry asks for depends on all entries, so these stay while the list is gone through.
  have skipped (pending : List Entry) :
      pending.flatMap (fun property => leaving (requestsOf table entries property) key) =
        (pending.filter fun property =>
          !(leaving (requestsOf table entries property) key).isEmpty).flatMap fun property =>
            leaving (requestsOf table entries property) key := by
    induction pending with
    | nil => rfl
    | cons property rest induction =>
      rw [List.flatMap_cons, induction]
      by_cases silent : leaving (requestsOf table entries property) key = []
      · rw [List.filter_cons_of_neg (by simp [silent]), silent, List.nil_append]
      · rw [List.filter_cons_of_pos (by simp [silent]), List.flatMap_cons]
  rw [leaving, requests, List.filter_flatMap]
  exact skipped entries

section

variable {table : SymbolTable} {entries others : List Entry} (shuffled : others.Perm entries)

include shuffled

theorem add_perm : add others = add entries := by
  funext links link
  have references := (shuffled.filter fun entry => entry.key == link.source).flatMap_right
    (·.references)
  rw [add, add, references.any_eq]

theorem requestsOf_perm (table : SymbolTable) :
    requestsOf table others = requestsOf table entries := by
  have requestsTo_perm : requestsTo others = requestsTo entries := by
    funext key partner
    rw [requestsTo, requestsTo, shuffled.any_eq]
  funext property
  rw [requestsOf, requestsOf, requestsTo_perm]

/-- Links from a key are made in one order if those who ask for them come in one order. -/
theorem leaving_ofEntries_perm {key : Text}
    (same : askers table others key = askers table entries key) :
    leaving (ofEntries table others) key = leaving (ofEntries table entries) key := by
  rw [ofEntries_eq, ofEntries_eq, leaving_foldl_add, leaving_foldl_add, leaving_requests,
    leaving_requests, same, requestsOf_perm shuffled, add_perm shuffled]

end

end Link

namespace Resolution

variable {table : SymbolTable} {entries others : List Entry}

/-! ## Links behind what is written -/

theorem settleAll_append {scope : Option Text} {behind settled : List CrossReference}
    (settles : settleAll table entries scope behind = (.ok settled, []))
    (references : List CrossReference) :
    settleAll table entries scope (references ++ behind) =
      ((settleAll table entries scope references).1.map (· ++ settled),
        (settleAll table entries scope references).2) := by
  induction references with
  | nil => exact settles
  | cons reference rest induction =>
    rw [List.cons_append, settleAll, settleAll]
    cases reference.settle (outcome entries scope reference.target) with
    | error fault => rfl
    | ok first =>
      simp only [induction]
      cases (settleAll table entries scope rest).1 <;> rfl

theorem settleAll_referencesOf {links : List Link}
    (lead : ∀ link ∈ links, link.target ∈ keys entries) (entry : Entry) :
    settleAll table entries entry.scope? (referencesOf links entry) =
      ((settleAll table entries entry.scope? entry.references).1.map
          (· ++ gained entries links entry),
        (settleAll table entries entry.scope? entry.references).2) := by
  have fresh : ∀ reference ∈ (Link.leaving links entry.key).map Link.toReference,
      reference.state = .unresolved :=
    List.forall_mem_map.mpr fun link _ => rfl
  have silent : (gained entries links entry).filterMap (diagnostic? table) = [] := by
    refine List.filterMap_eq_nil_iff.mpr fun reference member => ?_
    rcases mem_gained.mp member with ⟨link, made, _, rfl⟩
    have leads := key?_outcome entries entry.scope? link.target
    rw [Name.resolve?_of_mem (lead link made)] at leads
    exact diagnostic?_of_resolved leads
  have settles : settleAll table entries entry.scope?
      ((Link.leaving links entry.key).map Link.toReference) =
        (.ok (gained entries links entry), []) := by
    rw [← silent]
    exact settleAll_of_fresh fresh
  exact settleAll_append settles entry.references

def withLinks (entries : List Entry) (links : List Link) (entry : Entry) : Entry :=
  { entry with references := entry.references ++ gained entries links entry }

theorem settleEntries_eq {links : List Link} (lead : ∀ link ∈ links, link.target ∈ keys entries)
    (pending : List Entry) :
    settleEntries table entries links pending =
      ((settleEntries table entries [] pending).1.map (List.map (withLinks entries links)),
        (settleEntries table entries [] pending).2) := by
  induction pending with
  | nil => rfl
  | cons entry rest induction =>
    have own : referencesOf [] entry = entry.references := List.append_nil _
    rw [settleEntries, settleEntries, settleAll_referencesOf lead, own]
    rcases settleAll table entries entry.scope? entry.references with ⟨outcome, diagnostics⟩
    cases outcome with
    | error fault => rfl
    | ok settled =>
      simp only [Except.map, induction]
      cases (settleEntries table entries [] rest).1 <;> rfl

theorem target_mem_keys {linkPartners : Bool} :
    ∀ link ∈ links linkPartners table entries, link.target ∈ keys entries := by
  intro link made
  cases linkPartners with
  | false => cases made
  | true =>
    rcases Link.exists_target made with ⟨entry, member, target⟩
    exact List.mem_map.mpr ⟨entry, member, target⟩

/-- A pass settles what is written as if no links were asked for. -/
theorem ofEntries_eq (linkPartners : Bool) (table : SymbolTable) (entries : List Entry) :
    let plain := ofEntries false table entries
    ofEntries linkPartners table entries =
      ⟨plain.entries.map
        (List.map (withLinks entries (links linkPartners table entries))), plain.diagnostics⟩ := by
  intro plain
  rw [ofEntries, settleEntries_eq target_mem_keys]
  rfl

/-! ## Another order -/

theorem keys_of_settleEntries {links : List Link} {pending settled : List Entry}
    (passed : (settleEntries table entries links pending).1 = .ok settled) :
    keys settled = keys pending := by
  induction pending generalizing settled with
  | nil =>
    cases passed
    rfl
  | cons entry rest induction =>
    rw [settleEntries] at passed
    generalize settleAll table entries entry.scope? (referencesOf links entry) = own at passed
    rcases own with ⟨outcome, reported⟩
    cases outcome with
    | error fault => cases passed
    | ok references =>
      cases later : (settleEntries table entries links rest).1 with
      | error fault =>
        simp only [later] at passed
        cases passed
      | ok behind =>
        simp only [later] at passed
        cases passed
        exact congrArg (entry.key :: ·) (induction later)

theorem Rearranged.of_perm (nodup : (keys entries).Nodup) (shuffled : others.Perm entries) :
    Rearranged entries others where
  nodup := nodup
  otherNodup := (shuffled.map Entry.key).nodup_iff.mpr nodup
  forth := fun entry here => ⟨entry, shuffled.mem_iff.mpr here, .refl entry⟩
  back := fun entry there => ⟨entry, shuffled.mem_iff.mp there, .refl entry⟩

theorem sortedByKey_of_perm (nodup : (keys entries).Nodup) (shuffled : others.Perm entries) :
    sortedByKey others = sortedByKey entries := by
  have sameMembers : (sortedByKey others).Perm (sortedByKey entries) :=
    ((sortedByKey_perm others).trans shuffled).trans (sortedByKey_perm entries).symm
  refine List.Perm.eq_of_pairwise ?_ (sortedByKey_pairwise others) (sortedByKey_pairwise entries)
    sameMembers
  intro first second there here forward backward
  have inEntries := shuffled.mem_iff.mp (mem_sortedByKey.mp there)
  exact eq_of_key_eq nodup inEntries (mem_sortedByKey.mp here)
    (Text.le_antisymm forward backward)

theorem Rearranged.settleAll_eq (rearranged : Rearranged entries others) (scope : Option Text)
    (references : List CrossReference) :
    settleAll table others scope references = settleAll table entries scope references := by
  induction references with
  | nil => rfl
  | cons reference rest induction =>
    rw [settleAll, settleAll, rearranged.outcome_eq, induction]

theorem Rearranged.settleEntries_eq (rearranged : Rearranged entries others) (links : List Link)
    (pending : List Entry) :
    settleEntries table others links pending = settleEntries table entries links pending := by
  induction pending with
  | nil => rfl
  | cons entry rest induction =>
    rw [settleEntries, settleEntries, rearranged.settleAll_eq, induction]

theorem ofEntries_plain_of_perm (nodup : (keys entries).Nodup) (shuffled : others.Perm entries)
    (table : SymbolTable) : ofEntries false table others = ofEntries false table entries := by
  have rearranged := Rearranged.of_perm nodup shuffled
  rw [ofEntries, ofEntries, sortedByKey_of_perm nodup shuffled, rearranged.settleEntries_eq]
  rfl

theorem Rearranged.gained_eq_iff (rearranged : Rearranged entries others)
    {links otherLinks : List Link} {entry : Entry} :
    gained others otherLinks entry = gained entries links entry ↔
      Link.leaving otherLinks entry.key = Link.leaving links entry.key := by
  have injective : Function.Injective fun link : Link =>
      settled entries entry.scope? link.toReference := by
    intro first second same
    cases first
    cases second
    cases same
    rfl
  rw [gained, gained, rearranged.settled_eq, List.map_map, List.map_map]
  exact injective.list_map.eq_iff

theorem Rearranged.withLinks_eq_iff (rearranged : Rearranged entries others)
    {links otherLinks : List Link} {entry : Entry} :
    withLinks others otherLinks entry = withLinks entries links entry ↔
      Link.leaving otherLinks entry.key = Link.leaving links entry.key := by
  rw [← rearranged.gained_eq_iff]
  constructor
  · intro same
    exact List.append_cancel_left (congrArg Entry.references same)
  · intro same
    rw [withLinks, withLinks, same]

theorem Rearranged.linkedAlike (rearranged : Rearranged entries others)
    {links otherLinks : List Link} (sameLinks : otherLinks.Perm links) (entry : Entry) :
    (withLinks entries links entry).LinkedAlike (withLinks others otherLinks entry) := by
  refine ⟨entry.references, gained entries links entry, gained others otherLinks entry, rfl, ?_, ?_,
    rfl⟩
  · intro reference member
    rcases mem_gained.mp member with ⟨link, _, _, rfl⟩
    rfl
  · rw [gained, gained, rearranged.settled_eq]
    exact ((sameLinks.filter _).map _).map _

theorem Rearranged.map_withLinks_eq_iff (rearranged : Rearranged entries others)
    {links otherLinks : List Link} {settled : List Entry}
    (passed : (ofEntries false table entries).entries = .ok settled) :
    settled.map (withLinks others otherLinks) = settled.map (withLinks entries links) ↔
      ∀ entry ∈ entries, Link.leaving otherLinks entry.key = Link.leaving links entry.key := by
  -- Settled entries hold other references but have the keys of those they were made from.
  let Same (key : Text) : Prop := Link.leaving otherLinks key = Link.leaving links key
  have sameKeys : keys settled = keys (sortedByKey entries) := keys_of_settleEntries passed
  have sideBySide : settled.map (withLinks others otherLinks) =
      settled.map (withLinks entries links) ↔ ∀ entry ∈ settled, Same entry.key :=
    List.map_inj_left.trans (forall₂_congr fun _ _ => rearranged.withLinks_eq_iff)
  have settledKeys : (∀ entry ∈ settled, Same entry.key) ↔ ∀ key ∈ keys settled, Same key :=
    List.forall_mem_map.symm
  have boundKeys : (∀ key ∈ keys (sortedByKey entries), Same key) ↔
      ∀ entry ∈ sortedByKey entries, Same entry.key := List.forall_mem_map
  rw [sideBySide, settledKeys, sameKeys, boundKeys]
  exact forall_congr' fun entry => imp_congr_left mem_sortedByKey

section

variable {linkPartners : Bool}

theorem ofEntries_of_ok {settled : List Entry}
    (passed : (ofEntries false table entries).entries = .ok settled) :
    ofEntries linkPartners table entries =
      ⟨.ok (settled.map (withLinks entries (links linkPartners table entries))),
        (ofEntries false table entries).diagnostics⟩ := by
  rw [ofEntries_eq, passed]
  rfl

theorem ofEntries_of_error {error : AlreadySettled}
    (failed : (ofEntries false table entries).entries = .error error) :
    ofEntries linkPartners table entries =
      ⟨.error error, (ofEntries false table entries).diagnostics⟩ := by
  rw [ofEntries_eq, failed]
  rfl

theorem leaving_links_perm (shuffled : others.Perm entries) {key : Text}
    (same : linkPartners = true → Link.askers table others key = Link.askers table entries key) :
    Link.leaving (links linkPartners table others) key =
      Link.leaving (links linkPartners table entries) key := by
  cases linkPartners with
  | false => rfl
  | true => exact Link.leaving_ofEntries_perm shuffled (same rfl)

end

/-- Errors, diagnostics, entries and what is written in them do not depend on the order in
which a pass goes through the entries. Entries gain the same links, and in the same order if
those who ask for the links of an entry come in the same order. -/
theorem order_shows_in_links_only (nodup : (keys entries).Nodup)
    (shuffled : others.Perm entries) (linkPartners : Bool) (table : SymbolTable) :
    let here := ofEntries linkPartners table entries
    let there := ofEntries linkPartners table others
    there.diagnostics = here.diagnostics ∧
      (∀ error, here.entries = .error error → there = here) ∧
      (∀ resolved, here.entries = .ok resolved →
        ∃ reordered, there.entries = .ok reordered ∧
          List.Forall₂ Entry.LinkedAlike resolved reordered ∧
          (there = here ↔ ∀ entry ∈ entries,
            Link.leaving (links linkPartners table others) entry.key =
              Link.leaving (links linkPartners table entries) entry.key)) ∧
      ((linkPartners = true → ∀ key,
        Link.askers table others key = Link.askers table entries key) → there = here) := by
  intro here there
  have rearranged := Rearranged.of_perm nodup shuffled
  have samePlain := ofEntries_plain_of_perm nodup shuffled table
  -- Links always settle, so a pass fails or not by what is written.
  cases passed : (ofEntries false table entries).entries with
  | error fault =>
    have hereFails : here = _ := ofEntries_of_error passed
    have thereFails : there = _ := ofEntries_of_error (samePlain ▸ passed)
    have same : there = here := by rw [thereFails, hereFails, samePlain]
    refine ⟨congrArg Resolution.diagnostics same, fun _ _ => same, ?_, fun _ => same⟩
    intro resolved succeeded
    rw [hereFails] at succeeded
    cases succeeded
  | ok settled =>
    have herePasses : here = _ := ofEntries_of_ok passed
    have therePasses : there = _ := ofEntries_of_ok (samePlain ▸ passed)
    rw [samePlain] at therePasses
    have same : there = here ↔ ∀ entry ∈ entries,
        Link.leaving (links linkPartners table others) entry.key =
          Link.leaving (links linkPartners table entries) entry.key := by
      rw [← rearranged.map_withLinks_eq_iff passed, herePasses, therePasses]
      simp
    refine ⟨by rw [herePasses, therePasses], ?_, ?_, ?_⟩
    · intro error failed
      rw [herePasses] at failed
      cases failed
    · intro resolved succeeded
      rw [herePasses] at succeeded
      cases succeeded
      refine ⟨_, congrArg Resolution.entries therePasses, ?_, same⟩
      rw [List.forall₂_map_left_iff, List.forall₂_map_right_iff, List.forall₂_same]
      exact fun entry _ => rearranged.linkedAlike (rearranged.links_perm linkPartners table) entry
    · intro inOrder
      exact same.mpr fun entry _ => leaving_links_perm shuffled fun linking => inOrder linking _

/-- A property and its reader come to the same links in either order, for only the property
asks for them. -/
theorem order_shows_in_links_only_of_one_property :
    let table := SymbolTable.ofList
      [⟨.propertyKind, "p", none, none, [(.text "read", .text "r")]⟩,
        ⟨.functionKind, "r", none, none, []⟩]
    let p : Entry := ⟨"p", .propertyKind, [], [], [], "p-prop", "index.html", .none, [], []⟩
    let r : Entry := ⟨"r", .functionKind, [], [], [], "r", "index.html", .none, [], []⟩
    (keys [p, r]).Nodup ∧ [r, p].Perm [p, r] ∧ Link.askers table [r, p] "r" = [p] ∧
      Link.leaving (Link.ofEntries table [r, p]) "r" = [⟨"r", "p"⟩] ∧
      ofEntries true table [r, p] = ofEntries true table [p, r] := by
  intro table p r
  have nodup : (keys [p, r]).Nodup := by decide
  have shuffled : [r, p].Perm [p, r] := .swap p r []
  have onlyProperty (key : Text) : Link.askers table [r, p] key = Link.askers table [p, r] key := by
    have silent : Link.requestsOf table [p, r] r = [] := rfl
    simp [Link.askers, Link.requestsOf_perm shuffled, List.filter_cons, silent, Link.leaving]
  refine ⟨nodup, shuffled, by decide, by decide, ?_⟩
  exact (order_shows_in_links_only nodup shuffled true table).2.2.2 fun _ => onlyProperty

/-- A function that reads two properties is linked with the one that comes first in front of
the other, whichever that is. -/
theorem shared_reader_shows_order :
    let table := SymbolTable.ofList
      [⟨.propertyKind, "p", none, none, [(.text "read", .text "r")]⟩,
        ⟨.propertyKind, "q", none, none, [(.text "read", .text "r")]⟩,
        ⟨.functionKind, "r", none, none, []⟩]
    let p : Entry := ⟨"p", .propertyKind, [], [], [], "p-prop", "index.html", .none, [], []⟩
    let q : Entry := ⟨"q", .propertyKind, [], [], [], "q-prop", "index.html", .none, [], []⟩
    let r : Entry := ⟨"r", .functionKind, [], [], [], "r", "index.html", .none, [], []⟩
    (keys [p, q, r]).Nodup ∧ [q, p, r].Perm [p, q, r] ∧
      ofEntries true table [q, p, r] ≠ ofEntries true table [p, q, r] := by
  intro table p q r
  have nodup : (keys [p, q, r]).Nodup := by decide
  have shuffled : [q, p, r].Perm [p, q, r] := .swap p q [r]
  have fresh : ∀ entry ∈ [p, q, r], entry.Fresh := by
    intro entry member reference inside
    simp only [List.mem_cons, List.not_mem_nil, or_false] at member
    rcases member with rfl | rfl | rfl <;> exact absurd inside List.not_mem_nil
  have sorted : sortedByKey [p, q, r] = [p, q, r] := List.mergeSort_of_pairwise (by decide)
  have alsoSorted : sortedByKey [q, p, r] = [p, q, r] :=
    (sortedByKey_of_perm nodup shuffled).trans sorted
  refine ⟨nodup, shuffled, fun same => ?_⟩
  rw [ofEntries_of_fresh true table fresh,
    ofEntries_of_fresh true table fun entry member => fresh entry (shuffled.mem_iff.mp member),
    settledEntries, settledEntries, sorted, alsoSorted] at same
  have sameEntries := Except.ok.inj (congrArg Resolution.entries same)
  exact absurd sameEntries (by decide +kernel)

end Resolution

end DocAtlas
