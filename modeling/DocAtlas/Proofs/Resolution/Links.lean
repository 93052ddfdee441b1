import DocAtlas.Proofs.Resolution.Settled
import Mathlib.Data.List.Nodup

/-!
# The links of properties

A documented property asks for a link to each of its documented partners, and for a link
back. A link is made once, and only if its source does not refer to its target already.
Which links there are is therefore a matter of what is asked for and what is written, and
not of the order of the properties.
-/

namespace DocAtlas.Link

variable {table : SymbolTable} {entries : List Entry} {links : List Link} {link : Link}

structure Paired (table : SymbolTable) (entries : List Entry) (property partner : Text) :
    Prop where
  documented : ∃ entry ∈ entries, entry.key = property ∧ entry.kind = .propertyKind
  named : ∃ symbol, table.get? property = some symbol ∧ partner ∈ partners symbol
  different : partner ≠ property
  present : partner ∈ Resolution.keys entries

/-- Whether one end of a link is a property that asks for a link to the other. -/
def Asked (table : SymbolTable) (entries : List Entry) (link : Link) : Prop :=
  Paired table entries link.source link.target ∨ Paired table entries link.target link.source

def Written (entries : List Entry) (link : Link) : Prop :=
  ∃ entry ∈ entries, entry.key = link.source ∧
    ∃ reference ∈ entry.references, reference.target = link.target

/-! ## Adding one link -/

theorem add_of_known (known : link.Written entries ∨ link ∈ links) :
    add entries links link = links := by
  apply if_pos
  rw [Bool.or_eq_true, List.contains_iff_mem]
  refine known.imp_left ?_
  rintro ⟨entry, inside, source, reference, written, target⟩
  apply List.any_eq_true.mpr
  refine ⟨reference, List.mem_flatMap.mpr ⟨entry, List.mem_filter.mpr ⟨inside, ?_⟩, written⟩, ?_⟩
  · exact beq_iff_eq.mpr source
  · exact beq_iff_eq.mpr target

theorem add_of_new (unwritten : ¬link.Written entries) (absent : link ∉ links) :
    add entries links link = links ++ [link] := by
  apply if_neg
  rw [Bool.or_eq_true, List.contains_iff_mem, List.any_eq_true]
  rintro (⟨reference, written, target⟩ | present)
  · rcases List.mem_flatMap.mp written with ⟨entry, selected, inside⟩
    rcases List.mem_filter.mp selected with ⟨member, source⟩
    exact unwritten
      ⟨entry, member, beq_iff_eq.mp source, reference, inside, beq_iff_eq.mp target⟩
  · exact absent present

theorem mem_add {request : Link} :
    link ∈ add entries links request ↔
      link ∈ links ∨ link = request ∧ ¬link.Written entries := by
  by_cases known : request.Written entries ∨ request ∈ links
  · rw [add_of_known known]
    refine ⟨.inl, ?_⟩
    rintro (present | ⟨rfl, unwritten⟩)
    · exact present
    · exact known.resolve_left unwritten
  · rw [not_or] at known
    rw [add_of_new known.1 known.2, List.mem_append, List.mem_singleton]
    refine or_congr_right ⟨?_, And.left⟩
    rintro rfl
    exact ⟨rfl, known.1⟩

theorem nodup_add (nodup : links.Nodup) (request : Link) : (add entries links request).Nodup := by
  by_cases known : request.Written entries ∨ request ∈ links
  · rw [add_of_known known]
    exact nodup
  · rw [not_or] at known
    rw [add_of_new known.1 known.2, ← List.concat_eq_append, List.nodup_concat]
    exact ⟨known.2, nodup⟩

/-! ## Adding all links -/

def requestsTo (entries : List Entry) (key partner : Text) : List Link :=
  if partner = key ∨ ¬entries.any (fun entry => entry.key == partner) then []
  else [⟨key, partner⟩, ⟨partner, key⟩]

def requestsOf (table : SymbolTable) (entries : List Entry) (entry : Entry) : List Link :=
  match entry.kind, table.get? entry.key with
  | .propertyKind, some symbol => (partners symbol).flatMap (requestsTo entries entry.key)
  | _, _ => []

def requests (table : SymbolTable) (entries : List Entry) : List Link :=
  entries.flatMap (requestsOf table entries)

theorem addPair_eq (entries : List Entry) (key : Text) :
    addPair entries key = fun links partner =>
      (requestsTo entries key partner).foldl (add entries) links := by
  funext links partner
  unfold addPair requestsTo
  split <;> rfl

theorem addProperty_of_other {entry : Entry}
    (other : ∀ symbol, entry.kind = .propertyKind → table.get? entry.key ≠ some symbol) :
    addProperty table entries links entry = links := by
  unfold addProperty
  split
  · next symbol property known => exact absurd known (other symbol property)
  · rfl

theorem requestsOf_of_other {entry : Entry}
    (other : ∀ symbol, entry.kind = .propertyKind → table.get? entry.key ≠ some symbol) :
    requestsOf table entries entry = [] := by
  unfold requestsOf
  split
  · next symbol property known => exact absurd known (other symbol property)
  · rfl

theorem addProperty_eq (table : SymbolTable) (entries : List Entry) :
    addProperty table entries = fun links entry =>
      (requestsOf table entries entry).foldl (add entries) links := by
  funext links entry
  by_cases asks : entry.kind = .propertyKind ∧ ∃ symbol, table.get? entry.key = some symbol
  · rcases asks with ⟨property, symbol, known⟩
    simp only [addProperty, requestsOf, property, known, List.foldl_flatMap, addPair_eq]
  · have other : ∀ symbol, entry.kind = .propertyKind → table.get? entry.key ≠ some symbol :=
      fun symbol property known => asks ⟨property, symbol, known⟩
    rw [addProperty_of_other other, requestsOf_of_other other, List.foldl_nil]

theorem ofEntries_eq (table : SymbolTable) (entries : List Entry) :
    ofEntries table entries = (requests table entries).foldl (add entries) [] := by
  rw [requests, List.foldl_flatMap, ofEntries, addProperty_eq]

theorem mem_foldl_add {requests : List Link} :
    link ∈ requests.foldl (add entries) links ↔
      link ∈ links ∨ link ∈ requests ∧ ¬link.Written entries := by
  induction requests generalizing links with
  | nil => simp
  | cons request rest induction =>
    rw [List.foldl_cons, induction, mem_add, List.mem_cons, or_assoc, ← or_and_right]

theorem nodup_foldl_add (nodup : links.Nodup) (requests : List Link) :
    (requests.foldl (add entries) links).Nodup := by
  induction requests generalizing links with
  | nil => exact nodup
  | cons request rest induction => exact induction (nodup_add nodup request)

theorem mem_requestsTo {key partner : Text} :
    link ∈ requestsTo entries key partner ↔
      partner ≠ key ∧ partner ∈ Resolution.keys entries ∧
        (link = ⟨key, partner⟩ ∨ link = ⟨partner, key⟩) := by
  have present : entries.any (fun entry => entry.key == partner) = true ↔
      partner ∈ Resolution.keys entries := by
    simp [Resolution.keys]
  unfold requestsTo
  split
  · next refused =>
    rw [present] at refused
    simp only [List.not_mem_nil, false_iff]
    rintro ⟨different, documented, _⟩
    exact refused.elim different fun absent => absent documented
  · next asked =>
    rw [present, not_or, not_not] at asked
    simp [asked]

theorem mem_requestsOf {entry : Entry} :
    link ∈ requestsOf table entries entry ↔
      entry.kind = .propertyKind ∧ ∃ symbol, table.get? entry.key = some symbol ∧
        ∃ partner ∈ partners symbol, link ∈ requestsTo entries entry.key partner := by
  unfold requestsOf
  split
  · next symbol property known => simp [property, known]
  · next other =>
    simp only [List.not_mem_nil, false_iff]
    rintro ⟨property, symbol, known, _⟩
    exact other symbol property known

theorem mem_requests :
    link ∈ requests table entries ↔ Asked table entries link := by
  rw [requests, List.mem_flatMap, Asked]
  constructor
  · rintro ⟨entry, member, asked⟩
    rcases mem_requestsOf.mp asked with ⟨property, symbol, known, partner, named, inside⟩
    rcases mem_requestsTo.mp inside with ⟨different, present, rfl | rfl⟩
    · exact .inl ⟨⟨entry, member, rfl, property⟩, ⟨symbol, known, named⟩, different, present⟩
    · exact .inr ⟨⟨entry, member, rfl, property⟩, ⟨symbol, known, named⟩, different, present⟩
  · rintro (paired | paired)
    all_goals
      rcases paired.documented with ⟨entry, member, key, property⟩
      rcases paired.named with ⟨symbol, known, named⟩
      refine ⟨entry, member, mem_requestsOf.mpr ⟨property, symbol, key ▸ known, _, named, ?_⟩⟩
      rw [key]
    · exact mem_requestsTo.mpr ⟨paired.different, paired.present, .inl rfl⟩
    · exact mem_requestsTo.mpr ⟨paired.different, paired.present, .inr rfl⟩

/-- A link is made exactly if a property asks for it and it is not written. -/
theorem mem_ofEntries :
    link ∈ ofEntries table entries ↔ Asked table entries link ∧ ¬link.Written entries := by
  rw [ofEntries_eq, mem_foldl_add, mem_requests]
  simp

theorem nodup_ofEntries (table : SymbolTable) (entries : List Entry) :
    (ofEntries table entries).Nodup := by
  rw [ofEntries_eq]
  exact nodup_foldl_add .nil _

/-! ## What entries refer to -/

theorem Asked.exists_source (asked : Asked table entries link) :
    ∃ entry ∈ entries, entry.key = link.source := by
  rcases asked with paired | paired
  · rcases paired.documented with ⟨entry, member, key, _⟩
    exact ⟨entry, member, key⟩
  · exact List.mem_map.mp paired.present

theorem Asked.exists_reference (asked : Asked table entries link) :
    ∃ entry ∈ entries, entry.key = link.source ∧
      ∃ reference ∈ Resolution.referencesOf (ofEntries table entries) entry,
        reference.target = link.target := by
  by_cases written : link.Written entries
  · rcases written with ⟨entry, member, source, reference, inside, target⟩
    exact ⟨entry, member, source, reference, List.mem_append_left _ inside, target⟩
  · rcases asked.exists_source with ⟨entry, member, source⟩
    have made : link ∈ ofEntries table entries := mem_ofEntries.mpr ⟨asked, written⟩
    refine ⟨entry, member, source, link.toReference, List.mem_append_right _ ?_, rfl⟩
    exact List.mem_map_of_mem (List.mem_filter.mpr ⟨made, beq_iff_eq.mpr source.symm⟩)

theorem exists_target (made : link ∈ ofEntries table entries) :
    ∃ entry ∈ entries, entry.key = link.target := by
  have reversed : Asked table entries ⟨link.target, link.source⟩ := (mem_ofEntries.mp made).1.symm
  exact reversed.exists_source

end DocAtlas.Link

namespace DocAtlas.Resolution

variable {table : SymbolTable} {entries : List Entry}

/-! ## What entries gain by links -/

def gained (entries : List Entry) (links : List Link) (entry : Entry) : List CrossReference :=
  ((links.filter fun link => link.source == entry.key).map Link.toReference).map
    (settled entries entry.scope?)

theorem settledEntry_eq (entries : List Entry) (links : List Link) (entry : Entry) :
    let plain := settledEntry entries [] entry
    settledEntry entries links entry =
      { plain with references := plain.references ++ gained entries links entry } := by
  simp [settledEntry, referencesOf, gained]

theorem mem_gained {links : List Link} {entry : Entry} {reference : CrossReference} :
    reference ∈ gained entries links entry ↔
      ∃ link ∈ links, link.source = entry.key ∧
        settled entries entry.scope? link.toReference = reference := by
  simp [gained, and_assoc]

theorem settled_link (nodup : (keys entries).Nodup) {link : Link}
    (made : link ∈ Link.ofEntries table entries) (scope : Option Text) :
    (settled entries scope link.toReference).state.key? = some link.target := by
  rcases Link.exists_target made with ⟨entry, member, target⟩
  have outcome := outcome_of_mem nodup member scope
  rw [target] at outcome
  exact congrArg ReferenceState.key? outcome

theorem diagnostic?_of_resolved {reference : CrossReference} {key : Text}
    (resolved : reference.state.key? = some key) : diagnostic? table reference = none := by
  apply if_neg
  intro dangling
  rw [dangling] at resolved
  cases resolved

end DocAtlas.Resolution
