import DocAtlas.Proofs.Entry.Comparison
import DocAtlas.Proofs.Resolution.Links

/-!
# Resolving in another order

A pass depends on which entries there are and on what they hold, and not on the order of
either: names mean the same, the same links are made, and the same is reported.
-/

namespace DocAtlas

/-- The same entries, each once, in another order and with what they hold in another
order. -/
structure Resolution.Rearranged (entries others : List Entry) : Prop where
  nodup : (keys entries).Nodup
  otherNodup : (keys others).Nodup
  forth : ∀ entry ∈ entries, ∃ other ∈ others, entry.Rearranges other
  back : ∀ other ∈ others, ∃ entry ∈ entries, other.Rearranges entry

namespace Resolution.Rearranged

variable {entries others : List Entry}

theorem symm (rearranged : Rearranged entries others) : Rearranged others entries :=
  ⟨rearranged.otherNodup, rearranged.nodup, rearranged.back, rearranged.forth⟩

theorem keys_subset (rearranged : Rearranged entries others) : keys entries ⊆ keys others := by
  intro key member
  rcases List.mem_map.mp member with ⟨entry, here, rfl⟩
  rcases rearranged.forth entry here with ⟨other, there, rearranges⟩
  exact List.mem_map.mpr ⟨other, there, rearranges.key⟩

theorem keys_perm (rearranged : Rearranged entries others) :
    (keys others).Perm (keys entries) := by
  apply (List.perm_ext_iff_of_nodup rearranged.otherNodup rearranged.nodup).mpr
  exact fun key => ⟨fun there => rearranged.symm.keys_subset there,
    fun here => rearranged.keys_subset here⟩

/-! ## Names -/

theorem outcome_eq (rearranged : Rearranged entries others) (scope : Option Text)
    (target : Text) : outcome others scope target = outcome entries scope target := by
  have sameMeaning : Name.resolve? target (keys others) scope =
      Name.resolve? target (keys entries) scope :=
    Name.resolve?_perm rearranged.keys_perm scope
  cases meant : Name.resolve? target (keys entries) scope with
  | none => rw [outcome, outcome, sameMeaning, meant]
  | some key =>
    rcases List.mem_map.mp (Name.mem_of_resolve? meant) with ⟨entry, here, rfl⟩
    rcases rearranged.forth entry here with ⟨other, there, rearranges⟩
    have found := (find?_eq_some rearranged.nodup).mpr ⟨here, rfl⟩
    have alsoFound := (find?_eq_some rearranged.otherNodup).mpr ⟨there, rearranges.key⟩
    simp only [outcome, sameMeaning, meant, found, alsoFound, Option.map_some, rearranges.href]

theorem settled_eq (rearranged : Rearranged entries others) (scope : Option Text) :
    settled others scope = settled entries scope := by
  funext reference
  rw [settled, settled, rearranged.outcome_eq]

/-! ## Links -/

variable {table : SymbolTable}

theorem keeps_paired (rearranged : Rearranged entries others) {property partner : Text}
    (paired : Link.Paired table entries property partner) :
    Link.Paired table others property partner := by
  rcases paired.documented with ⟨entry, here, key, kind⟩
  rcases rearranged.forth entry here with ⟨other, there, rearranges⟩
  exact ⟨⟨other, there, rearranges.key.trans key, rearranges.kind.trans kind⟩, paired.named,
    paired.different, rearranged.keys_subset paired.present⟩

theorem keeps_asked (rearranged : Rearranged entries others) {link : Link}
    (asked : Link.Asked table entries link) : Link.Asked table others link :=
  asked.imp rearranged.keeps_paired rearranged.keeps_paired

theorem keeps_written (rearranged : Rearranged entries others) {link : Link}
    (written : link.Written entries) : link.Written others := by
  rcases written with ⟨entry, here, source, reference, refers, target⟩
  rcases rearranged.forth entry here with ⟨other, there, rearranges⟩
  exact ⟨other, there, rearranges.key.trans source, reference,
    rearranges.references.mem_iff.mpr refers, target⟩

theorem links_subset (rearranged : Rearranged entries others) :
    Link.ofEntries table entries ⊆ Link.ofEntries table others := by
  intro link made
  rcases Link.mem_ofEntries.mp made with ⟨asked, unwritten⟩
  exact Link.mem_ofEntries.mpr
    ⟨rearranged.keeps_asked asked, fun written => unwritten (rearranged.symm.keeps_written written)⟩

theorem links_perm (rearranged : Rearranged entries others) (linkPartners : Bool)
    (table : SymbolTable) :
    (links linkPartners table others).Perm (links linkPartners table entries) := by
  cases linkPartners with
  | false => exact .refl _
  | true =>
    apply (List.perm_ext_iff_of_nodup (Link.nodup_ofEntries table others)
      (Link.nodup_ofEntries table entries)).mpr
    exact fun link => ⟨fun there => rearranged.symm.links_subset there,
      fun here => rearranged.links_subset here⟩

/-! ## Settled entries -/

theorem settledEntry_rearranges (rearranged : Rearranged entries others) {entry other : Entry}
    (rearranges : entry.Rearranges other) {links otherLinks : List Link}
    (sameLinks : otherLinks.Perm links) :
    (settledEntry entries links entry).Rearranges (settledEntry others otherLinks other) := by
  have sameSettled : settled others other.scope? = settled entries entry.scope? := by
    rw [rearranged.settled_eq, rearranges.scope?]
  have sameReferences : (referencesOf otherLinks other).Perm (referencesOf links entry) := by
    rw [referencesOf, referencesOf, rearranges.key]
    exact rearranges.references.append ((sameLinks.filter _).map _)
  exact { rearranges with
    references := by
      change ((referencesOf otherLinks other).map _).Perm _
      rw [sameSettled]
      exact sameReferences.map _ }

theorem keys_settledEntries_eq (rearranged : Rearranged entries others) (linkPartners : Bool)
    (table : SymbolTable) :
    keys (settledEntries linkPartners table others) =
      keys (settledEntries linkPartners table entries) := by
  have shuffled : (keys (settledEntries linkPartners table others)).Perm
      (keys (settledEntries linkPartners table entries)) :=
    ((keys_settledEntries linkPartners table others).trans rearranged.keys_perm).trans
      (keys_settledEntries linkPartners table entries).symm
  have ordered := keys_settledEntries_pairwise linkPartners table rearranged.nodup
  have otherOrdered := keys_settledEntries_pairwise linkPartners table rearranged.otherNodup
  refine List.Perm.eq_of_pairwise ?_ otherOrdered ordered shuffled
  intro first second _ _ forward backward
  exact Text.le_antisymm forward.1 backward.1

theorem settledEntries_rearranges (rearranged : Rearranged entries others) (linkPartners : Bool)
    (table : SymbolTable) :
    List.Forall₂ Entry.Rearranges (settledEntries linkPartners table entries)
      (settledEntries linkPartners table others) := by
  apply forall₂_of_map_eq (rearranged.keys_settledEntries_eq linkPartners table).symm
  intro left here right there same
  rcases mem_settledEntries.mp here with ⟨entry, inEntries, rfl⟩
  rcases mem_settledEntries.mp there with ⟨bound, inOthers, rfl⟩
  rcases rearranged.forth entry inEntries with ⟨other, alsoInOthers, rearranges⟩
  -- Two bound entries stand side by side by their keys, and a key has only one entry.
  have own : bound = other := eq_of_key_eq rearranged.otherNodup inOthers alsoInOthers
    (Eq.trans same.symm rearranges.key.symm)
  rw [own]
  exact rearranged.settledEntry_rearranges rearranges (rearranged.links_perm linkPartners table)

theorem danglingDiagnostics_perm (rearranged : Rearranged entries others) (linkPartners : Bool)
    (table : SymbolTable) :
    (danglingDiagnostics table (settledEntries linkPartners table others)).Perm
      (danglingDiagnostics table (settledEntries linkPartners table entries)) := by
  have sideBySide := rearranged.symm.settledEntries_rearranges linkPartners table
  have references := flatMap_perm_of_forall₂
    (sideBySide.imp fun _ _ rearranges => rearranges.references.symm)
  exact references.filterMap _

end Resolution.Rearranged

end DocAtlas
