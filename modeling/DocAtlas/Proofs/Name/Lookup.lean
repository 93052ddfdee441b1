import DocAtlas.Name.Lookup

/-!
# Laws of looking a name up

What a name means depends on which keys there are and not on their order. It is always
one of the keys; a qualified name means itself or nothing, and the key of a scope comes
before all keys of other scopes.
-/

namespace DocAtlas.Name

variable {name : Text} {keys : List Text}

theorem only?_eq_some {key : Text} :
    only? name keys = some key ↔ (keys.filter fun key => leaf key == name) = [key] := by
  unfold only?
  split
  · next single equal => simp [equal]
  · next other =>
    constructor
    · simp
    · intro equal
      exact absurd equal (other key)

theorem only?_perm {others : List Text} (shuffled : keys.Perm others) :
    only? name keys = only? name others := by
  apply Option.ext
  intro key
  have filtered := shuffled.filter fun key => leaf key == name
  rw [only?_eq_some, only?_eq_some]
  constructor
  · intro single
    exact List.perm_singleton.mp (single ▸ filtered.symm)
  · intro single
    exact List.perm_singleton.mp (single ▸ filtered)

theorem scoped?_perm {others : List Text} (shuffled : keys.Perm others) (scope : Option Text) :
    scoped? name keys scope = scoped? name others scope := by
  cases scope with
  | none => rfl
  | some scope => simp only [scoped?, shuffled.mem_iff]

theorem resolve?_perm {others : List Text} (shuffled : keys.Perm others) (scope : Option Text) :
    resolve? name keys scope = resolve? name others scope := by
  unfold resolve?
  rw [only?_perm shuffled, scoped?_perm shuffled]
  simp only [shuffled.mem_iff]

theorem mem_of_only? {key : Text} (found : only? name keys = some key) : key ∈ keys := by
  have inside : key ∈ keys.filter fun key => leaf key == name := by
    rw [only?_eq_some.mp found]
    exact List.mem_singleton.mpr rfl
  exact (List.mem_filter.mp inside).1

theorem scoped?_eq_some {scope key : Text} :
    scoped? name keys (some scope) = some key ↔ qualify scope name = key ∧ key ∈ keys := by
  by_cases inside : qualify scope name ∈ keys
  · simp only [scoped?, if_pos inside, Option.some.injEq]
    exact ⟨fun equal => ⟨equal, equal ▸ inside⟩, fun found => found.1⟩
  · simp only [scoped?, if_neg inside]
    constructor
    · simp
    · rintro ⟨rfl, present⟩
      exact absurd present inside

theorem mem_of_resolve? {scope : Option Text} {key : Text}
    (found : resolve? name keys scope = some key) : key ∈ keys := by
  unfold resolve? at found
  split at found
  · next inside => exact Option.some.inj found ▸ inside
  · split at found
    · simp at found
    · rcases Option.or_eq_some_iff.mp found with inScope | ⟨_, only⟩
      · cases scope with
        | none => simp [scoped?] at inScope
        | some scope => exact (scoped?_eq_some.mp inScope).2
      · exact mem_of_only? only

structure OnlyLeaf (name : Text) (keys : List Text) (key : Text) : Prop where
  present : key ∈ keys
  leaf_eq : leaf key = name
  unique : ∀ other ∈ keys, leaf other = name → other = key

theorem only?_iff_onlyLeaf {key : Text} (nodup : keys.Nodup) :
    only? name keys = some key ↔ OnlyLeaf name keys key := by
  rw [only?_eq_some]
  constructor
  · intro single
    have members (other : Text) : other ∈ keys ∧ leaf other = name ↔ other = key := by
      have listed : other ∈ keys.filter (fun key => leaf key == name) ↔ other ∈ [key] := by
        rw [single]
      rwa [List.mem_filter, beq_iff_eq, List.mem_singleton] at listed
    have own := (members key).mpr rfl
    exact ⟨own.1, own.2, fun other inside same => (members other).mp ⟨inside, same⟩⟩
  · intro only
    apply List.perm_singleton.mp
    apply (List.perm_ext_iff_of_nodup (nodup.filter _) (List.pairwise_singleton _ key)).mpr
    intro other
    rw [List.mem_filter, beq_iff_eq, List.mem_singleton]
    constructor
    · intro found
      exact only.unique other found.1 found.2
    · rintro rfl
      exact ⟨only.present, only.leaf_eq⟩

/-- A name without an owner that is no key, and none inside its scope, is known by its leaf
or not at all. -/
theorem resolve?_eq_only? {scope : Option Text} (unqualified : owner? name = none)
    (unkeyed : name ∉ keys)
    (outside : ∀ inner, scope = some inner → qualify inner name ∉ keys) :
    resolve? name keys scope = only? name keys := by
  have unscoped : scoped? name keys scope = none := by
    cases scope with
    | none => rfl
    | some inner => exact if_neg (outside inner rfl)
  rw [resolve?, if_neg unkeyed, unqualified, unscoped, Option.none_or]

theorem resolve?_of_mem {scope : Option Text} (present : name ∈ keys) :
    resolve? name keys scope = some name :=
  if_pos present

theorem eq_of_resolve?_qualified {scope : Option Text} {key : Text} (qualified : owner? name ≠ none)
    (found : resolve? name keys scope = some key) : key = name := by
  unfold resolve? at found
  split at found
  · exact (Option.some.inj found).symm
  · split at found
    · simp at found
    · next unqualified => exact absurd unqualified qualified

theorem resolve?_scoped {scope : Text} (unqualified : owner? name = none) (unkeyed : name ∉ keys)
    (inScope : qualify scope name ∈ keys) :
    resolve? name keys (some scope) = some (qualify scope name) := by
  have own : scoped? name keys (some scope) = some (qualify scope name) :=
    scoped?_eq_some.mpr ⟨rfl, inScope⟩
  rw [resolve?, if_neg unkeyed, unqualified, own, Option.some_or]

theorem onlyLeaf_of_resolve? {scope : Option Text} {key : Text} (nodup : keys.Nodup)
    (unqualified : owner? name = none) (meant : resolve? name keys scope = some key)
    (other : key ≠ name) (outside : ∀ inner, scope = some inner → key ≠ qualify inner name) :
    OnlyLeaf name keys key := by
  have unkeyed : name ∉ keys := by
    intro present
    rw [resolve?_of_mem present] at meant
    exact other (Option.some.inj meant).symm
  have unscoped : ∀ inner, scope = some inner → qualify inner name ∉ keys := by
    intro inner inScope present
    rw [inScope, resolve?_scoped unqualified unkeyed present] at meant
    exact outside inner inScope (Option.some.inj meant).symm
  rw [resolve?_eq_only? unqualified unkeyed unscoped] at meant
  exact (only?_iff_onlyLeaf nodup).mp meant

theorem resolve?_of_onlyLeaf {scope : Option Text} {key : Text} (nodup : keys.Nodup)
    (unqualified : owner? name = none) (only : OnlyLeaf name keys key) (unkeyed : name ∉ keys)
    (unscoped : ∀ inner, scope = some inner → qualify inner name ∉ keys) :
    resolve? name keys scope = some key := by
  rw [resolve?_eq_only? unqualified unkeyed unscoped]
  exact (only?_iff_onlyLeaf nodup).mpr only

theorem resolve?_of_qualified {scope : Option Text} (qualified : owner? name ≠ none)
    (unkeyed : name ∉ keys) : resolve? name keys scope = none := by
  rcases Option.ne_none_iff_exists'.mp qualified with ⟨owner, owned⟩
  rw [resolve?, if_neg unkeyed, owned]

/-! ## The spelling of what is meant -/

theorem eq_or_suffix_of_leaf {key : Text} (own : leaf key = name) :
    key = name ∨ (separator ++ name) <:+ key := by
  unfold leaf at own
  rcases parts : split key with ⟨_ | owner, last⟩
  · rw [parts] at own
    exact .inl (own ▸ (split_none parts).symm)
  · rw [parts] at own
    refine .inr ⟨owner, ?_⟩
    rw [split_some parts, ← own, qualify, List.append_assoc]

theorem eq_or_suffix_of_resolve? {scope : Option Text} {key : Text}
    (meant : resolve? name keys scope = some key) :
    key = name ∨ owner? name = none ∧ (separator ++ name) <:+ key := by
  by_cases unqualified : owner? name = none
  · unfold resolve? at meant
    split at meant
    · exact .inl (Option.some.inj meant).symm
    · rw [unqualified] at meant
      rcases Option.or_eq_some_iff.mp meant with inScope | ⟨_, only⟩
      · cases scope with
        | none => cases inScope
        | some inner =>
          refine .inr ⟨unqualified, inner, ?_⟩
          rw [← (scoped?_eq_some.mp inScope).1, qualify, List.append_assoc]
      · have listed : key ∈ keys.filter fun key => leaf key == name := by
          rw [only?_eq_some.mp only]
          exact List.mem_singleton.mpr rfl
        have own : leaf key = name := beq_iff_eq.mp (List.mem_filter.mp listed).2
        exact (eq_or_suffix_of_leaf own).imp_right fun suffix => ⟨unqualified, suffix⟩
  · exact .inl (eq_of_resolve?_qualified unqualified meant)

/-! ## One key more -/

theorem only?_concat_of_ne {added : Text} (other : leaf added ≠ name) :
    only? name (keys ++ [added]) = only? name keys := by
  have silent : [added].filter (fun key => leaf key == name) = [] := by simp [other]
  rw [only?, List.filter_append, silent, List.append_nil, only?]

theorem only?_concat_ne_iff {added : Text} (own : leaf added = name) :
    only? name (keys ++ [added]) ≠ only? name keys ↔
      keys.countP (fun key => leaf key == name) ≤ 1 := by
  have kept : [added].filter (fun key => leaf key == name) = [added] := by simp [own]
  rw [List.countP_eq_length_filter, only?, List.filter_append, kept, only?]
  rcases keys.filter fun key => leaf key == name with _ | ⟨first, _ | ⟨second, rest⟩⟩ <;> simp

/-- For a name that has no owner and is no key, a further key matters if it is the key of the
scope, or if the scope has no key and it is the first or the second of that leaf. -/
theorem resolve?_concat_ne_iff_of_unqualified {scope : Option Text} {added : Text}
    (new : added ∉ keys) (unqualified : owner? name = none) (unkeyed : name ∉ keys ++ [added]) :
    resolve? name (keys ++ [added]) scope ≠ resolve? name keys scope ↔
      (∃ inner, scope = some inner ∧ added = qualify inner name) ∨
        leaf added = name ∧ (∀ inner, scope = some inner → qualify inner name ∉ keys) ∧
          keys.countP (fun key => leaf key == name) ≤ 1 := by
  have absent : name ∉ keys := fun present => unkeyed (List.mem_append_left _ present)
  -- The key of the scope is there already, or is the one that comes, or is still missing.
  by_cases inScope : ∃ inner, scope = some inner ∧ qualify inner name ∈ keys ++ [added]
  · rcases inScope with ⟨inner, rfl, inside⟩
    rw [resolve?_scoped unqualified unkeyed inside]
    rcases List.mem_append.mp inside with before | comes
    · rw [resolve?_scoped unqualified absent before]
      have different : added ≠ qualify inner name := fun equal => new (equal ▸ before)
      simp [different, before]
    · rw [List.mem_singleton] at comes
      refine iff_of_true ?_ (.inl ⟨inner, rfl, comes.symm⟩)
      exact fun same => new (comes ▸ mem_of_resolve? same.symm)
  · have missing : ∀ inner, scope = some inner → qualify inner name ∉ keys ++ [added] :=
      fun inner here inside => inScope ⟨inner, here, inside⟩
    have different : ∀ inner, scope = some inner → added ≠ qualify inner name :=
      fun inner here equal => missing inner here (by simp [equal])
    have unscoped : ∀ inner, scope = some inner → qualify inner name ∉ keys :=
      fun inner here inside => missing inner here (List.mem_append_left _ inside)
    rw [resolve?_eq_only? unqualified absent unscoped,
      resolve?_eq_only? unqualified unkeyed missing]
    by_cases own : leaf added = name
    · rw [only?_concat_ne_iff own]
      constructor
      · exact fun few => .inr ⟨own, unscoped, few⟩
      · rintro (⟨inner, here, equal⟩ | ⟨_, _, few⟩)
        · exact absurd equal (different inner here)
        · exact few
    · rw [only?_concat_of_ne own]
      refine iff_of_false (fun changed => changed rfl) ?_
      rintro (⟨inner, here, equal⟩ | ⟨other, _⟩)
      · exact different inner here equal
      · exact own other

theorem resolve?_concat_ne_iff {scope : Option Text} {added : Text} (new : added ∉ keys) :
    resolve? name (keys ++ [added]) scope ≠ resolve? name keys scope ↔
      added = name ∨ owner? name = none ∧ name ∉ keys ∧
        ((∃ inner, scope = some inner ∧ added = qualify inner name) ∨
          leaf added = name ∧ (∀ inner, scope = some inner → qualify inner name ∉ keys) ∧
            keys.countP (fun key => leaf key == name) ≤ 1) := by
  by_cases itself : added = name
  · refine iff_of_true ?_ (.inl itself)
    rw [resolve?_of_mem (List.mem_append_right keys (List.mem_singleton.mpr itself.symm))]
    exact fun same => new (itself ▸ mem_of_resolve? same.symm)
  by_cases keyed : name ∈ keys
  · rw [resolve?_of_mem keyed, resolve?_of_mem (List.mem_append_left _ keyed)]
    simp [itself, keyed]
  have unkeyed : name ∉ keys ++ [added] := by simp [keyed, Ne.symm itself]
  by_cases unqualified : owner? name = none
  · rw [resolve?_concat_ne_iff_of_unqualified new unqualified unkeyed]
    simp [itself, unqualified, keyed]
  · rw [resolve?_of_qualified unqualified keyed, resolve?_of_qualified unqualified unkeyed]
    simp [itself, unqualified]

/-- What a name means does not depend on the order of the keys. It is one of them: the name itself
or, for a name without an owner, a key that ends in it behind a separator. A further key changes it
exactly if that key is the name itself or, for a name without an owner that is no key, if it is
the key of the scope or if it is the first or the second key of that leaf and the scope has none. -/
theorem meaning_is_sound_and_stable (name : Text) (keys : List Text) (scope : Option Text) :
    (∀ others : List Text, others.Perm keys →
      resolve? name others scope = resolve? name keys scope) ∧
    (∀ key, resolve? name keys scope = some key →
      key ∈ keys ∧ (key = name ∨ owner? name = none ∧ (separator ++ name) <:+ key)) ∧
    ∀ added, added ∉ keys →
      (resolve? name (keys ++ [added]) scope ≠ resolve? name keys scope ↔
        added = name ∨ owner? name = none ∧ name ∉ keys ∧
          ((∃ inner, scope = some inner ∧ added = qualify inner name) ∨
            leaf added = name ∧ (∀ inner, scope = some inner → qualify inner name ∉ keys) ∧
              keys.countP (fun key => leaf key == name) ≤ 1)) := by
  refine ⟨fun others shuffled => resolve?_perm shuffled scope, ?_, ?_⟩
  · exact fun key meant => ⟨mem_of_resolve? meant, eq_or_suffix_of_resolve? meant⟩
  · exact fun added new => resolve?_concat_ne_iff new

end DocAtlas.Name
