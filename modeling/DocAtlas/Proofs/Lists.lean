import Mathlib.Data.List.Basic
import Mathlib.Data.List.Forall2

/-!
# Lists

Collecting the members of a list label by label, setting the members that are reported
against their reports, taking out the first member of a kind, cutting off a run at the front,
sorting one list behind another, joining lists, and comparing two lists side by side.
-/

namespace DocAtlas

/-! ## Grouping -/

theorem nodup_eraseDups {α : Type} [BEq α] [LawfulBEq α] (list : List α) :
    list.eraseDups.Nodup := by
  cases list with
  | nil => exact .nil
  | cons head rest =>
    rw [List.eraseDups_cons, List.nodup_cons]
    constructor
    · simp [List.mem_eraseDups]
    · exact nodup_eraseDups _
termination_by list.length
decreasing_by
  have shorter := List.length_filter_le (fun other => !other == head) rest
  rw [List.length_cons]
  omega

section

variable {α β κ : Type} [BEq κ] [LawfulBEq κ] (label : α → Option κ)

theorem filter_other_label {key : κ} {wanted : Option κ} (different : wanted ≠ some key)
    (list : List α) :
    (list.filter fun value => !label value == some key).filter
        (fun value => label value == wanted) =
      list.filter fun value => label value == wanted := by
  rw [List.filter_filter]
  apply List.filter_congr
  intro value _
  by_cases equal : label value = wanted <;> simp [equal, different]

/-- What the members of a list come to can be collected label by label. Each step of the
induction takes the members of one label out of the list. -/
theorem flatMap_perm_of_labels (values : α → List β) {keys : List κ} (nodup : keys.Nodup)
    {list : List α}
    (covered : ∀ value ∈ list, ∀ key, label value = some key → key ∈ keys) :
    (list.flatMap values).Perm
      (keys.flatMap (fun key =>
          (list.filter fun value => label value == some key).flatMap values) ++
        (list.filter fun value => label value == none).flatMap values) := by
  induction keys generalizing list with
  | nil =>
    have unlabelled : ∀ value ∈ list, (label value == none) = true := by
      intro value member
      cases found : label value with
      | none => rfl
      | some key => exact absurd (covered value member key found) List.not_mem_nil
    rw [List.filter_eq_self.mpr unlabelled]
    exact .refl _
  | cons key rest induction =>
    rw [List.nodup_cons] at nodup
    have coveredRest : ∀ value ∈ list.filter (fun value => !label value == some key),
        ∀ other, label value = some other → other ∈ rest := by
      intro value member other found
      obtain ⟨inside, different⟩ := List.mem_filter.mp member
      rcases List.mem_cons.mp (covered value inside other found) with rfl | later
      · simp [found] at different
      · exact later
    have sameRest : rest.flatMap (fun other =>
        ((list.filter fun value => !label value == some key).filter
          fun value => label value == some other).flatMap values) =
        rest.flatMap fun other =>
          (list.filter fun value => label value == some other).flatMap values := by
      apply List.flatMap_congr
      intro other member
      have different : some other ≠ some key := by
        rintro ⟨⟩
        exact nodup.1 member
      rw [filter_other_label label different]
    have step := induction nodup.2 coveredRest
    rw [sameRest, filter_other_label label (by simp)] at step
    have parts := (List.filter_append_perm (fun value => label value == some key) list).symm
    apply (parts.flatMap_right values).trans
    rw [List.flatMap_append, List.flatMap_cons, List.append_assoc]
    exact step.append_left _

end

/-! ## Reporting -/

theorem forall₂_filterMap {α β : Type} {relation : α → β → Prop} {select : α → Bool}
    {report : α → Option β} (silent : ∀ value, select value = false → report value = none)
    (reported : ∀ value, select value = true →
      ∃ made, report value = some made ∧ relation value made) (list : List α) :
    List.Forall₂ relation (list.filter select) (list.filterMap report) := by
  induction list with
  | nil => exact .nil
  | cons value rest induction =>
    cases selected : select value with
    | false =>
      rw [List.filter_cons_of_neg (by simp [selected]),
        List.filterMap_cons_none (silent value selected)]
      exact induction
    | true =>
      rcases reported value selected with ⟨made, found, related⟩
      rw [List.filter_cons_of_pos selected, List.filterMap_cons_some found]
      exact .cons related induction

/-! ## Taking out -/

theorem eraseP_append_cons {α : Type} {test : α → Bool} {before after : List α} {value : α}
    (own : test value = true) (silent : ∀ other ∈ before, ¬test other = true) :
    (before ++ value :: after).eraseP test = before ++ after := by
  rw [List.eraseP_append_right _ silent, List.eraseP_cons_of_pos own]

theorem find?_append_cons {α : Type} {test : α → Bool} {before after : List α} {value : α}
    (own : test value = true) (silent : ∀ other ∈ before, ¬test other = true) :
    (before ++ value :: after).find? test = some value := by
  rw [List.find?_append, List.find?_eq_none.mpr silent, List.find?_cons_of_pos own,
    Option.none_or]

theorem exists_split_of_find? {α : Type} {test : α → Bool} {list : List α} {value : α}
    (found : list.find? test = some value) :
    test value = true ∧ ∃ before after, list = before ++ value :: after ∧
      ∀ other ∈ before, ¬test other = true := by
  rcases List.find?_eq_some_iff_append.mp found with ⟨own, before, after, parts, silent⟩
  exact ⟨own, before, after, parts, by simpa using silent⟩

theorem dropLast_sublist_dropLast {α : Type} {first second : List α}
    (inside : first.Sublist second) : first.dropLast.Sublist second.dropLast := by
  have tails := inside.reverse.tail
  rw [List.tail_reverse, List.tail_reverse] at tails
  exact List.reverse_sublist.mp tails

/-! ## Runs -/

section

variable {α : Type} {test : α → Bool} {front behind : List α}

theorem takeWhile_append_stop (inside : ∀ value ∈ front, test value = true)
    (stops : ∀ value ∈ behind.head?, test value = false) :
    (front ++ behind).takeWhile test = front := by
  rw [List.takeWhile_append_of_pos inside]
  cases behind with
  | nil => exact List.append_nil front
  | cons value rest => rw [List.takeWhile_cons_of_neg (by simp [stops value rfl]), List.append_nil]

theorem dropWhile_append_stop (inside : ∀ value ∈ front, test value = true)
    (stops : ∀ value ∈ behind.head?, test value = false) :
    (front ++ behind).dropWhile test = behind := by
  rw [List.dropWhile_append_of_pos inside]
  cases behind with
  | nil => rfl
  | cons value rest => rw [List.dropWhile_cons_of_neg (by simp [stops value rfl])]

end

/-! ## Sorting -/

section

variable {α : Type} {le : α → α → Bool}
  (trans : ∀ first second third, le first second = true → le second third = true →
    le first third = true)
  (total : ∀ first second, (le first second || le second first) = true)

include trans total

theorem mergeSort_cons_eq_filter (value : α) (list : List α) :
    (value :: list).mergeSort le =
      ((list.mergeSort le).filter fun other => !le value other) ++
        value :: (list.mergeSort le).filter fun other => le value other := by
  rcases List.mergeSort_cons trans total value list with ⟨before, after, whole, rest, smaller⟩
  have sorted := List.pairwise_mergeSort trans total (value :: list)
  rw [whole, List.pairwise_append, List.pairwise_cons] at sorted
  have larger : ∀ other ∈ after, le value other = true := sorted.2.1.1
  have noneBefore : ∀ other ∈ before, ¬le value other = true := by simpa using smaller
  have noneAfter : ∀ other ∈ after, ¬(!le value other) = true := by simpa using larger
  rw [whole, rest, List.filter_append, List.filter_append, List.filter_eq_self.mpr smaller,
    List.filter_eq_nil_iff.mpr noneAfter, List.filter_eq_nil_iff.mpr noneBefore,
    List.filter_eq_self.mpr larger, List.append_nil, List.nil_append]

/-- Where no member of a second list has to come before one of the first, each list is
sorted by itself. -/
theorem mergeSort_append_of_le {first second : List α}
    (ahead : ∀ value ∈ first, ∀ other ∈ second, le value other = true) :
    (first ++ second).mergeSort le = first.mergeSort le ++ second.mergeSort le := by
  -- A member of the first list is put before the whole second sort, so it divides the first
  -- sort as if it stood alone.
  induction first with
  | nil => simp
  | cons value rest induction =>
    rw [List.forall_mem_cons] at ahead
    have larger : ∀ other ∈ second.mergeSort le, le value other = true := fun other member =>
      ahead.1 other (List.mem_mergeSort.mp member)
    have noneLeft : ∀ other ∈ second.mergeSort le, ¬(!le value other) = true := by
      simpa using larger
    rw [List.cons_append, mergeSort_cons_eq_filter trans total,
      mergeSort_cons_eq_filter trans total, induction ahead.2, List.filter_append,
      List.filter_append, List.filter_eq_nil_iff.mpr noneLeft, List.filter_eq_self.mpr larger,
      List.append_nil, List.append_assoc, List.cons_append]

end

/-! ## Joining -/

theorem flatMap_intercalate {α β : Type} (separator : α) (values : α → List β)
    (parts : List (List α)) :
    ([separator].intercalate parts).flatMap values =
      (values separator).intercalate (parts.map (·.flatMap values)) := by
  induction parts with
  | nil => rfl
  | cons part rest induction =>
    cases rest with
    | nil => simp
    | cons next others => simpa using induction

/-! ## Side by side -/

section

variable {α β : Type} {relation : α → β → Prop} {first : List α} {second : List β}

theorem exists_right_of_forall₂ (related : List.Forall₂ relation first second) {left : α}
    (member : left ∈ first) : ∃ right ∈ second, relation left right := by
  induction related with
  | nil => cases member
  | cons here _ induction =>
    rcases List.mem_cons.mp member with rfl | later
    · exact ⟨_, List.mem_cons_self, here⟩
    · rcases induction later with ⟨right, inside, there⟩
      exact ⟨right, List.mem_cons_of_mem _ inside, there⟩

theorem exists_left_of_forall₂ (related : List.Forall₂ relation first second) {right : β}
    (member : right ∈ second) : ∃ left ∈ first, relation left right := by
  have flipped : List.Forall₂ (flip relation) second first := related.flip
  exact exists_right_of_forall₂ flipped member

theorem getElem?_of_forall₂ (related : List.Forall₂ relation first second) {index : Nat} {left : α}
    (found : first[index]? = some left) :
    ∃ right, second[index]? = some right ∧ relation left right := by
  induction related generalizing index with
  | nil => cases found
  | cons here _ induction =>
    cases index with
    | zero =>
      cases found
      exact ⟨_, rfl, here⟩
    | succ index => exact induction found

theorem forall₂_of_mem {other : α → β → Prop} (related : List.Forall₂ relation first second)
    (implied : ∀ left ∈ first, ∀ right ∈ second, relation left right → other left right) :
    List.Forall₂ other first second := by
  induction related with
  | nil => exact .nil
  | cons here _ induction =>
    refine .cons (implied _ List.mem_cons_self _ List.mem_cons_self here) (induction ?_)
    exact fun left inFirst right inSecond =>
      implied left (List.mem_cons_of_mem _ inFirst) right (List.mem_cons_of_mem _ inSecond)

theorem map_eq_of_forall₂ {γ : Type} {label : α → γ} {other : β → γ}
    (related : List.Forall₂ relation first second)
    (same : ∀ left ∈ first, ∀ right, relation left right → label left = other right) :
    first.map label = second.map other := by
  induction related with
  | nil => rfl
  | cons here _ induction =>
    rw [List.forall_mem_cons] at same
    rw [List.map_cons, List.map_cons, same.1 _ here, induction same.2]

end

theorem forall₂_trans {α β γ : Type} {front : α → β → Prop} {back : β → γ → Prop}
    {both : α → γ → Prop} {first : List α} {second : List β} {third : List γ}
    (fronts : List.Forall₂ front first second) (backs : List.Forall₂ back second third)
    (implied : ∀ left middle right, front left middle → back middle right → both left right) :
    List.Forall₂ both first third := by
  induction fronts generalizing third with
  | nil =>
    cases backs
    exact .nil
  | cons here _ induction =>
    cases backs with
    | cons there others => exact .cons (implied _ _ _ here there) (induction others)

theorem forall₂_of_map_eq {α β κ : Type} {relation : α → β → Prop} {label : α → κ}
    {other : β → κ} {first : List α} {second : List β} (same : first.map label = second.map other)
    (related : ∀ left ∈ first, ∀ right ∈ second, label left = other right → relation left right) :
    List.Forall₂ relation first second := by
  induction first generalizing second with
  | nil =>
    rw [List.map_nil, eq_comm, List.map_eq_nil_iff] at same
    rw [same]
    exact .nil
  | cons left rest induction =>
    cases second with
    | nil => cases same
    | cons right others =>
      rw [List.map_cons, List.map_cons, List.cons.injEq] at same
      refine .cons (related left List.mem_cons_self right List.mem_cons_self same.1) ?_
      apply induction same.2
      intro left here right there
      exact related left (List.mem_cons_of_mem _ here) right (List.mem_cons_of_mem _ there)

theorem flatMap_perm_of_forall₂ {α β γ : Type} {left : α → List γ} {right : β → List γ}
    {first : List α} {second : List β}
    (related : List.Forall₂ (fun value other => (left value).Perm (right other)) first second) :
    (first.flatMap left).Perm (second.flatMap right) := by
  induction related with
  | nil => exact .refl _
  | cons here _ induction =>
    rw [List.flatMap_cons, List.flatMap_cons]
    exact here.append induction

end DocAtlas
