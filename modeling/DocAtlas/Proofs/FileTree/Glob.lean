import DocAtlas.FileTree.Glob
import DocAtlas.Proofs.FileTree
import DocAtlas.Proofs.Lists

/-!
# Laws of path patterns

What a path pattern selects in a file tree comes in the order of paths, each once, and consists of
names: those that the pattern spells and those that are in the tree.
-/

namespace DocAtlas

namespace Glob

/-! ## Names in a pattern -/

def Step.Named : Step → Prop
  | .named name => Path.IsName name
  | .wildcard _ | .anyDepth => True

theorem Step.named_of_ofPart {part : Text} {step : Step} (isName : Path.IsName part)
    (read : Step.ofPart part = .ok step) : step.Named := by
  unfold Step.ofPart at read
  split at read
  · cases read
    trivial
  · split at read
    · cases read
    · split at read
      · cases read
        trivial
      · cases read
        exact isName

theorem named_of_ofText {text : Text} {glob : Glob} (read : ofText text = .ok glob) :
    ∀ step ∈ glob.steps, step.Named := by
  simp only [ofText] at read
  split at read
  · cases read
  split at read
  · cases read
  split at read
  · cases read
  rcases bind_eq_ok.mp read with ⟨steps, parsed, made⟩
  cases made
  intro step member
  rcases exists_mem_of_mapM_eq_ok parsed member with ⟨part, inside, spelled⟩
  exact Step.named_of_ofPart (Path.isName_of_mem_parts inside) spelled

/-! ## What is selected -/

section

variable {tree : FileTree} {root : List Text}

theorem isName_of_mem_targets (wellFormed : tree.WellFormed) {step : Step} (spelled : step.Named)
    {names : List Text} (named : ∀ name ∈ names, Path.IsName name) {targets : List (List Text)}
    (found : step.targets tree root names = .ok targets) {target : List Text}
    (member : target ∈ targets) : ∀ name ∈ target, Path.IsName name := by
  cases step with
  | named name =>
    rcases bind_eq_ok.mp found with ⟨place, _, made⟩
    cases made
    split at member
    · rw [List.mem_singleton.mp member, List.forall_mem_append]
      exact ⟨named, List.forall_mem_singleton.mpr spelled⟩
    · cases member
  | wildcard pattern =>
    simp only [Step.targets] at found
    split at found <;> cases found
    · next place _ =>
      rcases List.mem_map.mp member with ⟨name, kept, rfl⟩
      rw [List.forall_mem_append]
      have child := (List.mem_filter.mp kept).1
      have isName := FileTree.isName_of_mem_children wellFormed child
      exact ⟨named, List.forall_mem_singleton.mpr isName⟩
    · cases member
  | anyDepth =>
    simp only [Step.targets] at found
    split at found <;> cases found
    · next place _ =>
      rcases List.mem_map.mp member with ⟨further, listed, rfl⟩
      rw [List.forall_mem_append]
      exact ⟨named, FileTree.isName_of_mem_foldersBelow wellFormed listed⟩
    · cases member

theorem isName_of_mem_follow (wellFormed : tree.WellFormed) {steps : List Step}
    (spelled : ∀ step ∈ steps, step.Named) {names : List Text}
    (named : ∀ name ∈ names, Path.IsName name) {found : List (List Text)}
    (followed : follow tree root steps names = .ok found) {target : List Text}
    (member : target ∈ found) : ∀ name ∈ target, Path.IsName name := by
  induction steps generalizing names found with
  | nil =>
    cases followed
    rw [List.mem_singleton.mp member]
    exact named
  | cons step rest induction =>
    rw [List.forall_mem_cons] at spelled
    rcases bind_eq_ok.mp followed with ⟨targets, here, behind⟩
    rcases bind_eq_ok.mp behind with ⟨lists, there, made⟩
    cases made
    rcases List.mem_flatten.mp member with ⟨list, inLists, inside⟩
    rcases exists_mem_of_mapM_eq_ok there inLists with ⟨passed, passable, reached⟩
    have listed := (List.mem_filter.mp passable).1
    exact induction spelled.2 (isName_of_mem_targets wellFormed spelled.1 named here listed)
      reached inside

theorem sorted_of_select {glob : Glob} {selected : List (List Text)}
    (done : select tree root glob = .ok selected) :
    selected.Nodup ∧
      selected.Pairwise fun first second => Path.partsLe first second = true := by
  unfold select at done
  split at done
  · rcases bind_eq_ok.mp done with ⟨found, _, made⟩
    cases made
    constructor
    · exact (List.mergeSort_perm _ _).nodup_iff.mpr (nodup_eraseDups _)
    · apply List.pairwise_mergeSort
      · exact fun _ _ _ left right => Path.partsLe_trans left right
      · exact fun first second => Path.partsLe_total first second
  · cases done
    exact ⟨.nil, .nil⟩

theorem isName_of_mem_select (wellFormed : tree.WellFormed) {glob : Glob}
    (spelled : ∀ step ∈ glob.steps, step.Named) {selected : List (List Text)}
    (done : select tree root glob = .ok selected) {names : List Text}
    (member : names ∈ selected) : ∀ name ∈ names, Path.IsName name := by
  unfold select at done
  split at done
  · rcases bind_eq_ok.mp done with ⟨found, followed, made⟩
    cases made
    have kept := List.mem_eraseDups.mp (List.mem_mergeSort.mp member)
    exact isName_of_mem_follow wellFormed spelled (List.forall_mem_nil _) followed
      (List.mem_filter.mp kept).1
  · cases done
    cases member

end

end Glob

end DocAtlas
