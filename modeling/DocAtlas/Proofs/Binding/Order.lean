import DocAtlas.Proofs.Binding.Entries
import DocAtlas.Proofs.Comment.Offset

/-!
# The order of binding

Places are totally ordered, and two comments of one build never share a place. What is
collected from some comments is therefore the same in whatever order they arrive, and so
is all that is made of it.
-/

namespace DocAtlas

namespace Place

theorem le_iff {first second : Place} :
    first.le second = true ↔
      first.rank < second.rank ∨ first.rank = second.rank ∧
        (first.file ≠ second.file ∧ Text.le first.file second.file = true ∨
          first.file = second.file ∧ (first.startLine < second.startLine ∨
            first.startLine = second.startLine ∧ first.offset ≤ second.offset)) := by
  unfold le
  by_cases same : first.file = second.file <;> simp [same]

theorem le_total (first second : Place) : (first.le second || second.le first) = true := by
  rw [Bool.or_eq_true, le_iff, le_iff]
  by_cases same : first.file = second.file
  · rw [same]
    simp only [ne_eq, not_true_eq_false, false_and, true_and, false_or]
    omega
  · have files := Text.le_total first.file second.file
    rw [Bool.or_eq_true] at files
    have different : second.file ≠ first.file := Ne.symm same
    simp only [ne_eq, same, different, not_false_eq_true, true_and, false_and, or_false]
    rcases Nat.lt_trichotomy first.rank second.rank with less | equal | greater
    · exact .inl (.inl less)
    · exact files.imp (fun le => .inr ⟨equal, le⟩) fun le => .inr ⟨equal.symm, le⟩
    · exact .inr (.inl greater)

theorem le_antisymm {first second : Place} (forward : first.le second = true)
    (backward : second.le first = true) : first = second := by
  rw [le_iff] at forward backward
  have sameRank : first.rank = second.rank := by omega
  have sameFile : first.file = second.file := by
    by_cases same : first.file = second.file
    · exact same
    · have ahead : Text.le first.file second.file = true := by
        rcases forward with less | ⟨_, ⟨_, le⟩ | ⟨equal, _⟩⟩
        · omega
        · exact le
        · exact absurd equal same
      have behind : Text.le second.file first.file = true := by
        rcases backward with less | ⟨_, ⟨_, le⟩ | ⟨equal, _⟩⟩
        · omega
        · exact le
        · exact absurd equal.symm same
      exact Text.le_antisymm ahead behind
  have sameLine : first.startLine = second.startLine := by
    simp only [sameFile, ne_eq, not_true_eq_false, false_and, true_and, false_or]
      at forward backward
    omega
  have sameOffset : first.offset = second.offset := by
    simp only [sameFile, ne_eq, not_true_eq_false, false_and, true_and, false_or]
      at forward backward
    omega
  cases first
  cases second
  simp_all

theorem le_trans {first second third : Place} (left : first.le second = true)
    (right : second.le third = true) : first.le third = true := by
  rw [le_iff] at left right ⊢
  rcases left with less | ⟨sameRank, inFile⟩
  · exact .inl (by omega)
  rcases right with less | ⟨nextRank, nextInFile⟩
  · exact .inl (by omega)
  refine .inr ⟨sameRank.trans nextRank, ?_⟩
  rcases inFile with ⟨different, ahead⟩ | ⟨same, lines⟩
  · rcases nextInFile with ⟨nextDifferent, nextAhead⟩ | ⟨nextSame, _⟩
    · have further := Text.le_trans ahead nextAhead
      refine .inl ⟨fun equal => ?_, further⟩
      rw [equal] at ahead
      exact nextDifferent (Text.le_antisymm nextAhead ahead)
    · exact .inl ⟨nextSame ▸ different, nextSame ▸ ahead⟩
  · rcases nextInFile with ⟨nextDifferent, nextAhead⟩ | ⟨nextSame, nextLines⟩
    · exact .inl ⟨same ▸ nextDifferent, same ▸ nextAhead⟩
    · exact .inr ⟨same.trans nextSame, by omega⟩

end Place

namespace Candidate

theorem collect_pairwise_le (table : SymbolTable) (files : List Text)
    (comments : List ParsedComment) :
    (collect table files comments).Pairwise fun first second =>
      first.place.le second.place = true := by
  apply List.pairwise_mergeSort
  · exact fun _ _ _ left right => Place.le_trans left right
  · exact fun first second => Place.le_total first.place second.place

theorem collect_perm (table : SymbolTable) (files : List Text)
    (comments : List ParsedComment) :
    (collect table files comments).Perm (comments.map (ofParsed table files)) :=
  List.mergeSort_perm _ _

theorem mem_collect {table : SymbolTable} {files : List Text} {comments : List ParsedComment}
    {candidate : Candidate} :
    candidate ∈ collect table files comments ↔
      ∃ parsed ∈ comments, ofParsed table files parsed = candidate := by
  rw [(collect_perm table files comments).mem_iff, List.mem_map]

/-- Comments that no place confuses are collected alike in every order of arrival. -/
theorem collect_eq_of_perm {table : SymbolTable} {files : List Text}
    {comments others : List ParsedComment} (shuffled : others.Perm comments)
    (separate : ∀ first ∈ comments, ∀ second ∈ comments,
      first.comment.span.file = second.comment.span.file →
        first.comment.offset = second.comment.offset → first = second) :
    collect table files others = collect table files comments := by
  refine List.Perm.eq_of_pairwise ?_ (collect_pairwise_le table files others)
    (collect_pairwise_le table files comments) ?_
  · intro first second here there ahead behind
    obtain ⟨parsed, inOthers, rfl⟩ := mem_collect.mp here
    obtain ⟨other, inComments, rfl⟩ := mem_collect.mp there
    have place := Place.le_antisymm ahead behind
    have sameFile := congrArg Place.file place
    have sameOffset := congrArg Place.offset place
    rw [separate parsed (shuffled.mem_iff.mp inOthers) other inComments sameFile sameOffset]
  · exact ((collect_perm table files others).trans (shuffled.map _)).trans
      (collect_perm table files comments).symm

end Candidate

/-- Binding and resolving the comments of some files come to the same, entry by entry and
diagnostic by diagnostic, in whatever order the comments arrive. -/
theorem Resolution.same_in_every_order {markers : Markers} {sources : List Source}
    (distinct : (Run.fileOrder sources).Nodup) (table : SymbolTable) (files : List Text)
    (linkPartners : Bool) {comments : List ParsedComment}
    (shuffled : comments.Perm (Run.parse markers sources)) :
    let binding (comments : List ParsedComment) :=
      Binding.ofCandidates table (Candidate.collect table files comments)
    let resolution (comments : List ParsedComment) :=
      Resolution.ofEntries linkPartners table (binding comments).entries
    binding comments = binding (Run.parse markers sources) ∧
      resolution comments = resolution (Run.parse markers sources) ∧
      ∃ entries, (resolution comments).entries = .ok entries := by
  intro binding resolution
  have collected : Candidate.collect table files comments =
      Candidate.collect table files (Run.parse markers sources) := by
    apply Candidate.collect_eq_of_perm shuffled
    intro first here second there sameFile sameOffset
    exact Run.eq_of_place_eq distinct here there sameFile sameOffset
  have bound : binding comments = binding (Run.parse markers sources) :=
    congrArg (Binding.ofCandidates table) collected
  refine ⟨bound, ?_, ?_⟩
  · exact congrArg (fun binding => ofEntries linkPartners table binding.entries) bound
  · have resolved := Binding.resolution_ofCandidates linkPartners table
      (Candidate.collect table files comments)
    exact ⟨_, congrArg Resolution.entries resolved⟩

/-- Two files with one comment each, the comments arriving in the opposite order. -/
theorem Resolution.same_for_reversed_pair :
    let markers : Markers := ⟨["/*!"], by decide⟩
    let sources : List Source :=
      [⟨"a.h", "/*! \\sa b */\nint a;"⟩, ⟨"b.h", "/*! \\variable b */"⟩]
    let table := SymbolTable.ofList
      [⟨.variableKind, "a", some ⟨"a.h", .number 2⟩, none, []⟩,
        ⟨.variableKind, "b", none, none, []⟩]
    let comments := (Run.parse markers sources).reverse
    let binding (comments : List ParsedComment) :=
      Binding.ofCandidates table (Candidate.collect table [] comments)
    let resolution (comments : List ParsedComment) :=
      Resolution.ofEntries false table (binding comments).entries
    (Run.fileOrder sources).Nodup ∧ comments ≠ Run.parse markers sources ∧
      comments.Perm (Run.parse markers sources) ∧
      binding comments = binding (Run.parse markers sources) ∧
      resolution comments = resolution (Run.parse markers sources) ∧
      ∃ entries, (resolution comments).entries = .ok entries := by
  intro markers sources table comments binding resolution
  have distinct : (Run.fileOrder sources).Nodup := by decide
  have different : comments ≠ Run.parse markers sources := by decide +kernel
  have shuffled : comments.Perm (Run.parse markers sources) := List.reverse_perm _
  exact ⟨distinct, different, shuffled,
    Resolution.same_in_every_order distinct table [] false shuffled⟩

end DocAtlas
