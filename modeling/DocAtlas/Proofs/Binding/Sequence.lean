import DocAtlas.Proofs.Binding.Order
import Mathlib.Data.List.Nodup

/-!
# The sequence of the comments of a build

The comments of a build are parsed file by file, and within a file from top to bottom.
If no two files have one path, that is also the order in which they are bound: the rank
of a file is then its position in the list of files.
-/

namespace DocAtlas

/-! ## Ranks -/

section

variable {files : List Text}

theorem lookup_zipIdx_of_not_mem {file : Text} (absent : file ∉ files) (start : Nat) :
    (files.zipIdx start).reverse.lookup file = none := by
  apply List.lookup_eq_none_iff.mpr
  intro ranked member
  apply bne_iff_ne.mpr
  rintro rfl
  exact absent (List.fst_mem_of_mem_zipIdx (List.mem_reverse.mp member))

theorem lookup_fileRanks {file : Text} (listed : file ∈ files) :
    (fileRanks files).reverse.lookup file = some (fileRank files file) := by
  unfold fileRank
  split
  · next rank found => exact found
  · next missing =>
    have position : (file, files.idxOf file) ∈ fileRanks files :=
      List.mem_zipIdx_iff_getElem?.mpr (List.getElem?_idxOf listed)
    have known : ((fileRanks files).reverse.lookup file).isSome = true :=
      List.lookup_isSome_iff.mpr ⟨_, List.mem_reverse.mpr position, beq_self_eq_true file⟩
    rw [missing] at known
    cases known

theorem getElem?_fileRank {file : Text} (listed : file ∈ files) :
    files[fileRank files file]? = some file := by
  rcases List.lookup_eq_some_iff.mp (lookup_fileRanks listed) with ⟨before, after, parts, _⟩
  have member : (file, fileRank files file) ∈ files.zipIdx := by
    rw [← List.mem_reverse, ← fileRanks, parts]
    exact List.mem_append_right before List.mem_cons_self
  exact List.mem_zipIdx_iff_getElem?.mp member

theorem fileRank_eq_idxOf (distinct : files.Nodup) {file : Text} (listed : file ∈ files) :
    fileRank files file = files.idxOf file := by
  rcases List.getElem?_eq_some_iff.mp (getElem?_fileRank listed) with ⟨inside, position⟩
  have index := distinct.idxOf_getElem _ inside
  rw [position] at index
  exact index.symm

theorem pairwise_idxOf (distinct : files.Nodup) :
    files.Pairwise fun first second => files.idxOf first < files.idxOf second := by
  rw [List.pairwise_iff_getElem]
  intro first second firstInside secondInside before
  rw [distinct.idxOf_getElem, distinct.idxOf_getElem]
  exact before

end

namespace ParsedComment

def Precedes (files : List Text) (first second : ParsedComment) : Prop :=
  files.idxOf first.comment.span.file < files.idxOf second.comment.span.file ∨
    first.comment.span.file = second.comment.span.file ∧
      first.comment.offset < second.comment.offset

end ParsedComment

namespace Run

variable {markers : Markers} {sources : List Source}

theorem file_of_mem_parse {parsed : ParsedComment} (member : parsed ∈ parse markers sources) :
    parsed.comment.span.file ∈ fileOrder sources := by
  simp only [parse, List.mem_map, List.mem_flatMap] at member
  rcases member with ⟨comment, ⟨source, inSources, found⟩, rfl⟩
  exact List.mem_map.mpr ⟨source, inSources, (Comment.file_of_mem_scan found).symm⟩

/-- Later comments stand in later files, or further down in the same file. -/
theorem parse_pairwise_precedes (distinct : (fileOrder sources).Nodup) :
    (parse markers sources).Pairwise fun first second =>
      first.Precedes (fileOrder sources) second ∧
        (first.comment.span.file = second.comment.span.file →
          first.comment.span.startLine ≤ second.comment.span.startLine) := by
  have files := List.pairwise_map.mp (pairwise_idxOf distinct)
  unfold parse
  rw [List.pairwise_map, List.pairwise_flatMap]
  constructor
  · intro source _
    have offsets := Comment.scan_pairwise_offset markers source.path source.text
    have lines := Comment.scan_pairwise_startLine markers source.path source.text
    apply (offsets.and lines).imp_of_mem
    intro first second here there inOrder
    have sameFile : first.span.file = second.span.file :=
      (Comment.file_of_mem_scan here).trans (Comment.file_of_mem_scan there).symm
    exact ⟨.inr ⟨sameFile, inOrder.1⟩, fun _ => inOrder.2⟩
  · apply files.imp
    intro source other before first here second there
    rw [← Comment.file_of_mem_scan here, ← Comment.file_of_mem_scan there] at before
    refine ⟨.inl before, ?_⟩
    intro same
    have sameFile : first.span.file = second.span.file := same
    rw [sameFile] at before
    exact absurd before (Nat.lt_irrefl _)

/-- Where no two files have one path, binding takes the comments as they were parsed. -/
theorem collect_parse (distinct : (fileOrder sources).Nodup) (table : SymbolTable) :
    Candidate.collect table (fileOrder sources) (parse markers sources) =
      (parse markers sources).map (Candidate.ofParsed table (fileOrder sources)) := by
  apply List.mergeSort_of_pairwise
  rw [List.pairwise_map]
  apply (parse_pairwise_precedes distinct).imp_of_mem
  intro first second here there inOrder
  rcases inOrder with ⟨precedes, lines⟩
  have firstRank := fileRank_eq_idxOf distinct (file_of_mem_parse here)
  have secondRank := fileRank_eq_idxOf distinct (file_of_mem_parse there)
  simp only [Place.le_iff, Candidate.ofParsed, firstRank, secondRank]
  rcases precedes with earlier | ⟨sameFile, before⟩
  · exact .inl earlier
  · have line := lines sameFile
    refine .inr ⟨by rw [sameFile], .inr ⟨sameFile, ?_⟩⟩
    omega

end Run

end DocAtlas
