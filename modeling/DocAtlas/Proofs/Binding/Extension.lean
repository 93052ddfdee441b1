import DocAtlas.Proofs.Binding.Sequence
import DocAtlas.Proofs.Entry.Comparison

/-!
# More files behind those of a build

Files that are listed behind others, under other names, leave the ranks of those as they
are and rank behind them. Their comments are therefore bound behind all others, and every
entry that there was is continued.
-/

namespace DocAtlas

/-! ## Ranks -/

section

variable {files more : List Text} {file : Text}

theorem fileRank_lt (listed : file ∈ files) : fileRank files file < files.length :=
  (List.getElem?_eq_some_iff.mp (getElem?_fileRank listed)).1

theorem fileRank_append_left (listed : file ∈ files) (absent : file ∉ more) :
    fileRank (files ++ more) file = fileRank files file := by
  have found : (fileRanks (files ++ more)).reverse.lookup file = some (fileRank files file) := by
    rw [fileRanks, List.zipIdx_append, List.reverse_append, List.lookup_append,
      lookup_zipIdx_of_not_mem absent, Option.none_or]
    exact lookup_fileRanks listed
  rw [fileRank, found]

theorem length_le_fileRank_append (listed : file ∈ more) (absent : file ∉ files) :
    files.length ≤ fileRank (files ++ more) file := by
  -- A smaller rank would be a position among the files ahead.
  by_contra earlier
  rw [Nat.not_le] at earlier
  have position := getElem?_fileRank (List.mem_append_right files listed)
  rw [List.getElem?_append_left earlier] at position
  exact absent (List.mem_of_getElem? position)

end

/-! ## Comments -/

namespace Candidate

variable {table : SymbolTable} {files more : List Text}

theorem collect_append {comments others : List ParsedComment}
    (separate : ∀ file ∈ more, file ∉ files)
    (here : ∀ parsed ∈ comments, parsed.comment.span.file ∈ files)
    (there : ∀ parsed ∈ others, parsed.comment.span.file ∈ more) :
    collect table (files ++ more) (comments ++ others) =
      collect table files comments ++ collect table (files ++ more) others := by
  have sameRank {parsed : ParsedComment} (member : parsed ∈ comments) :
      fileRank (files ++ more) parsed.comment.span.file =
        fileRank files parsed.comment.span.file :=
    fileRank_append_left (here parsed member) fun listed =>
      separate _ listed (here parsed member)
  have same : comments.map (ofParsed table (files ++ more)) =
      comments.map (ofParsed table files) := by
    apply List.map_congr_left
    intro parsed member
    rw [ofParsed, ofParsed, sameRank member]
  unfold collect
  rw [List.map_append, same]
  -- Ranks alone decide here: those of the files ahead are all smaller.
  apply mergeSort_append_of_le
  case trans => exact fun _ _ _ left right => Place.le_trans left right
  case total => exact fun first second => Place.le_total first.place second.place
  case ahead =>
    intro first inComments second inOthers
    rcases List.mem_map.mp inComments with ⟨parsed, member, rfl⟩
    rcases List.mem_map.mp inOthers with ⟨other, listed, rfl⟩
    have before := fileRank_lt (here parsed member)
    have behind := length_le_fileRank_append (there other listed)
      (separate _ (there other listed))
    exact Place.le_iff.mpr (.inl (Nat.lt_of_lt_of_le before behind))

end Candidate

theorem Run.candidates_append (builder : Builder) {sources more : List Source}
    (separate : ∀ file ∈ fileOrder more, file ∉ fileOrder sources) (table : SymbolTable) :
    ∃ added, (ofSources builder (sources ++ more) table).candidates =
      (ofSources builder sources table).candidates ++ added := by
  refine ⟨Candidate.collect table (fileOrder sources ++ fileOrder more)
    (parse builder.markers more), ?_⟩
  have comments : parse builder.markers (sources ++ more) =
      parse builder.markers sources ++ parse builder.markers more := by
    simp only [parse, List.flatMap_append, List.map_append]
  have order : fileOrder (sources ++ more) = fileOrder sources ++ fileOrder more :=
    List.map_append
  change Candidate.collect table (fileOrder (sources ++ more))
    (parse builder.markers (sources ++ more)) = _
  rw [comments, order]
  exact Candidate.collect_append separate (fun _ member => file_of_mem_parse member)
    fun _ member => file_of_mem_parse member

/-! ## Entries -/

theorem Binding.continues_of_append {table : SymbolTable} {candidates : List Candidate}
    (more : List Candidate) {entry : Entry}
    (member : entry ∈ (ofCandidates table candidates).entries) :
    ∃ later ∈ (ofCandidates table (candidates ++ more)).entries,
      entry.Continues later ∧ entry.references <+: later.references := by
  rcases mem_entries.mp member with ⟨symbol, listed, known, rfl⟩
  have stillListed : symbol.name ∈ keys table (candidates ++ more) := by
    rcases mem_keys.mp listed with ⟨candidate, inside, chosen⟩
    exact mem_keys.mpr ⟨candidate, List.mem_append_left more inside, chosen⟩
  have comments : commentsOf table (candidates ++ more) symbol.name =
      commentsOf table candidates symbol.name ++ commentsOf table more symbol.name := by
    simp only [commentsOf, List.filter_append, List.map_append]
  refine ⟨_, mem_entries.mpr ⟨symbol, stillListed, known, rfl⟩, ?_⟩
  rw [comments]
  exact ⟨Entry.continues_append symbol _ _, Entry.references_append symbol _ _⟩

end DocAtlas
