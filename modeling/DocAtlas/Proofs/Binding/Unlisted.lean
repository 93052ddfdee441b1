import DocAtlas.Proofs.Binding.Extension
import Mathlib.Data.List.Pairwise

/-!
# Files that are not listed

A list of files orders the comments that are bound: each file is ranked by the last position at
which it is listed. The comments of one file stay together from top to bottom, and files that are
not listed go by their names.

A file that is not listed is ranked by the number of different files in the list, as if each were
listed once. It comes behind all listed files exactly if none of them is listed so far down that
it ranks behind that number; where a file is listed twice, an unlisted file can come first.
-/

namespace DocAtlas

/-! ## Ranks -/

def LastAt (files : List Text) (file : Text) (position : Nat) : Prop :=
  files[position]? = some file ∧ ∀ later, position < later → files[later]? ≠ some file

section

variable {files : List Text} {file : Text} {position : Nat}

theorem LastAt.unique {other : Nat} (first : LastAt files file position)
    (second : LastAt files file other) : position = other := by
  rcases Nat.lt_trichotomy position other with less | equal | greater
  · exact absurd second.1 (first.2 other less)
  · exact equal
  · exact absurd first.1 (second.2 position greater)

theorem lastAt_of_lookup (found : (fileRanks files).reverse.lookup file = some position) :
    LastAt files file position := by
  induction files using List.reverseRecOn generalizing position with
  | nil => cases found
  | append_singleton files last induction =>
    rw [fileRanks, List.zipIdx_append, List.reverse_append, List.zipIdx_singleton,
      List.reverse_singleton, List.singleton_append, List.lookup_cons, Nat.zero_add] at found
    by_cases equal : file = last
    · subst equal
      rw [beq_self_eq_true] at found
      cases found
      refine ⟨List.getElem?_concat_length, fun later behind => ?_⟩
      rw [List.getElem?_eq_none (by simp; omega)]
      exact nofun
    · rw [beq_false_of_ne equal] at found
      rcases induction found with ⟨here, absent⟩
      have inside := (List.getElem?_eq_some_iff.mp here).1
      refine ⟨by rw [List.getElem?_append_left inside, here], fun later behind => ?_⟩
      rcases Nat.lt_or_ge later files.length with among | atEnd
      · rw [List.getElem?_append_left among]
        exact absent later behind
      · rw [List.getElem?_append_right atEnd]
        exact fun there => equal (List.mem_singleton.mp (List.mem_of_getElem? there))

theorem lastAt_fileRank (listed : file ∈ files) : LastAt files file (fileRank files file) :=
  lastAt_of_lookup (lookup_fileRanks listed)

theorem fileRank_of_not_mem (absent : file ∉ files) :
    fileRank files file = files.eraseDups.length := by
  rw [fileRank, fileRanks, lookup_zipIdx_of_not_mem absent]

theorem length_eraseDups_of_nodup (distinct : files.Nodup) :
    files.eraseDups.length = files.length := by
  apply List.Perm.length_eq
  apply (List.perm_ext_iff_of_nodup (nodup_eraseDups files) distinct).mpr
  exact fun file => List.mem_eraseDups

end

theorem Place.file_eq_of_between {first middle last : Place} (rank : first.rank = last.rank)
    (file : first.file = last.file) (ahead : first.le middle = true)
    (behind : middle.le last = true) : middle.file = first.file := by
  rw [Place.le_iff] at ahead behind
  rcases ahead with less | ⟨_, ⟨_, before⟩ | ⟨same, _⟩⟩
  · omega
  · rcases behind with less | ⟨_, ⟨_, after⟩ | ⟨same, _⟩⟩
    · omega
    · exact Text.le_antisymm (file ▸ after) before
    · exact same.trans file.symm
  · exact same.symm

namespace Candidate

def file (candidate : Candidate) : Text := candidate.parsed.comment.span.file

variable {table : SymbolTable} {files : List Text} {comments : List ParsedComment}

theorem file_ofParsed {parsed : ParsedComment} :
    (ofParsed table files parsed).file = parsed.comment.span.file :=
  rfl

theorem place_of_mem_collect {candidate : Candidate}
    (member : candidate ∈ collect table files comments) :
    candidate.place = ⟨fileRank files candidate.file, candidate.file,
      candidate.parsed.comment.span.startLine, candidate.parsed.comment.offset⟩ := by
  rcases mem_collect.mp member with ⟨parsed, _, rfl⟩
  rfl

def NotBelow (first second : Candidate) : Prop :=
  first.parsed.comment.span.startLine < second.parsed.comment.span.startLine ∨
    first.parsed.comment.span.startLine = second.parsed.comment.span.startLine ∧
      first.parsed.comment.offset ≤ second.parsed.comment.offset

theorem le_iff_of_mem {first second : Candidate} (here : first ∈ collect table files comments)
    (there : second ∈ collect table files comments) :
    first.place.le second.place = true ↔
      fileRank files first.file < fileRank files second.file ∨
        fileRank files first.file = fileRank files second.file ∧
          (first.file ≠ second.file ∧ Text.le first.file second.file = true ∨
            first.file = second.file ∧ first.NotBelow second) := by
  rw [Place.le_iff, place_of_mem_collect here, place_of_mem_collect there]
  rfl

/-- A listed file stands ahead of a file that is not listed: its last position is smaller than the
number of different files in the list, or equal to it and its name is not the greater one. -/
def RanksAhead (files : List Text) (listed unlisted : Text) : Prop :=
  ∀ position, LastAt files listed position →
    position < files.eraseDups.length ∨
      position = files.eraseDups.length ∧ Text.le listed unlisted = true

theorem le_iff_ranksAhead {first second : Candidate}
    (here : first ∈ collect table files comments) (there : second ∈ collect table files comments)
    (listed : first.file ∈ files) (unlisted : second.file ∉ files) :
    first.place.le second.place = true ↔ RanksAhead files first.file second.file := by
  have last := lastAt_fileRank listed
  have different : first.file ≠ second.file := fun same => unlisted (same ▸ listed)
  have own : first.place.le second.place = true ↔
      fileRank files first.file < files.eraseDups.length ∨
        fileRank files first.file = files.eraseDups.length ∧
          Text.le first.file second.file = true := by
    rw [le_iff_of_mem here there, fileRank_of_not_mem unlisted]
    simp [different]
  rw [own]
  constructor
  · exact fun ahead position there => last.unique there ▸ ahead
  · exact fun ahead => ahead _ last

/-- No comment in an unlisted file comes before one in a listed file. -/
def ListedFirst (files : List Text) (candidates : List Candidate) : Prop :=
  candidates.Pairwise fun first second => first.file ∉ files → second.file ∉ files

instance (files : List Text) (candidates : List Candidate) :
    Decidable (ListedFirst files candidates) :=
  inferInstanceAs (Decidable (candidates.Pairwise fun first second =>
    first.file ∉ files → second.file ∉ files))

theorem listedFirst_collect_iff :
    ListedFirst files (collect table files comments) ↔
      ∀ first ∈ collect table files comments, ∀ second ∈ collect table files comments,
        first.file ∈ files → second.file ∉ files → RanksAhead files first.file second.file := by
  constructor
  · intro ordered
    have ahead : ∀ first ∈ collect table files comments, ∀ second ∈ collect table files comments,
        first.file ∈ files → second.file ∉ files → first.place.le second.place = true := by
      apply List.Pairwise.forall_of_forall_of_flip
      · exact fun _ _ listed unlisted => absurd listed unlisted
      · exact (collect_pairwise_le table files comments).imp fun le _ _ => le
      · exact ordered.imp fun forward listed unlisted => absurd listed (forward unlisted)
    intro first here second there listed unlisted
    exact (le_iff_ranksAhead here there listed unlisted).mp
      (ahead first here second there listed unlisted)
  · intro ahead
    apply (collect_pairwise_le table files comments).imp_of_mem
    intro first second here there le unlisted listed
    have back := (le_iff_ranksAhead there here listed unlisted).mpr
      (ahead second there first here listed unlisted)
    have places := congrArg Place.file (Place.le_antisymm le back)
    rw [place_of_mem_collect here, place_of_mem_collect there] at places
    have same : first.file = second.file := places
    exact unlisted (same ▸ listed)

theorem collect_pairwise_notBelow (table : SymbolTable) (files : List Text)
    (comments : List ParsedComment) :
    (collect table files comments).Pairwise fun first second =>
      first.file = second.file → first.NotBelow second := by
  apply (collect_pairwise_le table files comments).imp_of_mem
  intro first second here there le same
  rw [le_iff_of_mem here there, same] at le
  simpa using le

theorem collect_pairwise_names (table : SymbolTable) (files : List Text)
    (comments : List ParsedComment) :
    (collect table files comments).Pairwise fun first second =>
      first.file ∉ files → second.file ∉ files → Text.le first.file second.file = true := by
  apply (collect_pairwise_le table files comments).imp_of_mem
  intro first second here there le unlisted alsoUnlisted
  rw [le_iff_of_mem here there, fileRank_of_not_mem unlisted,
    fileRank_of_not_mem alsoUnlisted] at le
  rcases le with less | ⟨_, ⟨_, names⟩ | ⟨same, _⟩⟩
  · exact absurd less (Nat.lt_irrefl _)
  · exact names
  · rw [same]
    simpa using Text.le_total second.file second.file

theorem file_eq_of_collect_eq {before between after : List Candidate} {first last : Candidate}
    (whole : collect table files comments = before ++ first :: (between ++ last :: after))
    (same : first.file = last.file) : ∀ candidate ∈ between, candidate.file = first.file := by
  intro candidate member
  have sorted := collect_pairwise_le table files comments
  have listed : ∀ other ∈ first :: (between ++ last :: after),
      other ∈ collect table files comments := by
    intro other inside
    rw [whole]
    exact List.mem_append_right before inside
  rw [whole, List.pairwise_append, List.pairwise_cons, List.pairwise_append] at sorted
  have inner : candidate ∈ between ++ last :: after := List.mem_append_left _ member
  have ahead := sorted.2.1.1 candidate inner
  have behind := sorted.2.1.2.2.2 candidate member last List.mem_cons_self
  have middle := listed candidate (List.mem_cons_of_mem _ inner)
  have final := listed last (by simp)
  rw [place_of_mem_collect (listed first List.mem_cons_self), place_of_mem_collect middle] at ahead
  rw [place_of_mem_collect middle, place_of_mem_collect final] at behind
  exact Place.file_eq_of_between (same ▸ rfl) same ahead behind

/-- The comments of some files are collected file by file, each from top to bottom, and the files
that are not listed by their names. Listed files come first exactly if each of them ranks ahead of
the unlisted ones, as all do if no file is listed twice. -/
theorem collect_orders_files (table : SymbolTable) (files : List Text)
    (comments : List ParsedComment) :
    let order := collect table files comments
    (order.map (·.parsed)).Perm comments ∧
    (order.Pairwise fun first second => first.file = second.file → first.NotBelow second) ∧
    (∀ before first between last after,
      order = before ++ first :: (between ++ last :: after) → first.file = last.file →
        ∀ candidate ∈ between, candidate.file = first.file) ∧
    (order.Pairwise fun first second =>
      first.file ∉ files → second.file ∉ files → Text.le first.file second.file = true) ∧
    (ListedFirst files order ↔
      ∀ first ∈ order, ∀ second ∈ order, first.file ∈ files → second.file ∉ files →
        RanksAhead files first.file second.file) ∧
    (files.Nodup → ListedFirst files order) := by
  intro order
  refine ⟨?_, collect_pairwise_notBelow table files comments,
    fun _ _ _ _ _ whole same => file_eq_of_collect_eq whole same,
    collect_pairwise_names table files comments, listedFirst_collect_iff, ?_⟩
  · have parsed := (collect_perm table files comments).map (·.parsed)
    rw [List.map_map] at parsed
    have same : comments.map ((·.parsed) ∘ ofParsed table files) = comments := List.map_id comments
    exact same ▸ parsed
  · intro distinct
    refine listedFirst_collect_iff.mpr ?_
    intro first _ second _ _ _ position last
    rw [length_eraseDups_of_nodup distinct]
    exact .inl (List.getElem?_eq_some_iff.mp last.1).1

/-- A file that is listed twice counts once, so a file that is not listed comes to stand at its
rank, and for its name may go before it. -/
theorem unlisted_file_comes_first :
    let files : List Text := ["b.h", "b.h"]
    let comments := Run.parse ⟨["/*!"], by decide⟩
      [⟨"b.h", "/*! one */"⟩, ⟨"a.h", "/*! two */"⟩]
    ¬ListedFirst files (collect .empty files comments) := by
  intro files comments ordered
  have parsed : comments.map (·.comment.span.file) = ["b.h".toList, "a.h".toList] := by
    decide +kernel
  rcases List.map_eq_cons_iff.mp parsed with ⟨first, rest, whole, inFirst, others⟩
  rcases List.map_eq_cons_iff.mp others with ⟨second, last, rfl, inSecond, _⟩
  have here : ofParsed .empty files first ∈ collect .empty files comments :=
    mem_collect.mpr ⟨first, by simp [whole], rfl⟩
  have there : ofParsed .empty files second ∈ collect .empty files comments :=
    mem_collect.mpr ⟨second, by simp [whole], rfl⟩
  have ahead : RanksAhead files first.comment.span.file second.comment.span.file := by
    refine listedFirst_collect_iff.mp ordered _ here _ there ?_ ?_
    · rw [file_ofParsed, inFirst]
      decide
    · rw [file_ofParsed, inSecond]
      decide
  rw [inFirst, inSecond] at ahead
  have atEnd : LastAt files "b.h".toList 1 :=
    ⟨rfl, fun later behind => by rw [List.getElem?_eq_none behind]; exact nofun⟩
  rcases ahead 1 atEnd with less | ⟨_, names⟩
  · exact absurd less (by decide)
  · exact absurd names (by decide)

end Candidate

end DocAtlas
