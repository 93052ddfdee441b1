import DocAtlas.Failure
import DocAtlas.Proofs.Path
import DocAtlas.Proofs.Results

/-!
# Laws of file trees

Reading a path gives the content of the file that it leads to. In a tree as it can be on a disk no
file is a folder as well, so every file can be read, and whatever leads on from a place are names.
-/

namespace DocAtlas.FileTree

/-- A file tree as it can be on a disk: what leads to a file or folder are names, and nothing is
below a file. -/
structure WellFormed (tree : FileTree) : Prop where
  named : ∀ place ∈ tree.files.map (·.1) ++ tree.folders, ∀ name ∈ place, Path.IsName name
  separate : ∀ file ∈ tree.files, tree.isFolder file.1 = false

def HasFile (tree : FileTree) (names : List Text) (content : List UInt8) : Prop :=
  ∃ place, tree.walk names = .ok place ∧ tree.file? place = some content

variable {tree : FileTree} {names : List Text}

/-! ## Reading -/

theorem isFileAt_iff : tree.isFileAt names = true ↔ ∃ content, tree.HasFile names content := by
  unfold isFileAt HasFile
  cases tree.walk names with
  | error fault => simp
  | ok place => simp [isFile, Option.isSome_iff_exists]

theorem hasFile_of_read {content : List UInt8} (read : tree.read names = .ok content) :
    tree.HasFile names content := by
  rcases bind_eq_ok.mp read with ⟨place, walked, rest⟩
  refine ⟨place, walked, ?_⟩
  cases folder : tree.isFolder place with
  | true =>
    rw [folder] at rest
    cases rest
  | false =>
    cases found : tree.file? place with
    | none =>
      simp only [folder, found] at rest
      cases rest
    | some other =>
      simp only [folder, found] at rest
      cases rest
      rfl

theorem read_of_hasFile (wellFormed : tree.WellFormed) {content : List UInt8}
    (file : tree.HasFile names content) : tree.read names = .ok content := by
  rcases file with ⟨place, walked, found⟩
  rcases List.lookup_eq_some_iff.mp found with ⟨before, after, parts, _⟩
  have listed : (place, content) ∈ tree.files := by
    rw [parts]
    exact List.mem_append_right before List.mem_cons_self
  have noFolder := wellFormed.separate _ listed
  refine bind_eq_ok.mpr ⟨place, walked, ?_⟩
  simp only [noFolder, found]
  rfl

theorem read_eq_ok (wellFormed : tree.WellFormed) {content : List UInt8} :
    tree.read names = .ok content ↔ tree.HasFile names content :=
  ⟨hasFile_of_read, read_of_hasFile wellFormed⟩

theorem find?_of_read {bytes : List UInt8} (read : tree.read names = .ok bytes) :
    ∃ place, tree.find? names = .ok (some place) := by
  rcases hasFile_of_read read with ⟨place, walked, found⟩
  have present : tree.contains place = true := by
    simp only [contains, isFile, found, Option.isSome_some, Bool.true_or]
  refine ⟨place, ?_⟩
  simp only [find?, walked, present, if_true]

theorem readText_of_read {bytes : List UInt8} (read : tree.read names = .ok bytes) :
    tree.readText names = ((Utf8.decode bytes).mapError .encoding).map Utf8.unifyLineEnds := by
  simp only [readText, read]
  rfl

theorem readText_of_error {fault : Fault} (read : tree.read names = .error fault) :
    tree.readText names = .error (.tree fault) := by
  simp only [readText, read]
  rfl

theorem readText_eq_ok {text : Text} :
    tree.readText names = .ok text ↔
      ∃ content decoded, tree.read names = .ok content ∧ Utf8.decode content = .ok decoded ∧
        Utf8.unifyLineEnds decoded = text := by
  simp only [readText, bind_eq_ok, mapError_eq_ok]
  constructor
  · rintro ⟨content, read, decoded, known, made⟩
    exact ⟨content, decoded, read, known, Except.ok.inj made⟩
  · rintro ⟨content, decoded, read, known, made⟩
    exact ⟨content, read, decoded, known, congrArg Except.ok made⟩

/-! ## Names in a tree -/

section

variable (wellFormed : tree.WellFormed)

include wellFormed

theorem isName_of_mem_routes {place : Place} {route : List Text}
    (member : route ∈ tree.routes place) : ∀ name ∈ route, Path.IsName name := by
  rcases List.mem_filterMap.mp member with ⟨other, listed, below⟩
  intro name inside
  unfold below? at below
  split at below
  · cases below
    exact wellFormed.named other listed name (List.mem_of_mem_drop inside)
  · cases below

theorem isName_of_mem_children {place : Place} {name : Text}
    (member : name ∈ tree.children place) : Path.IsName name := by
  rcases List.mem_filterMap.mp (List.mem_eraseDups.mp member) with ⟨route, listed, first⟩
  exact isName_of_mem_routes wellFormed listed name (List.mem_of_mem_head? first)

omit wellFormed in
theorem isPrefix_of_mem_beginnings {names beginning : List Text}
    (member : beginning ∈ beginnings names) : beginning <+: names := by
  induction names generalizing beginning with
  | nil => rw [List.mem_singleton.mp member]
  | cons name rest induction =>
    rcases List.mem_cons.mp member with rfl | longer
    · exact List.nil_prefix
    · rcases List.mem_map.mp longer with ⟨tail, inside, rfl⟩
      exact List.cons_prefix_cons.mpr ⟨rfl, induction inside⟩

theorem isName_of_mem_foldersBelow {place : Place} {names : List Text}
    (member : names ∈ tree.foldersBelow place) : ∀ name ∈ names, Path.IsName name := by
  have listed := (List.mem_filter.mp (List.mem_eraseDups.mp member)).1
  rcases List.mem_flatMap.mp listed with ⟨route, inside, beginning⟩
  intro name here
  exact isName_of_mem_routes wellFormed inside name
    ((isPrefix_of_mem_beginnings beginning).subset here)

end

end DocAtlas.FileTree
