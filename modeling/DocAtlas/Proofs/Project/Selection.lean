import DocAtlas.Proofs.FileTree.Glob
import DocAtlas.Proofs.Project.Exclusion

/-!
# The sources of a project

Pattern by pattern, the files that were not found before are taken in the order of their paths. So
each file comes once, where the first pattern that selects it puts it, and what is excluded or
holds no text is left out of that sequence without changing its order.
-/

namespace DocAtlas

namespace Project

variable {tree : FileTree} {root : List Text}

/-! ## What a pattern selects -/

def Selects (tree : FileTree) (root : List Text) (pattern : Text) (names : List Text) : Prop :=
  ∃ selected, selectOne tree root pattern = .ok selected ∧ names ∈ selected

theorem selects_iff {pattern : Text} {selected : List (List Text)}
    (done : selectOne tree root pattern = .ok selected) {names : List Text} :
    Selects tree root pattern names ↔ names ∈ selected := by
  constructor
  · rintro ⟨others, same, member⟩
    rw [done] at same
    cases same
    exact member
  · exact fun member => ⟨selected, done, member⟩

theorem selectOne_eq_ok {pattern : Text} {selected : List (List Text)} :
    selectOne tree root pattern = .ok selected ↔
      ∃ glob, Glob.ofText pattern = .ok glob ∧ Glob.select tree root glob = .ok selected := by
  rw [selectOne, bind_eq_ok]
  simp only [mapError_eq_ok]

theorem isName_of_selects (wellFormed : tree.WellFormed) {pattern : Text} {names : List Text}
    (selects : Selects tree root pattern names) : ∀ name ∈ names, Path.IsName name := by
  rcases selects with ⟨selected, done, member⟩
  rcases selectOne_eq_ok.mp done with ⟨glob, read, reached⟩
  exact Glob.isName_of_mem_select wellFormed (Glob.named_of_ofText read) reached member

/-! ## The first pattern that selects -/

structure FirstSelects (tree : FileTree) (root : List Text) (patterns : List Text)
    (names : List Text) (index : Nat) : Prop where
  selects : ∃ pattern, patterns[index]? = some pattern ∧ Selects tree root pattern names
  first : ∀ earlier < index, ∀ pattern, patterns[earlier]? = some pattern →
    ¬Selects tree root pattern names

/-- One file comes before another: the first pattern that selects it stands ahead, or is the same
one and its path is not the greater. -/
def Before (tree : FileTree) (root : List Text) (patterns : List Text)
    (first second : List Text) : Prop :=
  ∃ here there, FirstSelects tree root patterns first here ∧
    FirstSelects tree root patterns second there ∧
      (here < there ∨ here = there ∧ Path.partsLe first second = true)

section

variable {pattern : Text} {patterns : List Text} {names : List Text}

theorem FirstSelects.head (selects : Selects tree root pattern names) :
    FirstSelects tree root (pattern :: patterns) names 0 where
  selects := ⟨pattern, rfl, selects⟩
  first := fun _ earlier => absurd earlier (Nat.not_lt_zero _)

theorem FirstSelects.behind (other : ¬Selects tree root pattern names) {index : Nat}
    (selected : FirstSelects tree root patterns names index) :
    FirstSelects tree root (pattern :: patterns) names (index + 1) where
  selects := selected.selects
  first := by
    intro earlier before candidate found
    cases earlier with
    | zero =>
      cases found
      exact other
    | succ earlier => exact selected.first earlier (Nat.lt_of_succ_lt_succ before) candidate found

theorem exists_firstSelects (selected : ∃ pattern ∈ patterns, Selects tree root pattern names) :
    ∃ index, FirstSelects tree root patterns names index := by
  induction patterns with
  | nil =>
    rcases selected with ⟨_, member, _⟩
    cases member
  | cons pattern rest induction =>
    by_cases own : Selects tree root pattern names
    · exact ⟨0, .head own⟩
    · rcases selected with ⟨other, member, selects⟩
      rcases List.mem_cons.mp member with rfl | later
      · exact absurd selects own
      · rcases induction ⟨other, later, selects⟩ with ⟨index, found⟩
        exact ⟨index + 1, found.behind own⟩

end

/-! ## Pattern by pattern -/

structure Finds (tree : FileTree) (root : List Text) (patterns : List Text)
    (seen found : List (List Text)) : Prop where
  exact : ∀ names, names ∈ found ↔ names ∉ seen ∧ tree.isFileAt (root ++ names) = true ∧
    ∃ pattern ∈ patterns, Selects tree root pattern names
  nodup : found.Nodup
  ordered : found.Pairwise (Before tree root patterns)

theorem Finds.nil (seen : List (List Text)) : Finds tree root [] seen [] where
  exact := by simp
  nodup := .nil
  ordered := .nil

def fresh (tree : FileTree) (root : List Text) (seen selected : List (List Text)) :
    List (List Text) :=
  selected.filter fun names => tree.isFileAt (root ++ names) && !seen.contains names

theorem mem_fresh {seen selected : List (List Text)} {names : List Text} :
    names ∈ fresh tree root seen selected ↔
      names ∈ selected ∧ tree.isFileAt (root ++ names) = true ∧ names ∉ seen := by
  simp [fresh]

/-- A pattern in front adds the files that it selects and that were not seen; the patterns behind
it find those of their files that it does not select. -/
theorem Finds.cons {pattern : Text} {patterns : List Text} {seen selected later : List (List Text)}
    (done : selectOne tree root pattern = .ok selected)
    (behind : Finds tree root patterns (seen ++ fresh tree root seen selected) later) :
    Finds tree root (pattern :: patterns) seen (fresh tree root seen selected ++ later) := by
  have sorted : selected.Nodup ∧
      selected.Pairwise fun first second => Path.partsLe first second = true := by
    rcases selectOne_eq_ok.mp done with ⟨glob, _, reached⟩
    exact Glob.sorted_of_select reached
  have own : ∀ names ∈ fresh tree root seen selected, Selects tree root pattern names :=
    fun names member => (selects_iff done).mpr (mem_fresh.mp member).1
  -- What comes later was not seen, and this pattern has seen all that it selects.
  have other : ∀ names ∈ later, ¬Selects tree root pattern names := by
    intro names member selects
    rcases (behind.exact names).mp member with ⟨unseen, file, _⟩
    rw [List.mem_append, not_or] at unseen
    exact unseen.2 (mem_fresh.mpr ⟨(selects_iff done).mp selects, file, unseen.1⟩)
  refine ⟨?exact, ?nodup, ?ordered⟩
  case exact =>
    intro names
    rw [List.mem_append, mem_fresh, behind.exact, List.mem_append, not_or, mem_fresh,
      ← selects_iff done]
    constructor
    · rintro (⟨selects, file, unseen⟩ | ⟨⟨unseen, _⟩, file, candidate, member, selects⟩)
      · exact ⟨unseen, file, pattern, List.mem_cons_self, selects⟩
      · exact ⟨unseen, file, candidate, List.mem_cons_of_mem pattern member, selects⟩
    · rintro ⟨unseen, file, candidate, member, selects⟩
      by_cases here : Selects tree root pattern names
      · exact .inl ⟨here, file, unseen⟩
      · rcases List.mem_cons.mp member with rfl | inRest
        · exact absurd selects here
        · exact .inr ⟨⟨unseen, fun now => here now.1⟩, file, candidate, inRest, selects⟩
  case nodup =>
    refine List.nodup_append.mpr ⟨sorted.1.filter _, behind.nodup, ?_⟩
    rintro names here _ there rfl
    exact other names there (own names here)
  case ordered =>
    refine List.pairwise_append.mpr ⟨?_, ?_, ?_⟩
    · apply (sorted.2.filter _).imp_of_mem
      intro first second here there le
      exact ⟨0, 0, .head (own first here), .head (own second there), .inr ⟨rfl, le⟩⟩
    -- Behind the new pattern, every position is one further.
    · apply behind.ordered.imp_of_mem
      rintro first second here there ⟨index, next, selected, nextSelected, inOrder⟩
      refine ⟨index + 1, next + 1, selected.behind (other first here),
        nextSelected.behind (other second there), ?_⟩
      exact inOrder.imp Nat.succ_lt_succ fun same => ⟨congrArg (· + 1) same.1, same.2⟩
    · intro first here second there
      rcases exists_firstSelects ((behind.exact second).mp there).2.2 with ⟨index, selected⟩
      exact ⟨0, index + 1, .head (own first here), selected.behind (other second there),
        .inl (Nat.succ_pos index)⟩

/-- The patterns of a project find what they select, if none of them fails. -/
theorem finds_selectFrom {patterns : List Text}
    (followed : ∀ pattern ∈ patterns, ∃ selected, selectOne tree root pattern = .ok selected)
    (seen : List (List Text)) :
    Finds tree root patterns seen (selectFrom tree root seen patterns).1 ∧
      (selectFrom tree root seen patterns).2 = none := by
  induction patterns generalizing seen with
  | nil => exact ⟨.nil seen, rfl⟩
  | cons pattern rest induction =>
    rw [List.forall_mem_cons] at followed
    rcases followed.1 with ⟨selected, done⟩
    have later := induction followed.2 (seen ++ fresh tree root seen selected)
    have step : selectFrom tree root seen (pattern :: rest) =
        (fresh tree root seen selected ++
            (selectFrom tree root (seen ++ fresh tree root seen selected) rest).1,
          (selectFrom tree root (seen ++ fresh tree root seen selected) rest).2) := by
      rw [selectFrom, done]
      rfl
    rw [step]
    exact ⟨.cons done later.1, later.2⟩

/-! ## Sources -/

def sourceAt? (tree : FileTree) (root names : List Text) : Option Source :=
  match tree.readText (root ++ names) with
  | .ok text => some ⟨Path.slashJoined names, text⟩
  | .error _ => none

theorem sourceAt?_eq_some {names : List Text} {source : Source} :
    sourceAt? tree root names = some source ↔
      source.path = Path.slashJoined names ∧ tree.readText (root ++ names) = .ok source.text := by
  unfold sourceAt?
  cases tree.readText (root ++ names) with
  | error fault => simp
  | ok text =>
    rw [Option.some.injEq, Except.ok.injEq]
    constructor
    · rintro rfl
      exact ⟨rfl, rfl⟩
    · rintro ⟨path, rfl⟩
      rw [← path]

def keptNames (tree : FileTree) (settings : Settings) : List (List Text) :=
  (selectFrom tree settings.root.parts [] settings.sources).1.filter fun names =>
    !isExcluded settings.exclusions (Path.slashJoined names)

/-- A source stands at some names below the root of a project: a pattern selects them, no pattern
excludes their path, and they lead to a file whose content is a text. -/
structure StandsAt (tree : FileTree) (settings : Settings) (names : List Text) (source : Source) :
    Prop where
  path : source.path = Path.slashJoined names
  selected : ∃ pattern ∈ settings.sources, Selects tree settings.root.parts pattern names
  kept : ∀ pattern ∈ settings.exclusions, excludedBy source.path pattern = false
  text : ∃ content decoded, tree.HasFile (settings.root.parts ++ names) content ∧
    Utf8.decode content = .ok decoded ∧ Utf8.unifyLineEnds decoded = source.text

structure Selected (tree : FileTree) (settings : Settings) (sources : List Source) : Prop where
  distinct : (sources.map (·.path)).Nodup
  exact : ∀ source, source ∈ sources ↔ ∃ names, StandsAt tree settings names source
  ordered : sources.Pairwise fun first second =>
    Before tree settings.root.parts settings.sources (Path.ofText first.path).parts
      (Path.ofText second.path).parts

section

variable {settings : Settings}
  (followed : ∀ pattern ∈ settings.sources,
    ∃ selected, selectOne tree settings.root.parts pattern = .ok selected)

include followed

theorem sources_select :
    (select tree settings).sources =
      .ok ((keptNames tree settings).filterMap (sourceAt? tree settings.root.parts)) := by
  have noFailure := (finds_selectFrom followed []).2
  have failure : (select tree settings).failure = none := noFailure
  have files : (select tree settings).files.filterMap (·.source?) =
      (keptNames tree settings).filterMap (sourceAt? tree settings.root.parts) := by
    change ((keptNames tree settings).map _).filterMap _ = _
    rw [List.filterMap_map]
    rfl
  rw [Selection.sources, failure, files]

theorem mem_keptNames {names : List Text} :
    names ∈ keptNames tree settings ↔
      tree.isFileAt (settings.root.parts ++ names) = true ∧
        (∃ pattern ∈ settings.sources, Selects tree settings.root.parts pattern names) ∧
          isExcluded settings.exclusions (Path.slashJoined names) = false := by
  have found := (finds_selectFrom followed []).1.exact names
  rw [keptNames, List.mem_filter, found, Bool.not_eq_true']
  simp [and_assoc]

theorem selected_keptNames (wellFormed : tree.WellFormed) :
    Selected tree settings
      ((keptNames tree settings).filterMap (sourceAt? tree settings.root.parts)) := by
  have finds := (finds_selectFrom followed []).1
  have parts : ∀ names ∈ keptNames tree settings,
      (Path.ofText (Path.slashJoined names)).parts = names := by
    intro names member
    rcases ((mem_keptNames followed).mp member).2.1 with ⟨pattern, _, selects⟩
    exact Path.parts_ofText_slashJoined (isName_of_selects wellFormed selects)
  refine ⟨?distinct, ?exact, ?ordered⟩
  case distinct =>
    rw [List.Nodup, List.pairwise_map, List.pairwise_filterMap]
    apply (finds.nodup.filter _).imp_of_mem
    intro first second here there different source found other alsoFound same
    rw [(sourceAt?_eq_some.mp found).1, (sourceAt?_eq_some.mp alsoFound).1] at same
    have equal := congrArg (fun path => (Path.ofText path).parts) same
    simp only [parts first here, parts second there] at equal
    exact different equal
  case exact =>
    intro source
    simp only [List.mem_filterMap, sourceAt?_eq_some, mem_keptNames followed,
      FileTree.readText_eq_ok, FileTree.read_eq_ok wellFormed, isExcluded_eq_false]
    constructor
    · rintro ⟨names, ⟨_, selected, kept⟩, path, text⟩
      exact ⟨names, path, selected, path ▸ kept, text⟩
    · rintro ⟨names, path, selected, kept, text⟩
      rcases text with ⟨content, decoded, file, known⟩
      refine ⟨names, ⟨?_, selected, path ▸ kept⟩, path, content, decoded, file, known⟩
      exact FileTree.isFileAt_iff.mpr ⟨content, file⟩
  case ordered =>
    rw [List.pairwise_filterMap]
    apply (finds.ordered.filter _).imp_of_mem
    intro first second here there before source found other alsoFound
    rw [(sourceAt?_eq_some.mp found).1, (sourceAt?_eq_some.mp alsoFound).1, parts first here,
      parts second there]
    exact before

end

theorem keptNames_sublist {settings : Settings} {more : List Text}
    (inside : settings.exclusions ⊆ more) :
    (keptNames tree { settings with exclusions := more }).Sublist (keptNames tree settings) := by
  apply List.monotone_filter_right
  intro names kept
  rw [Bool.not_eq_true'] at kept ⊢
  exact isExcluded_of_subset inside kept

/-- The sources of a project whose patterns all can be followed are the files with a text that
some pattern selects and no pattern excludes, each once: in the order of the first patterns that
select them and then of their paths. More exclusions leave a part of them. A pattern without
wildcards excludes its own path and what lies inside the folder that it names. -/
theorem sources_selected_once {tree : FileTree} {settings : Settings}
    (wellFormed : tree.WellFormed)
    (followed : ∀ pattern ∈ settings.sources,
      ∃ selected, selectOne tree settings.root.parts pattern = .ok selected) :
    (∃ sources, (select tree settings).sources = .ok sources ∧ Selected tree settings sources ∧
      ∀ more, settings.exclusions ⊆ more →
        ∃ fewer, (select tree { settings with exclusions := more }).sources = .ok fewer ∧
          fewer.Sublist sources) ∧
    ∀ pattern, Wildcard.isWildcard pattern = false → ∀ path,
      (excludedBy path pattern = true ↔
        path = pattern ∨ Path.LiesIn (Text.dropEndWhile (· == '/') pattern) path) := by
  refine ⟨⟨_, sources_select followed, selected_keptNames followed wellFormed, ?_⟩, ?_⟩
  · intro more inside
    refine ⟨_, @sources_select tree { settings with exclusions := more } followed, ?_⟩
    exact (keptNames_sublist inside).filterMap _
  · exact fun pattern plain path => excludedBy_of_plain plain

/-- Two patterns that overlap, an excluded folder and a file that holds no text. -/
theorem sources_selected_once_of_overlap :
    let tree : FileTree :=
      ⟨[(["b.h"], [98]), (["src", "a.h"], [97]), (["out", "c.h"], [99]), (["x.h"], [255])], []⟩
    let settings : Settings :=
      { Settings.defaults ⟨['/'], []⟩ with sources := ["*.h", "**/*.h"], exclusions := ["out/"] }
    tree.WellFormed ∧
      (∀ pattern ∈ settings.sources,
        ∃ selected, selectOne tree settings.root.parts pattern = .ok selected) ∧
      Wildcard.isWildcard "out/" = false ∧
      (∃ sources, (select tree settings).sources = .ok sources ∧
        Selected tree settings sources ∧
          ∀ more, settings.exclusions ⊆ more →
            ∃ fewer, (select tree { settings with exclusions := more }).sources = .ok fewer ∧
              fewer.Sublist sources) ∧
      ∀ path, excludedBy path "out/" = true ↔ path = "out/".toList ∨ Path.LiesIn "out" path := by
  intro tree settings
  have wellFormed : tree.WellFormed := ⟨by decide, by decide⟩
  have done : ∀ pattern ∈ settings.sources,
      (selectOne tree settings.root.parts pattern).isOk = true := by decide +kernel
  have followed := fun pattern member => exists_of_isOk (done pattern member)
  have plain : Wildcard.isWildcard "out/" = false := by decide
  have all := sources_selected_once wellFormed followed
  exact ⟨wellFormed, followed, plain, all.1, all.2 _ plain⟩

end Project

end DocAtlas
