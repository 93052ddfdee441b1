import DocAtlas.Segment.Paragraph
import DocAtlas.Proofs.Segment.Inline
import Mathlib.Data.List.Basic

/-!
# Prose in paragraphs

Lines fall into paragraphs in one way only. A break is put in front of a paragraph if there
are segments already; that it parts every two paragraphs rests on each of them having a segment.
Main statement: the segments of some lines are those of their paragraphs with one break between
two, so cutting them at the breaks gives the paragraphs back.
-/

namespace DocAtlas

open Text (trim)

/-! ## Paragraphs -/

/-- The ways in which lines fall into runs of lines that are not blank, each as long as it goes
and written as its lines trimmed. -/
inductive FallsInto : List Text → List (List Text) → Prop
  | gap {gap : List Text} : (∀ line ∈ gap, trim line = []) → FallsInto gap []
  | run {gap run behind : List Text} {parts : List (List Text)} :
      (∀ line ∈ gap, trim line = []) → run ≠ [] → (∀ line ∈ run, trim line ≠ []) →
      (∀ next ∈ behind.head?, trim next = []) → FallsInto behind parts →
      FallsInto (gap ++ (run ++ behind)) (run.map trim :: parts)

theorem paragraphs_cons_blank {line : Text} (blank : trim line = []) (rest : List Text) :
    paragraphs (line :: rest) = paragraphs rest := by
  cases rest <;> simp [paragraphs, blank]

theorem paragraphs_gap_append {gap : List Text} (blank : ∀ line ∈ gap, trim line = [])
    (behind : List Text) : paragraphs (gap ++ behind) = paragraphs behind := by
  induction gap with
  | nil => rfl
  | cons line rest induction =>
    rw [List.forall_mem_cons] at blank
    rw [List.cons_append, paragraphs_cons_blank blank.1, induction blank.2]

theorem paragraphs_cons_last {line : Text} (full : trim line ≠ []) {behind : List Text}
    (stops : ∀ next ∈ behind.head?, trim next = []) :
    paragraphs (line :: behind) = [trim line] :: paragraphs behind := by
  cases behind with
  | nil => simp [paragraphs, full]
  | cons next after =>
    have blank : trim next = [] := stops next rfl
    conv_lhs => unfold paragraphs
    cases paragraphs (next :: after) <;> simp [full, blank]

theorem paragraphs_cons_cons {line next : Text} {after : List Text} {part : List Text}
    {parts : List (List Text)} (full : trim line ≠ []) (goesOn : trim next ≠ [])
    (others : paragraphs (next :: after) = part :: parts) :
    paragraphs (line :: next :: after) = (trim line :: part) :: parts := by
  unfold paragraphs
  simp [full, goesOn, others]

theorem paragraphs_run_append {run behind : List Text} (some : run ≠ [])
    (full : ∀ line ∈ run, trim line ≠ []) (stops : ∀ next ∈ behind.head?, trim next = []) :
    paragraphs (run ++ behind) = run.map trim :: paragraphs behind := by
  induction run with
  | nil => exact absurd rfl some
  | cons line rest induction =>
    rw [List.forall_mem_cons] at full
    cases rest with
    | nil => exact paragraphs_cons_last full.1 stops
    | cons next after =>
      have others := induction (List.cons_ne_nil next after) full.2
      exact paragraphs_cons_cons full.1 (full.2 next List.mem_cons_self) others

theorem FallsInto.paragraphs_eq {lines : List Text} {parts : List (List Text)}
    (falls : FallsInto lines parts) : paragraphs lines = parts := by
  induction falls with
  | gap blank => simpa [paragraphs] using paragraphs_gap_append blank []
  | run blank some full stops _ induction =>
    rw [paragraphs_gap_append blank, paragraphs_run_append some full stops, induction]

theorem FallsInto.cons_blank {line : Text} {rest : List Text} {parts : List (List Text)}
    (blank : trim line = []) (falls : FallsInto rest parts) : FallsInto (line :: rest) parts := by
  cases falls with
  | gap others => exact .gap (List.forall_mem_cons.mpr ⟨blank, others⟩)
  | run others some full stops more =>
    exact .run (List.forall_mem_cons.mpr ⟨blank, others⟩) some full stops more

/-- A line that is not blank goes in front of the first run, or is a run of its own where a
blank line follows. -/
theorem FallsInto.cons_full {line : Text} {rest : List Text} {parts : List (List Text)}
    (notBlank : trim line ≠ []) (falls : FallsInto rest parts) :
    ∃ parts, FallsInto (line :: rest) parts := by
  have alone (stops : ∀ next ∈ rest.head?, trim next = []) :
      ∃ parts, FallsInto (line :: rest) parts :=
    ⟨_, .run (List.forall_mem_nil _) (List.cons_ne_nil line [])
      (List.forall_mem_singleton.mpr notBlank) stops falls⟩
  cases falls with
  | gap blank => exact alone fun next first => blank next (List.mem_of_mem_head? first)
  | @run gap run behind parts blank some full stops more =>
    cases gap with
    | nil =>
      exact ⟨_, .run (List.forall_mem_nil _) (List.cons_ne_nil line run)
        (List.forall_mem_cons.mpr ⟨notBlank, full⟩) stops more⟩
    | cons first gap =>
      apply alone
      rintro next ⟨⟩
      exact blank first List.mem_cons_self

theorem exists_fallsInto (lines : List Text) : ∃ parts, FallsInto lines parts := by
  induction lines with
  | nil => exact ⟨[], .gap (List.forall_mem_nil _)⟩
  | cons line rest induction =>
    rcases induction with ⟨parts, falls⟩
    by_cases blank : trim line = []
    · exact ⟨parts, falls.cons_blank blank⟩
    · exact falls.cons_full blank

theorem fallsInto_iff {lines : List Text} {parts : List (List Text)} :
    FallsInto lines parts ↔ parts = paragraphs lines := by
  constructor
  · exact fun falls => falls.paragraphs_eq.symm
  · rintro rfl
    rcases exists_fallsInto lines with ⟨parts, falls⟩
    rwa [falls.paragraphs_eq]

theorem FallsInto.full {lines : List Text} {parts : List (List Text)}
    (falls : FallsInto lines parts) : ∀ part ∈ parts, part ≠ [] ∧ ∀ text ∈ part, text ≠ [] := by
  induction falls with
  | gap _ => exact List.forall_mem_nil _
  | run _ some full _ _ induction =>
    refine List.forall_mem_cons.mpr ⟨⟨?_, List.forall_mem_map.mpr full⟩, induction⟩
    exact mt List.map_eq_nil_iff.mp some

/-- Paragraphs are what lies between blank lines, as far as there is something. -/
theorem paragraphs_eq_splitOnP (lines : List Text) :
    paragraphs lines = ((lines.map trim).splitOnP (· = [])).filter (· ≠ []) := by
  induction lines with
  | nil => rfl
  | cons line rest induction =>
    rw [List.map_cons, List.splitOnP_cons_eq_if_modifyHead]
    by_cases blank : trim line = []
    · simp [paragraphs_cons_blank, blank, induction]
    · cases rest with
      | nil => simp [paragraphs, blank]
      | cons next after =>
        rw [List.map_cons, List.splitOnP_cons_eq_if_modifyHead] at induction ⊢
        -- The part in front is empty only where the next line is a gap.
        by_cases gap : trim next = []
        · rw [paragraphs_cons_last blank (by simpa using gap), induction]
          simp [blank, gap]
        · rcases List.exists_cons_of_ne_nil (List.splitOnP_ne_nil (· = []) (after.map trim)) with
            ⟨part, parts, split⟩
          have others : paragraphs (next :: after) =
              (trim next :: part) :: parts.filter (· ≠ []) := by simp [induction, gap, split]
          rw [paragraphs_cons_cons blank gap others]
          simp [blank, gap, split]

namespace Segment

/-! ## Segments of a paragraph -/

theorem ofProse_ne_nil {prose : Text} (full : prose ≠ []) : ofProse prose ≠ [] := by
  intro none
  rw [ofProse_eq_map, List.map_eq_nil_iff] at none
  have written := flatMap_written_ofProse prose
  rw [none] at written
  exact full written.symm

theorem paragraphBreak_not_mem_ofProse (prose : Text) : paragraphBreak ∉ ofProse prose :=
  fun member => content_ne_nil_of_mem_ofProse _ member rfl

theorem ofParagraph_ne_nil {lines part : List Text} (member : part ∈ paragraphs lines) :
    ofParagraph part ≠ [] := by
  rcases (fallsInto_iff.mpr rfl).full part member with ⟨some, full⟩
  exact ofProse_ne_nil (Text.unwords_ne_nil some full)

theorem reading_eq_content {segment : Segment} (noBreak : segment ≠ paragraphBreak) :
    segment.reading = segment.content := by
  cases segment with
  | paragraphBreak => exact absurd rfl noBreak
  | _ => rfl

theorem flatMap_reading_ofProse (prose : Text) :
    (ofProse prose).flatMap reading = (ofProse prose).flatMap content := by
  apply List.flatMap_congr
  intro segment member
  apply reading_eq_content
  rintro rfl
  exact paragraphBreak_not_mem_ofProse prose member

/-! ## Segments of several paragraphs -/

theorem foldl_addParagraph {segments : List Segment} (some : segments ≠ [])
    (parts : List (List Text)) :
    parts.foldl addParagraph segments =
      [paragraphBreak].intercalate (segments :: parts.map ofParagraph) := by
  induction parts generalizing segments with
  | nil => simp
  | cons part rest induction =>
    have more : addParagraph segments part = segments ++ [paragraphBreak] ++ ofParagraph part := by
      rw [addParagraph, if_neg some]
    rw [List.foldl_cons, induction (by simp [more]), more, List.map_cons]
    cases rest <;> simp

theorem ofLines_eq_intercalate (lines : List Text) :
    ofLines lines = [paragraphBreak].intercalate ((paragraphs lines).map ofParagraph) := by
  rw [ofLines, ofParagraphs]
  cases parts : paragraphs lines with
  | nil => rfl
  | cons part rest =>
    have first : addParagraph [] part = ofParagraph part := by rw [addParagraph, if_pos rfl]; rfl
    have some : ofParagraph part ≠ [] := ofParagraph_ne_nil (parts ▸ List.mem_cons_self)
    rw [List.foldl_cons, first, foldl_addParagraph some, List.map_cons]

theorem splitOn_ofLines {lines : List Text} (some : paragraphs lines ≠ []) :
    (ofLines lines).splitOn paragraphBreak = (paragraphs lines).map ofParagraph := by
  rw [ofLines_eq_intercalate]
  apply List.splitOn_intercalate
  · exact List.forall_mem_map.mpr fun part _ => paragraphBreak_not_mem_ofProse _
  · exact mt List.map_eq_nil_iff.mp some

theorem plainText_ofLines (lines : List Text) :
    plainText (ofLines lines) = trim (['\n', '\n'].intercalate
      ((paragraphs lines).map fun part => (ofParagraph part).flatMap content)) := by
  rw [plainText, ofLines_eq_intercalate, flatMap_intercalate, List.map_map]
  simp only [Function.comp_def, ofParagraph, flatMap_reading_ofProse]
  rfl

theorem nil_not_mem_splitOn_ofLines {lines : List Text} (some : paragraphs lines ≠ []) :
    [] ∉ (ofLines lines).splitOn paragraphBreak := by
  rw [splitOn_ofLines some, List.mem_map]
  rintro ⟨part, member, nothing⟩
  exact ofParagraph_ne_nil member nothing

theorem ofLines_eq_nil {lines : List Text} : ofLines lines = [] ↔ paragraphs lines = [] := by
  constructor
  · intro nothing
    by_contra some
    apply nil_not_mem_splitOn_ofLines some
    simp [nothing]
  · intro none
    rw [ofLines, none]
    rfl

theorem head?_ofLines_ne (lines : List Text) : (ofLines lines).head? ≠ some paragraphBreak := by
  intro first
  rcases List.head?_eq_some_iff.mp first with ⟨rest, begins⟩
  have some : paragraphs lines ≠ [] := mt ofLines_eq_nil.mpr (by simp [begins])
  apply nil_not_mem_splitOn_ofLines some
  simp [begins, List.splitOn_cons_eq_if_modifyHead]

theorem getLast?_ofLines_ne (lines : List Text) :
    (ofLines lines).getLast? ≠ some paragraphBreak := by
  intro last
  rcases List.getLast?_eq_some_iff.mp last with ⟨before, ends⟩
  have some : paragraphs lines ≠ [] := mt ofLines_eq_nil.mpr (by simp [ends])
  apply nil_not_mem_splitOn_ofLines some
  simp [ends, List.splitOn_append_cons_self]

/-- The segments of some lines are those of their paragraphs, with one break between two. So
cutting them at the breaks gives the paragraphs back, and in plain text these are a blank line
apart. -/
theorem breaks_part_paragraphs (lines : List Text) :
    ∃ parts, (∀ others, FallsInto lines others ↔ others = parts) ∧
      let bodies := parts.map fun part => ofProse (Text.unwords part)
      ofLines lines = [paragraphBreak].intercalate bodies ∧
      (ofLines lines).head? ≠ some paragraphBreak ∧
      (ofLines lines).getLast? ≠ some paragraphBreak ∧
      (∀ body ∈ bodies, body ≠ []) ∧
      (∀ prose, paragraphBreak ∉ ofProse prose) ∧
      (bodies = [] ∧ ofLines lines = [] ∨ (ofLines lines).splitOn paragraphBreak = bodies) ∧
      plainText (ofLines lines) =
        trim (['\n', '\n'].intercalate (bodies.map (·.flatMap content))) := by
  refine ⟨paragraphs lines, fun others => fallsInto_iff, ofLines_eq_intercalate lines,
    head?_ofLines_ne lines, getLast?_ofLines_ne lines, ?_, paragraphBreak_not_mem_ofProse, ?_, ?_⟩
  · exact List.forall_mem_map.mpr fun part member => ofParagraph_ne_nil member
  · by_cases none : paragraphs lines = []
    · exact .inl ⟨List.map_eq_nil_iff.mpr none, ofLines_eq_nil.mpr none⟩
    · exact .inr (splitOn_ofLines none)
  · rw [plainText_ofLines, List.map_map]
    rfl

end Segment

end DocAtlas
