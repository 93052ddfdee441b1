import DocAtlas.Proofs.Lists
import DocAtlas.Text.Blank
import Mathlib.Data.List.DropRight
import Mathlib.Data.List.TakeWhile

/-!
# Trimmed texts

Trimming drops the blank characters at both ends of a text. Words that are trimmed and not
empty stay so when they are joined, and an empty word in front of them adds only a blank.
-/

namespace DocAtlas.Text

theorem dropEndWhile_eq_rdropWhile (test : Char → Bool) (text : Text) :
    dropEndWhile test text = text.rdropWhile test := by
  induction text with
  | nil => rfl
  | cons c rest induction =>
    rw [List.rdropWhile, List.reverse_cons, List.dropWhile_append, dropEndWhile, induction,
      List.rdropWhile]
    cases rest.reverse.dropWhile test with
    | nil => by_cases dropped : test c = true <;> simp [dropped]
    | cons last kept => simp

structure Trimmed (text : Text) : Prop where
  start : ∀ c ∈ text.head?, isBlank c = false
  finish : ∀ c ∈ text.getLast?, isBlank c = false

theorem trimmed_nil : Trimmed [] := ⟨by simp, by simp⟩

theorem trimStart_eq_self {text : Text} (start : ∀ c ∈ text.head?, isBlank c = false) :
    trimStart text = text := by
  cases text with
  | nil => rfl
  | cons c rest => exact List.dropWhile_cons_of_neg (by simp [start c rfl])

theorem trimEnd_eq_self {text : Text} (finish : ∀ c ∈ text.getLast?, isBlank c = false) :
    trimEnd text = text := by
  rw [trimEnd, dropEndWhile_eq_rdropWhile, List.rdropWhile_eq_self_iff]
  intro nonempty
  simp [finish _ (List.getLast?_eq_some_getLast nonempty)]

theorem Trimmed.trim_eq {text : Text} (trimmed : Trimmed text) : trim text = text := by
  rw [trim, trimStart_eq_self trimmed.start, trimEnd_eq_self trimmed.finish]

theorem trimmed_trim (text : Text) : Trimmed (trim text) := by
  rw [trim, trimEnd, dropEndWhile_eq_rdropWhile]
  constructor
  · intro c first
    rcases List.rdropWhile_prefix isBlank (l := trimStart text) with ⟨blanks, parts⟩
    have begins : (trimStart text).head? = some c := by
      rw [← parts, List.head?_append, Option.mem_def.mp first, Option.some_or]
    have kept := List.head?_dropWhile_not isBlank text
    rw [trimStart] at begins
    simpa [begins] using kept
  · intro c last
    rcases List.mem_getLast?_eq_getLast last with ⟨nonempty, rfl⟩
    simpa using List.rdropWhile_last_not isBlank _ nonempty

theorem trim_trim (text : Text) : trim (trim text) = trim text := (trimmed_trim text).trim_eq

theorem trimEnd_isPrefix (text : Text) : trimEnd text <+: text := by
  rw [trimEnd, dropEndWhile_eq_rdropWhile]
  exact List.rdropWhile_prefix isBlank text

theorem trim_isInfix (text : Text) : trim text <:+: text :=
  (trimEnd_isPrefix _).isInfix.trans (List.dropWhile_suffix isBlank).isInfix

theorem exists_blanks_around (text : Text) :
    ∃ before after, before ++ trim text ++ after = text ∧
      ∀ c ∈ before ++ after, isBlank c = true := by
  have start := List.takeWhile_append_dropWhile (p := isBlank) (l := text)
  have finish := List.rdropWhile_append_rtakeWhile (p := isBlank) (l := trimStart text)
  refine ⟨text.takeWhile isBlank, (trimStart text).rtakeWhile isBlank, ?_, ?_⟩
  · rw [trim, trimEnd, dropEndWhile_eq_rdropWhile, List.append_assoc, finish, trimStart, start]
  · rw [List.forall_mem_append]
    exact ⟨fun c => List.mem_takeWhile_imp, fun c => List.mem_rtakeWhile_imp⟩

theorem trimmed_of_not_blank {text : Text} (solid : ∀ c ∈ text, isBlank c = false) :
    Trimmed text :=
  ⟨fun c first => solid c (List.mem_of_mem_head? first),
    fun c last => solid c (List.mem_of_mem_getLast? last)⟩

theorem trimEnd_append_blanks {blanks : Text} (blank : ∀ c ∈ blanks, isBlank c = true)
    (text : Text) : trimEnd (text ++ blanks) = trimEnd text := by
  have dropped : ∀ c ∈ blanks.reverse, isBlank c = true := fun c member =>
    blank c (List.mem_reverse.mp member)
  rw [trimEnd, trimEnd, dropEndWhile_eq_rdropWhile, dropEndWhile_eq_rdropWhile, List.rdropWhile,
    List.reverse_append, List.dropWhile_append_of_pos dropped, ← List.rdropWhile]

theorem trimStart_append_blanks {blanks : Text} (blank : ∀ c ∈ blanks, isBlank c = true)
    (text : Text) :
    trimStart (text ++ blanks) = if trimStart text = [] then [] else trimStart text ++ blanks := by
  rw [trimStart, List.dropWhile_append, List.dropWhile_eq_nil_iff.mpr blank, trimStart]
  simp only [List.isEmpty_iff]

theorem trim_append_blanks {blanks : Text} (blank : ∀ c ∈ blanks, isBlank c = true)
    (text : Text) : trim (text ++ blanks) = trim text := by
  rw [trim, trimStart_append_blanks blank, trim]
  split
  · next nothing => rw [nothing]
  · exact trimEnd_append_blanks blank _

theorem dropEndWhile_append_stop {test : Char → Bool} {text finish : Text}
    (inside : ∀ c ∈ finish, test c = true) (stops : ∀ c ∈ text.getLast?, test c = false) :
    dropEndWhile test (text ++ finish) = text := by
  rw [← List.head?_reverse] at stops
  have dropped : ∀ c ∈ finish.reverse, test c = true := fun c member =>
    inside c (List.mem_reverse.mp member)
  rw [dropEndWhile_eq_rdropWhile, List.rdropWhile, List.reverse_append,
    dropWhile_append_stop dropped stops, List.reverse_reverse]

theorem trim_between {before text after : Text} (around : ∀ c ∈ before ++ after, isBlank c = true)
    (trimmed : Trimmed text) (full : text ≠ []) : trim (before ++ text ++ after) = text := by
  rw [List.forall_mem_append] at around
  have start : trimStart (before ++ text ++ after) = text ++ after := by
    rw [List.append_assoc]
    apply dropWhile_append_stop around.1
    rw [List.head?_append_of_ne_nil _ full]
    exact trimmed.start
  rw [trim, start]
  exact dropEndWhile_append_stop around.2 trimmed.finish

theorem trimStart_append_cons {c : Char} (solid : isBlank c = false) (before after : Text) :
    trimStart (before ++ c :: after) = trimStart before ++ c :: after := by
  have kept : (c :: after).dropWhile isBlank = c :: after :=
    List.dropWhile_cons_of_neg (by simp [solid])
  unfold trimStart
  rw [List.dropWhile_append, kept]
  split
  · next empty => rw [List.isEmpty_iff.mp empty, List.nil_append]
  · rfl

theorem trimEnd_append_cons {c : Char} (solid : isBlank c = false) (before after : Text) :
    trimEnd (before ++ c :: after) = before ++ c :: trimEnd after := by
  have kept : trimEnd (c :: after) = c :: trimEnd after := by
    unfold trimEnd
    rw [dropEndWhile]
    split
    · next empty => rw [empty, solid]; rfl
    · rfl
  induction before with
  | nil => exact kept
  | cons d before induction =>
    unfold trimEnd at induction ⊢
    rw [List.cons_append, dropEndWhile, induction]
    cases before <;> rfl

theorem trim_append_cons {c : Char} (solid : isBlank c = false) (before after : Text) :
    trim (before ++ c :: after) = trimStart (before ++ c :: trimEnd after) := by
  rw [trim, trimStart_append_cons solid, trimEnd_append_cons solid, trimStart_append_cons solid]

/-! ## Texts with no blank at the end -/

theorem last_not_blank {text : Text} (flush : trimEnd text = text) :
    ∀ c ∈ text.getLast?, isBlank c = false := by
  rw [trimEnd, dropEndWhile_eq_rdropWhile, List.rdropWhile_eq_self_iff] at flush
  intro c last
  rcases List.mem_getLast?_eq_getLast last with ⟨nonempty, rfl⟩
  exact Bool.eq_false_iff.mpr (flush nonempty)

theorem trimEnd_append {text : Text} (flush : trimEnd text = text) (full : text ≠ [])
    (before : Text) : trimEnd (before ++ text) = before ++ text := by
  apply trimEnd_eq_self
  rw [List.getLast?_append_of_ne_nil before full]
  exact last_not_blank flush

theorem trimEnd_trimEnd (text : Text) : trimEnd (trimEnd text) = trimEnd text := by
  simp only [trimEnd, dropEndWhile_eq_rdropWhile, List.rdropWhile_idempotent]

theorem trimEnd_of_blank {text : Text} (blank : ∀ c ∈ text, isBlank c = true) :
    trimEnd text = [] := trimEnd_append_blanks blank []

theorem exists_blanks_behind (text : Text) :
    ∃ blanks, trimEnd text ++ blanks = text ∧ ∀ c ∈ blanks, isBlank c = true := by
  refine ⟨text.rtakeWhile isBlank, ?_, fun c => List.mem_rtakeWhile_imp⟩
  rw [trimEnd, dropEndWhile_eq_rdropWhile]
  exact List.rdropWhile_append_rtakeWhile

theorem trimEnd_append_eq (before text : Text) :
    trimEnd (before ++ text) =
      if trimEnd text = [] then trimEnd before else before ++ trimEnd text := by
  rcases exists_blanks_behind text with ⟨blanks, parts, blank⟩
  rw [← parts, ← List.append_assoc, trimEnd_append_blanks blank, trimEnd_append_blanks blank,
    trimEnd_trimEnd]
  split
  · next nothing => rw [nothing, List.append_nil]
  · next full => exact trimEnd_append (trimEnd_trimEnd text) full before

theorem trimStart_ne_nil {text : Text} (flush : trimEnd text = text) (full : text ≠ []) :
    trimStart text ≠ [] := by
  intro blank
  have last := last_not_blank flush _ (List.getLast?_eq_some_getLast full)
  rw [List.dropWhile_eq_nil_iff.mp blank _ (List.getLast_mem full)] at last
  cases last

theorem trim_eq_trimStart {text : Text} (flush : trimEnd text = text) :
    trim text = trimStart text := by
  by_cases empty : trimStart text = []
  · rw [trim, empty]
    rfl
  · apply trimEnd_eq_self
    rcases List.dropWhile_suffix isBlank (l := text) with ⟨blanks, parts⟩
    have sameEnd : text.getLast? = (trimStart text).getLast? := by
      rw [← List.getLast?_append_of_ne_nil blanks empty, trimStart, parts]
    rw [← sameEnd]
    exact last_not_blank flush

/-! ## Words -/

theorem unwords_cons {word : Text} {words : List Text} (more : words ≠ []) :
    unwords (word :: words) = word ++ ' ' :: unwords words := by
  cases words with
  | nil => exact absurd rfl more
  | cons next rest => simp [unwords, List.intercalate]

theorem Trimmed.append_blank {word text : Text} (before : Trimmed word) (nonempty : word ≠ [])
    (after : Trimmed text) (more : text ≠ []) : Trimmed (word ++ ' ' :: text) := by
  constructor
  · intro c first
    rw [List.head?_append_of_ne_nil _ nonempty] at first
    exact before.start c first
  · intro c last
    rw [List.getLast?_append_of_ne_nil _ (List.cons_ne_nil _ _), List.getLast?_cons_of_ne_nil more]
      at last
    exact after.finish c last

theorem unwords_ne_nil {words : List Text} (some : words ≠ [])
    (full : ∀ word ∈ words, word ≠ []) : unwords words ≠ [] := by
  rcases List.exists_cons_of_ne_nil some with ⟨word, rest, rfl⟩
  by_cases last : rest = []
  · subst last
    simpa [unwords] using full
  · rw [unwords_cons last]
    simp

theorem trimmed_unwords {words : List Text} (trimmed : ∀ word ∈ words, Trimmed word)
    (full : ∀ word ∈ words, word ≠ []) : Trimmed (unwords words) := by
  induction words with
  | nil => exact trimmed_nil
  | cons word rest induction =>
    rw [List.forall_mem_cons] at trimmed full
    by_cases last : rest = []
    · subst last
      simpa [unwords] using trimmed.1
    · rw [unwords_cons last]
      exact trimmed.1.append_blank full.1 (induction trimmed.2 full.2) (unwords_ne_nil last full.2)

theorem trim_unwords_cons {first : Text} {words : List Text} (start : Trimmed first)
    (trimmed : ∀ word ∈ words, Trimmed word) (full : ∀ word ∈ words, word ≠ []) :
    trim (unwords (first :: words)) = unwords ((first :: words).filter (· ≠ [])) := by
  have kept : words.filter (· ≠ []) = words :=
    List.filter_eq_self.mpr fun word member => by simp [full word member]
  by_cases empty : first = []
  · subst empty
    rw [List.filter_cons_of_neg (by simp), kept]
    by_cases last : words = []
    · subst last
      rfl
    · rw [unwords_cons last]
      exact (trimmed_unwords trimmed full).trim_eq
  · rw [List.filter_cons_of_pos (by simpa using empty), kept]
    apply Trimmed.trim_eq
    exact trimmed_unwords (List.forall_mem_cons.mpr ⟨start, trimmed⟩)
      (List.forall_mem_cons.mpr ⟨empty, full⟩)

end DocAtlas.Text
