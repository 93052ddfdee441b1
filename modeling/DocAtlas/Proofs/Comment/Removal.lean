import DocAtlas.Proofs.Comment.Decoration

/-!
# What a layout removes

The lines of a comment behind the first are decorated or not, all of them alike. Without their
stars, if they are decorated, they have one margin. Main statement: what is shown of a line
stands behind that margin, with nothing but blanks behind it. So the lines keep their indentation
to one another, and they lose blanks only, and one star at most.
-/

namespace DocAtlas.Comment

open Text (isBlank isIndent indentOf trim trimStart trimEnd dedent margin IsMargin)

/-! ## Stars -/

/-- Some of the lines say more than a star, and a star that ends no comment begins all these. -/
structure Decorated (lines : List Text) : Prop where
  some : ∃ line ∈ lines, trim line ≠ [] ∧ trim line ≠ ['*']
  all : ∀ line ∈ lines, trim line ≠ [] → trim line ≠ ['*'] →
    ['*'] <+: trimStart line ∧ ¬Lexeme.closing <+: trimStart line

theorem isSome_dropStar?_iff {line : Text} :
    (dropStar? line).isSome = true ↔
      ['*'] <+: trimStart line ∧ ¬Lexeme.closing <+: trimStart line := by
  by_cases star : ['*'] <+: trimStart line
  · rcases star with ⟨rest, begins⟩
    rw [dropStar?_of_star begins.symm, ← begins]
    cases rest with
    | nil => decide
    | cons c rest => by_cases slash : c = '/' <;> simp [Lexeme.closing, slash, eq_comm]
  · simp [dropStar?_eq_none star, star]

theorem saysSomething_iff {line : Text} :
    saysSomething line = true ↔ trim line ≠ [] ∧ trim line ≠ ['*'] := by
  simp [saysSomething]

theorem isDecorated_iff {lines : List Text} : isDecorated lines = true ↔ Decorated lines := by
  rw [isDecorated, Bool.and_eq_true, List.any_eq_true, List.all_eq_true]
  simp only [List.mem_filter, saysSomething_iff, isSome_dropStar?_iff]
  constructor
  · rintro ⟨some, all⟩
    exact ⟨some, fun line member full notStar => all line ⟨member, full, notStar⟩⟩
  · rintro ⟨some, all⟩
    refine ⟨some, ?_⟩
    rintro line ⟨member, full, notStar⟩
    exact all line member full notStar

/-- A line and what is left of it without its star, given whether it is one of decorated lines.
With the star go the blanks in front of it and one space behind it. -/
inductive Unstarred : Bool → Text → Text → Prop
  | plain {line : Text} : Unstarred false line line
  | starless {line : Text} : ¬['*'] <+: trimStart line → Unstarred true line line
  | star {blanks bare : Text} : (∀ c ∈ blanks, isBlank c = true) → bare.head? ≠ some ' ' →
      Unstarred true (blanks ++ '*' :: bare) bare
  | starSpace {blanks bare : Text} : (∀ c ∈ blanks, isBlank c = true) →
      Unstarred true (blanks ++ '*' :: ' ' :: bare) bare

theorem Decorated.not_closing {lines : List Text} (decorated : Decorated lines) {line : Text}
    (member : line ∈ lines) : ¬Lexeme.closing <+: trimStart line := by
  intro closing
  rcases closing with ⟨rest, begins⟩
  have whole : trim line = '*' :: '/' :: trimEnd rest := by
    rw [trim, ← begins]
    exact Text.trimEnd_append_cons (by decide) ['*'] rest
  exact (decorated.all line member (by simp [whole]) (by simp [whole])).2 ⟨rest, begins⟩

theorem unstarred_of_decorated {lines : List Text} (decorated : Decorated lines) {line : Text}
    (member : line ∈ lines) : Unstarred true line ((dropStar? line).getD line) := by
  by_cases star : ['*'] <+: trimStart line
  · rcases star with ⟨rest, begins⟩
    have starts : trimStart line = '*' :: rest := begins.symm
    have noSlash : rest.head? ≠ some '/' := by
      intro slash
      rcases List.head?_eq_some_iff.mp slash with ⟨more, rfl⟩
      exact decorated.not_closing member ⟨more, begins⟩
    have parts : line = line.takeWhile isBlank ++ '*' :: rest := by
      rw [← starts]
      exact List.takeWhile_append_dropWhile.symm
    have blank : ∀ c ∈ line.takeWhile isBlank, isBlank c = true := fun c => List.mem_takeWhile_imp
    rw [dropStar?_of_star starts, if_neg noSlash, Option.getD_some, parts]
    split
    · next space =>
      rcases List.head?_eq_some_iff.mp space with ⟨bare, rfl⟩
      exact .starSpace blank
    · next noSpace => exact .star blank noSpace
  · rw [dropStar?_eq_none star]
    exact .starless star

theorem unstarred_undecorate (lines : List Text) :
    List.Forall₂ (Unstarred (isDecorated lines)) lines (undecorate lines) := by
  unfold undecorate
  cases decorated : isDecorated lines with
  | false => exact List.forall₂_same.mpr fun line _ => .plain
  | true =>
    rw [if_pos rfl, List.forall₂_map_right_iff, List.forall₂_same]
    exact fun line member => unstarred_of_decorated (isDecorated_iff.mp decorated) member

/-! ## Margins -/

/-- What is shown of a line without its star: what stands behind an indentation, up to the blanks
at the end, and nothing of spaces and tabs alone. -/
inductive ShownBehind (indent : Text) : Text → Text → Prop
  | nothing {bare : Text} : (∀ c ∈ bare, isIndent c = true) → ShownBehind indent bare []
  | behind {shown blanks : Text} : (∃ c ∈ indent ++ (shown ++ blanks), isIndent c = false) →
      (∀ c ∈ blanks, isBlank c = true) → trimEnd shown = shown →
      ShownBehind indent (indent ++ (shown ++ blanks)) shown

theorem shownBehind_dedent (lines : List Text) :
    List.Forall₂ (ShownBehind (margin lines)) lines ((dedent lines).map trimEnd) := by
  rw [dedent, List.map_map, List.forall₂_map_right_iff, List.forall₂_same]
  intro line member
  rw [Function.comp_apply]
  cases blank : line.all isIndent with
  | true => exact .nothing (List.all_eq_true.mp blank)
  | false =>
    rcases (Text.isMargin_margin lines).common line member blank with ⟨rest, parts⟩
    rcases Text.exists_blanks_behind rest with ⟨blanks, ends, allBlank⟩
    have full : ∃ c ∈ line, isIndent c = false := by simpa using blank
    have shown : trimEnd (line.drop (margin lines).length) = trimEnd rest := by
      rw [← parts, List.drop_left]
    rw [if_neg Bool.false_ne_true, shown]
    rw [← parts, ← ends] at full ⊢
    rw [Text.trimEnd_append_blanks allBlank, Text.trimEnd_trimEnd]
    exact .behind full allBlank (Text.trimEnd_trimEnd rest)

theorem ShownBehind.indentOf_eq {indent bare shown : Text}
    (blank : ∀ c ∈ indent, isIndent c = true) (behind : ShownBehind indent bare shown)
    (full : shown ≠ []) : indentOf bare = indent ++ indentOf shown := by
  cases behind with
  | nothing _ => exact absurd rfl full
  | @behind _ blanks _ _ flush =>
    have solid : (shown.takeWhile isIndent).length ≠ shown.length := by
      intro whole
      have same := (List.takeWhile_prefix isIndent).eq_of_length whole
      have all := List.takeWhile_eq_self_iff.mp same
      have last := Text.last_not_blank flush _ (List.getLast?_eq_some_getLast full)
      rw [Text.isBlank_of_isIndent (all _ (List.getLast_mem full))] at last
      cases last
    rw [indentOf, List.takeWhile_append_of_pos blank, List.takeWhile_append, if_neg solid, indentOf]

/-! ## What is lost -/

/-- Around what is shown of a line there are only blanks in it, and one star in front at most. -/
def LosesLayout (line shown : Text) : Prop :=
  ∃ before star gap behind, line = before ++ (star ++ (gap ++ (shown ++ behind))) ∧
    (star = [] ∨ star = ['*']) ∧ ∀ c ∈ before ++ (gap ++ behind), isBlank c = true

theorem losesLayout_trim (line : Text) : LosesLayout line (trim line) := by
  rcases Text.exists_blanks_around line with ⟨before, after, parts, blank⟩
  exact ⟨before, [], [], after, by simp [← List.append_assoc, parts], .inl rfl, blank⟩

theorem Unstarred.exists_front {decorated : Bool} {line bare : Text}
    (unstarred : Unstarred decorated line bare) :
    ∃ before star gap, line = before ++ (star ++ (gap ++ bare)) ∧ (star = [] ∨ star = ['*']) ∧
      ∀ c ∈ before ++ gap, isBlank c = true := by
  cases unstarred with
  | plain | starless _ => exact ⟨[], [], [], rfl, .inl rfl, List.forall_mem_nil _⟩
  | @star blanks _ blank _ =>
    exact ⟨blanks, ['*'], [], rfl, .inr rfl, by rwa [List.append_nil]⟩
  | @starSpace blanks _ blank =>
    refine ⟨blanks, ['*'], [' '], rfl, .inr rfl, ?_⟩
    exact List.forall_mem_append.mpr ⟨blank, List.forall_mem_singleton.mpr rfl⟩

theorem ShownBehind.exists_blanks_around {indent bare shown : Text}
    (blank : ∀ c ∈ indent, isIndent c = true) (behind : ShownBehind indent bare shown) :
    ∃ before after, bare = before ++ (shown ++ after) ∧
      ∀ c ∈ before ++ after, isBlank c = true := by
  cases behind with
  | nothing allBlank =>
    refine ⟨bare, [], by rw [List.append_nil, List.append_nil], ?_⟩
    rw [List.append_nil]
    exact fun c member => Text.isBlank_of_isIndent (allBlank c member)
  | behind _ blanks _ =>
    refine ⟨indent, _, rfl, List.forall_mem_append.mpr ⟨fun c member => ?_, blanks⟩⟩
    exact Text.isBlank_of_isIndent (blank c member)

theorem losesLayout_of_unstarred {decorated : Bool} {indent line bare shown : Text}
    (blank : ∀ c ∈ indent, isIndent c = true) (unstarred : Unstarred decorated line bare)
    (behind : ShownBehind indent bare shown) : LosesLayout line shown := by
  rcases unstarred.exists_front with ⟨before, star, gap, rfl, oneStar, front⟩
  rcases behind.exists_blanks_around blank with ⟨more, after, rfl, around⟩
  rw [List.forall_mem_append] at front around
  refine ⟨before, star, gap ++ more, after, by rw [List.append_assoc], oneStar, ?_⟩
  simp only [List.forall_mem_append]
  exact ⟨front.1, ⟨front.2, around.1⟩, around.2⟩

/-! ## The lines of a comment -/

/-- The lines behind the first are decorated or not, all alike, and without their stars they are
shown from their margin on, so that they keep their indentation to one another. A line loses
nothing but blanks, and one star at most. -/
theorem layout_removes_layout_only (body : Text) :
    ∃ first others decorated bare indent shown,
      Text.lines body = first :: others ∧ Text.lines (layout body) = trim first :: shown ∧
      (Text.lines (layout body)).length = (Text.lines body).length ∧
      (decorated = true ↔ Decorated others) ∧ List.Forall₂ (Unstarred decorated) others bare ∧
      IsMargin bare indent ∧ List.Forall₂ (ShownBehind indent) bare shown ∧
      (∀ one ∈ bare.zip shown, ∀ two ∈ bare.zip shown, one.2 = [] ∨ two.2 = [] ∨
        ∀ more, indentOf one.1 = indentOf two.1 ++ more ↔ indentOf one.2 = indentOf two.2 ++ more) ∧
      List.Forall₂ LosesLayout (Text.lines body) (Text.lines (layout body)) := by
  rcases List.exists_cons_of_ne_nil (Text.lines_ne_nil body) with ⟨first, others, lines⟩
  have laid : Text.lines (layout body) =
      trim first :: (dedent (undecorate others)).map trimEnd := by
    rw [lines_layout, lines, layoutLines]
  have unstarred := unstarred_undecorate others
  have isMargin := Text.isMargin_margin (undecorate others)
  have behind := shownBehind_dedent (undecorate others)
  have loses : List.Forall₂ LosesLayout (Text.lines body) (Text.lines (layout body)) := by
    rw [lines, laid]
    refine .cons (losesLayout_trim first) (forall₂_trans unstarred behind ?_)
    exact fun _ _ _ unstarred behind => losesLayout_of_unstarred isMargin.blank unstarred behind
  refine ⟨first, others, isDecorated others, undecorate others, margin (undecorate others), _,
    lines, laid, loses.length_eq.symm, isDecorated_iff, unstarred, isMargin, behind, ?_, loses⟩
  rintro ⟨one, oneShown⟩ inOne ⟨two, twoShown⟩ inTwo
  by_cases oneFull : oneShown = []
  · exact .inl oneFull
  by_cases twoFull : twoShown = []
  · exact .inr (.inl twoFull)
  refine .inr (.inr fun more => ?_)
  rw [(List.forall₂_zip behind inOne).indentOf_eq isMargin.blank oneFull,
    (List.forall₂_zip behind inTwo).indentOf_eq isMargin.blank twoFull, List.append_assoc,
    List.append_cancel_left_eq]

end DocAtlas.Comment
