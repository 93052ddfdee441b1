import DocAtlas.Proofs.Comment.Decoration

/-!
# Blanks at the ends of lines

Blanks behind the lines of a comment leave no more than a common indentation in its text: a
line of blanks that counts as empty without them may count as indented with them, and then
all lines keep more of their indentation. Carriage returns in front of the newlines are such
blanks.
-/

namespace DocAtlas

namespace Text

def BlanksBehind (line written : Text) : Prop :=
  ∃ blanks, written = line ++ blanks ∧ ∀ c ∈ blanks, isBlank c = true

theorem BlanksBehind.trim_eq {line written : Text} (behind : BlanksBehind line written) :
    trim written = trim line := by
  rcases behind with ⟨blanks, rfl, blank⟩
  exact trim_append_blanks blank line

/-! ## Carriage returns -/

def withReturns (text : Text) : Text :=
  text.flatMap fun c => if c = newline then ['\r', newline] else [c]

theorem withReturns_newline (rest : Text) :
    withReturns (newline :: rest) = '\r' :: newline :: withReturns rest := rfl

theorem withReturns_cons {c : Char} (other : c ≠ newline) (rest : Text) :
    withReturns (c :: rest) = c :: withReturns rest := by
  rw [withReturns, List.flatMap_cons, if_neg other]
  rfl

theorem lines_withReturns (text : Text) :
    List.Forall₂ BlanksBehind (lines text) (lines (withReturns text)) := by
  induction text with
  | nil => exact .cons ⟨[], rfl, by simp⟩ .nil
  | cons c rest induction =>
    by_cases equal : c = newline
    · subst equal
      have returned : newline ≠ '\r' := by decide
      rw [withReturns_newline, lines_cons, if_pos rfl, lines_cons, if_neg returned.symm,
        lines_cons, if_pos rfl, List.modifyHead_cons]
      exact .cons ⟨['\r'], rfl, List.forall_mem_singleton.mpr rfl⟩ induction
    · rw [withReturns_cons equal, lines_cons, if_neg equal, lines_cons, if_neg equal]
      cases found : lines rest with
      | nil => exact absurd found (lines_ne_nil rest)
      | cons first others =>
        rw [found] at induction
        cases written : lines (withReturns rest) with
        | nil => exact absurd written (lines_ne_nil _)
        | cons firstWritten othersWritten =>
          rw [written, List.forall₂_cons] at induction
          rcases induction with ⟨⟨blanks, rfl, blank⟩, more⟩
          exact .cons ⟨blanks, rfl, blank⟩ more

theorem prefix_of_withReturns {start text : Text} (inside : newline ∉ start)
    (noReturn : '\r' ∉ start) (begins : start <+: withReturns text) : start <+: text := by
  induction text generalizing start with
  | nil => exact begins
  | cons c rest induction =>
    cases start with
    | nil => exact List.nil_prefix
    | cons d start =>
      rw [List.mem_cons, not_or] at inside noReturn
      by_cases equal : c = newline
      · rw [equal, withReturns_newline, List.cons_prefix_cons] at begins
        exact absurd begins.1.symm noReturn.1
      · rw [withReturns_cons equal, List.cons_prefix_cons] at begins
        exact List.cons_prefix_cons.mpr ⟨begins.1, induction inside.2 noReturn.2 begins.2⟩

theorem closing_of_withReturns {text : Text} (found : Lexeme.closing <:+: withReturns text) :
    Lexeme.closing <:+: text := by
  induction text with
  | nil => exact found
  | cons c rest induction =>
    by_cases equal : c = newline
    · rw [equal, withReturns_newline, List.infix_cons_iff, List.infix_cons_iff] at found
      rcases found with begins | begins | inRest
      · exact absurd (List.cons_prefix_cons.mp begins).1 (by decide)
      · exact absurd (List.cons_prefix_cons.mp begins).1 (by decide)
      · exact List.infix_cons (induction inRest)
    · rw [withReturns_cons equal, List.infix_cons_iff] at found
      rcases found with begins | inRest
      · rw [← withReturns_cons equal] at begins
        exact (prefix_of_withReturns (by decide) (by decide) begins).isInfix
      · exact List.infix_cons (induction inRest)

/-! ## Margins -/

theorem indentedBy_drop {front indent line written : Text} {width : Nat}
    (blank : ∀ c ∈ indent, isIndent c = true) (behind : BlanksBehind line written)
    (begins : line.all isIndent = false →
      ∃ rest, line = front ++ (indent ++ rest) ∧ line.drop width = rest) :
    IndentedBy indent (trimEnd (if line.all isIndent then [] else line.drop width))
      (trimEnd (if written.all isIndent then [] else written.drop front.length)) := by
  rcases behind with ⟨blanks, rfl, blanksBlank⟩
  cases full : line.all isIndent with
  | true =>
    have lineBlank : ∀ c ∈ line ++ blanks, isBlank c = true := by
      refine List.forall_mem_append.mpr ⟨fun c member => ?_, blanksBlank⟩
      exact isBlank_of_isIndent (List.all_eq_true.mp full c member)
    refine .inr ⟨rfl, trimEnd_of_blank ?_⟩
    split
    · exact List.forall_mem_nil _
    · exact fun c member => lineBlank c (List.mem_of_mem_drop member)
  | false =>
    rcases begins full with ⟨rest, whole, left⟩
    have indentBlank : ∀ c ∈ indent, isBlank c = true := fun c member =>
      isBlank_of_isIndent (blank c member)
    have notBlank : (line ++ blanks).all isIndent = false := by
      rw [List.all_append, full, Bool.false_and]
    rw [notBlank, if_neg Bool.false_ne_true, if_neg Bool.false_ne_true, left, whole,
      List.append_assoc, List.drop_left, trimEnd_append_blanks blanksBlank, trimEnd_append_eq]
    split
    · next nothing => exact .inr ⟨nothing, trimEnd_of_blank indentBlank⟩
    · exact .inl rfl

theorem exists_indentedBy_dedent {lines others : List Text}
    (behind : List.Forall₂ BlanksBehind lines others) :
    ∃ indent, (∀ c ∈ indent, isIndent c = true) ∧
      List.Forall₂ (IndentedBy indent) ((dedent lines).map trimEnd)
        ((dedent others).map trimEnd) := by
  have reduce {indent : Text} (blank : ∀ c ∈ indent, isIndent c = true)
      (begins : ∀ line ∈ lines, line.all isIndent = false →
        ∃ rest, line = margin others ++ (indent ++ rest) ∧
          line.drop (margin lines).length = rest) :
      List.Forall₂ (IndentedBy indent) ((dedent lines).map trimEnd)
        ((dedent others).map trimEnd) := by
    rw [dedent, dedent, List.map_map, List.map_map, List.forall₂_map_left_iff,
      List.forall₂_map_right_iff]
    exact forall₂_of_mem behind fun line member _ _ behind =>
      indentedBy_drop blank behind (begins line member)
  -- Spaces and tabs alone have no say in the margin; other blanks behind them give them one.
  by_cases some : ∃ line ∈ lines, line.all isIndent = false
  · have shorter : margin others <+: margin lines := by
      have isMargin := isMargin_margin others
      refine (prefix_margin some).mpr ⟨isMargin.blank, fun line member full => ?_⟩
      rcases exists_right_of_forall₂ behind member with ⟨_, inOthers, blanks, rfl, _⟩
      have begins : margin others <+: line ++ blanks :=
        isMargin.common _ inOthers (by rw [List.all_append, full, Bool.false_and])
      refine (List.prefix_or_prefix_of_prefix begins (List.prefix_append line blanks)).resolve_right
        fun inside => ?_
      have blank : line.all isIndent = true :=
        List.all_eq_true.mpr fun c member => isMargin.blank c (inside.subset member)
      rw [blank] at full
      cases full
    rcases shorter with ⟨indent, whole⟩
    have isMargin := isMargin_margin lines
    rw [← whole] at isMargin
    have blank : ∀ c ∈ indent, isIndent c = true :=
      (List.forall_mem_append.mp isMargin.blank).2
    refine ⟨indent, blank, reduce blank fun line member full => ?_⟩
    rcases isMargin.common line member full with ⟨rest, parts⟩
    refine ⟨rest, by rw [← parts, List.append_assoc], ?_⟩
    rw [← whole, ← parts, List.drop_left]
  · have noIndent : ∀ c ∈ [], isIndent c = true := List.forall_mem_nil _
    refine ⟨[], noIndent, reduce noIndent fun line member full => ?_⟩
    exact absurd ⟨line, member, full⟩ some

end Text

namespace Comment

open Text (newline isBlank isIndent trim trimStart trimEnd dedent BlanksBehind IndentedBy)

/-! ## Decoration -/

/-- A line without its star, and the same line with blanks behind it: the one space that is
dropped behind a lone star is then one of the blanks. -/
theorem dropStar?_blanksBehind {line written : Text} (behind : BlanksBehind line written) :
    Option.Rel BlanksBehind (dropStar? line) (dropStar? written) := by
  rcases behind with ⟨blanks, rfl, blank⟩
  have start := Text.trimStart_append_blanks blank line
  by_cases starless : ¬['*'] <+: trimStart line
  · have alsoStarless : ¬['*'] <+: trimStart (line ++ blanks) := by
      rw [start]
      split
      · decide
      · next full =>
        rcases List.exists_cons_of_ne_nil full with ⟨c, rest, parts⟩
        rw [parts] at starless ⊢
        simpa using starless
    rw [dropStar?_eq_none starless, dropStar?_eq_none alsoStarless]
    exact .none
  · rcases not_not.mp starless with ⟨rest, parts⟩
    have star : trimStart line = '*' :: rest := parts.symm
    have alsoStar : trimStart (line ++ blanks) = '*' :: (rest ++ blanks) := by
      rw [start, star, if_neg (List.cons_ne_nil _ _), List.cons_append]
    rw [dropStar?_of_star star, dropStar?_of_star alsoStar]
    -- Behind a lone star the first of the blanks can be the space that goes with it.
    cases rest with
    | nil =>
      have noSlash : blanks.head? ≠ some '/' := fun first =>
        absurd (blank '/' (List.mem_of_mem_head? first)) (by decide)
      rw [List.nil_append, if_neg noSlash]
      by_cases space : blanks.head? = some ' '
      · rw [if_pos space]
        exact .some ⟨_, rfl, fun c member => blank c (List.mem_of_mem_tail member)⟩
      · rw [if_neg space]
        exact .some ⟨_, rfl, blank⟩
    | cons c rest =>
      rw [List.cons_append, List.head?_cons, List.head?_cons]
      by_cases slash : some c = some '/'
      · rw [if_pos slash, if_pos slash]
        exact .none
      · rw [if_neg slash, if_neg slash]
        refine .some ⟨blanks, ?_, blank⟩
        split <;> rfl

theorem isSome_dropStar?_blanksBehind {line written : Text} (behind : BlanksBehind line written) :
    (dropStar? line).isSome = (dropStar? written).isSome := by
  have stars := dropStar?_blanksBehind behind
  generalize dropStar? line = left at stars ⊢
  generalize dropStar? written = right at stars ⊢
  cases stars <;> rfl

theorem saysSomething_blanksBehind {line written : Text} (behind : BlanksBehind line written) :
    saysSomething written = saysSomething line := by
  rw [saysSomething, behind.trim_eq, saysSomething]

theorem isDecorated_blanksBehind {lines others : List Text}
    (behind : List.Forall₂ BlanksBehind lines others) : isDecorated others = isDecorated lines := by
  have speaks : lines.map saysSomething = others.map saysSomething :=
    map_eq_of_forall₂ behind fun _ _ _ own => (saysSomething_blanksBehind own).symm
  have starred : lines.map (fun line => !saysSomething line || (dropStar? line).isSome) =
      others.map fun line => !saysSomething line || (dropStar? line).isSome := by
    refine map_eq_of_forall₂ behind fun line _ written own => ?_
    rw [saysSomething_blanksBehind own, isSome_dropStar?_blanksBehind own]
  have anySpeaks := congrArg (List.any · id) speaks
  have allStarred := congrArg (List.all · id) starred
  simp only [List.any_map, List.all_map, Function.id_comp] at anySpeaks allStarred
  rw [isDecorated, isDecorated, List.all_filter, List.all_filter, anySpeaks, allStarred]

theorem undecorate_blanksBehind {lines others : List Text}
    (behind : List.Forall₂ BlanksBehind lines others) :
    List.Forall₂ BlanksBehind (undecorate lines) (undecorate others) := by
  rw [undecorate, undecorate, isDecorated_blanksBehind behind]
  split
  · rw [List.forall₂_map_left_iff, List.forall₂_map_right_iff]
    refine behind.imp fun line written own => ?_
    have stars := dropStar?_blanksBehind own
    generalize dropStar? line = left at stars ⊢
    generalize dropStar? written = right at stars ⊢
    cases stars with
    | none => exact own
    | some rest => exact rest
  · exact behind

/-- With blanks behind its lines, a comment has the same first line, and the others behind one
more indentation. -/
theorem layoutLines_blanksBehind {lines others : List Text}
    (behind : List.Forall₂ BlanksBehind lines others) (some : lines ≠ []) :
    ∃ indent first shown written, layoutLines lines = first :: shown ∧
      layoutLines others = first :: written ∧ (∀ c ∈ indent, isIndent c = true) ∧
      List.Forall₂ (IndentedBy indent) shown written ∧ ∀ line ∈ shown, trimEnd line = line := by
  cases behind with
  | nil => exact absurd rfl some
  | @cons first other lines others head tail =>
    rcases Text.exists_indentedBy_dedent (undecorate_blanksBehind tail) with
      ⟨indent, blank, indented⟩
    refine ⟨indent, trim first, _, _, rfl, ?_, blank, indented, ?_⟩
    · rw [layoutLines, head.trim_eq]
    · exact List.forall_mem_map.mpr fun line _ => Text.trimEnd_trimEnd line

end Comment

end DocAtlas
