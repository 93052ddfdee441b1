import DocAtlas.Proofs.Comment.Grammar
import DocAtlas.Proofs.Comment.Offset
import Mathlib.Data.List.Forall2

/-!
# Tilings of a source text

By the lexical grammar a text is one sequence of lexemes, from its beginning to its end
and without a gap, and there is no second one. The comments of a scan are the
documentation comments of that sequence, each at its offset and on its lines.
-/

namespace DocAtlas

namespace Lexeme

inductive Tiling (markers : List Text) : Text → List Lexeme → Prop
  | nil : Tiling markers [] []
  | cons {source rest : Text} {lexeme : Lexeme} {lexemes : List Lexeme} :
      Begins markers source lexeme rest → Tiling markers rest lexemes →
      Tiling markers source (lexeme :: lexemes)

def placed (before : Text) : List Lexeme → List (Text × Lexeme)
  | [] => []
  | lexeme :: rest => (before, lexeme) :: placed (before ++ lexeme.text) rest

def isDocumentation : Lexeme → Bool
  | documentation _ _ _ => true
  | _ => false

variable {given : List Text} {markers : Markers} {source : Text} {lexemes : List Lexeme}

theorem Tiling.flatMap_text (tiling : Tiling given source lexemes) :
    lexemes.flatMap text = source := by
  induction tiling with
  | nil => rfl
  | cons begins _ induction => rw [List.flatMap_cons, induction, begins.text_append]

theorem Begins.text_ne_nil {rest : Text} {lexeme : Lexeme}
    (begins : Begins given source lexeme rest) : lexeme.text ≠ [] := by
  cases begins with
  | documentation => simp [text, closing]
  | openDocumentation opens _ =>
    have nonempty := opens.nonempty
    rw [opens.fits] at nonempty
    simpa [text] using nonempty
  | ordinary _ reads _ => exact reads.text_ne_nil

theorem Begins.length_lt {rest : Text} {lexeme : Lexeme}
    (begins : Begins given source lexeme rest) : rest.length < source.length := by
  have nonempty : lexeme.text.length ≠ 0 := fun empty =>
    begins.text_ne_nil (List.length_eq_zero_iff.mp empty)
  have whole := congrArg List.length begins.text_append
  rw [List.length_append] at whole
  omega

theorem Tiling.length_le (tiling : Tiling given source lexemes) :
    lexemes.length ≤ source.length := by
  induction tiling with
  | nil => exact Nat.le_refl _
  | cons begins _ induction =>
    have shorter := begins.length_lt
    rw [List.length_cons]
    omega

theorem Tiling.unique (made : Markers.ofList? given = some markers)
    (tiling : Tiling given source lexemes) {others : List Lexeme}
    (other : Tiling given source others) : others = lexemes := by
  induction tiling generalizing others with
  | nil =>
    cases other with
    | nil => rfl
    | cons begins _ => exact absurd rfl begins.ne_nil
  | cons begins _ induction =>
    cases other with
    | nil => exact absurd rfl begins.ne_nil
    | cons otherBegins otherTiling =>
      have read := (next?_eq_some made).mpr begins
      have same := read.symm.trans ((next?_eq_some made).mpr otherBegins)
      simp only [Option.some.injEq, Prod.mk.injEq] at same
      rcases same with ⟨rfl, rfl⟩
      rw [induction otherTiling]

theorem next?_ne_none (markers : Markers) (c : Char) (rest : Text) :
    next? markers (c :: rest) ≠ none := by
  cases opened : markers.opening? (c :: rest) <;> simp [next?, opened]

-- By the length of the text, since every lexeme takes something off it.
theorem exists_tiling (made : Markers.ofList? given = some markers) (source : Text) :
    ∃ lexemes, Tiling given source lexemes := by
  cases source with
  | nil => exact ⟨[], .nil⟩
  | cons c tail =>
    rcases Option.ne_none_iff_exists'.mp (next?_ne_none markers c tail) with ⟨⟨lexeme, rest⟩, read⟩
    rcases exists_tiling made rest with ⟨lexemes, tiling⟩
    exact ⟨lexeme :: lexemes, .cons ((next?_eq_some made).mp read) tiling⟩
termination_by source.length
decreasing_by exact length_next? read

end Lexeme

namespace Comment

def lineOf (source : Text) (position : Nat) : Nat := 1 + newlines (source.take position)

/-- A comment is what a documentation comment of its file says, at its place. -/
structure Stands (path source : Text) (piece : Text × Lexeme) (comment : Comment) : Prop where
  lexeme : ∃ marker body, piece.2 = .documentation marker body comment.terminated ∧
    comment.text = layout body
  file : comment.span.file = Text.slashed path
  offset : comment.offset = piece.1.length
  startLine : comment.span.startLine = lineOf source comment.offset
  endLine : comment.span.endLine = lineOf source (comment.offset + piece.2.text.length - 1)

variable {given : List Text} {markers : Markers} {file path : Text}

theorem lineOf_append (before after : Text) (position : Nat) :
    lineOf (before ++ after) (before.length + position) =
      1 + newlines before + newlines (after.take position) := by
  rw [lineOf, List.take_length_add_append, newlines_append, Nat.add_assoc]

theorem ofLexeme?_stands {source before after : Text} {lexeme : Lexeme}
    (whole : source = before ++ (lexeme.text ++ after)) (nonempty : lexeme.text ≠ []) :
    List.Forall₂ (Stands path source) ([(before, lexeme)].filter (·.2.isDocumentation))
      (ofLexeme? markers (Text.slashed path) before.length (1 + newlines before) lexeme
        after).toList := by
  cases lexeme with
  | documentation marker body terminated =>
    refine .cons ?_ .nil
    have positive := List.length_pos_of_ne_nil nonempty
    generalize text : Lexeme.text (.documentation marker body terminated) = written at *
    have last : (written ++ after).take (written.length - 1) = written.dropLast := by
      rw [List.take_append_of_le_length (Nat.sub_le _ _), List.dropLast_eq_take]
    constructor
    case lexeme => exact ⟨marker, body, rfl, rfl⟩
    case file => rfl
    case offset => rfl
    case startLine =>
      have start := lineOf_append before (written ++ after) 0
      rw [whole]
      simpa [newlines] using start.symm
    case endLine =>
      have finish := lineOf_append before (written ++ after) (written.length - 1)
      rw [last, ← Nat.add_sub_assoc positive] at finish
      rw [whole]
      simpa [text] using finish.symm
  | lineComment => exact .nil
  | blockComment => exact .nil
  | literal => exact .nil
  | character => exact .nil

theorem scanFrom_stands (made : Markers.ofList? given = some markers) {source rest : Text}
    {lexemes : List Lexeme} (tiling : Lexeme.Tiling given rest lexemes) {before : Text}
    (whole : source = before ++ rest) :
    List.Forall₂ (Stands path source)
      ((Lexeme.placed before lexemes).filter (·.2.isDocumentation))
      (scanFrom markers (Text.slashed path) before.length (1 + newlines before) rest) := by
  induction tiling generalizing before with
  | nil =>
    rw [scanFrom_nil]
    exact .nil
  | @cons rest after lexeme lexemes begins _ induction =>
    have further : source = (before ++ lexeme.text) ++ after := by
      rw [whole, begins.text_append, List.append_assoc]
    have here : List.Forall₂ (Stands path source) _ (ofLexeme? markers _ _ _ lexeme after).toList :=
      ofLexeme?_stands (further.trans (List.append_assoc ..)) begins.text_ne_nil
    have later := induction further
    rw [List.length_append, newlines_append, ← Nat.add_assoc] at later
    rw [scanFrom_of_next? ((Lexeme.next?_eq_some made).mpr begins), Lexeme.placed,
      ← List.singleton_append, List.filter_append]
    exact List.rel_append here later

/-- A comment of a scan, as the grammar has it: the lexeme that it is, and what follows. -/
theorem scan_split (made : Markers.ofList? given = some markers) {source : Text}
    {earlier later : List Comment} {comment : Comment}
    (found : scan markers path source = earlier ++ comment :: later) :
    ∃ before marker body behind,
      let lexeme := Lexeme.documentation marker body comment.terminated
      source = before ++ (lexeme.text ++ behind) ∧ comment.offset = before.length ∧
        Lexeme.Begins given (lexeme.text ++ behind) lexeme behind ∧
        comment.nextCodeLine =
          (if comment.terminated then
            nextCodeLine? markers (1 + newlines (before ++ lexeme.text)) behind
          else none) ∧
        later = scanFrom markers (Text.slashed path) (before ++ lexeme.text).length
          (1 + newlines (before ++ lexeme.text)) behind := by
  rcases scanFrom_split found with ⟨before, lexeme, behind, whole, read, standing, rfl⟩
  have begins := (Lexeme.next?_eq_some made).mp read
  cases lexeme with
  | documentation marker body terminated =>
    simp only [ofLexeme?, Option.some.injEq] at standing
    subst standing
    refine ⟨before, marker, body, behind, whole, Nat.zero_add _, begins, ?_, ?_⟩
    · simp only [newlines_append, Nat.add_assoc]
    · simp only [Nat.zero_add]
  | lineComment => simp [ofLexeme?] at standing
  | blockComment => simp [ofLexeme?] at standing
  | literal => simp [ofLexeme?] at standing
  | character => simp [ofLexeme?] at standing

/-- A text has one tiling, in at most as many steps as it has characters, and a scan emits
the documentation comments of that tiling in their order. Only the last comment may be
unclosed, and it goes to the end of the text. -/
theorem scan_follows_grammar (nonempty : given ≠ []) (path source : Text) :
    ∃ markers, Markers.ofList? given = some markers ∧
      ∃ lexemes, Lexeme.Tiling given source lexemes ∧
        (∀ others, Lexeme.Tiling given source others → others = lexemes) ∧
        lexemes.flatMap Lexeme.text = source ∧ lexemes.length ≤ source.length ∧
        List.Forall₂ (Stands path source)
          ((Lexeme.placed [] lexemes).filter (·.2.isDocumentation)) (scan markers path source) ∧
        ∀ earlier comment later, scan markers path source = earlier ++ comment :: later →
          comment.terminated = false → later = [] ∧
            ∃ marker body, Lexeme.Begins given (source.drop comment.offset)
              (.documentation marker body false) [] := by
  rcases Markers.exists_ofList? nonempty with ⟨markers, made⟩
  rcases Lexeme.exists_tiling made source with ⟨lexemes, tiling⟩
  refine ⟨markers, made, lexemes, tiling, fun _ other => tiling.unique made other,
    tiling.flatMap_text, tiling.length_le, scanFrom_stands made tiling rfl, ?_⟩
  intro earlier comment later found unclosed
  refine ⟨eq_nil_of_unterminated found unclosed, ?_⟩
  rcases scan_split made found with ⟨before, marker, body, behind, whole, start, begins, _⟩
  rw [unclosed] at whole begins
  have atEnd := Lexeme.eq_nil_of_unterminated ((Lexeme.next?_eq_some made).mpr begins)
  subst atEnd
  refine ⟨marker, body, ?_⟩
  rw [whole, start, List.drop_left]
  exact begins

theorem scan_follows_grammar_past_literal :
    let given : List Text := ["/*!", "/**"]
    let source : Text := "/**/\"/*!\"/*! a */ x /** b"
    given ≠ [] ∧ ∃ markers, Markers.ofList? given = some markers ∧
      ∃ lexemes, Lexeme.Tiling given source lexemes ∧
        (∀ others, Lexeme.Tiling given source others → others = lexemes) ∧
        lexemes.flatMap Lexeme.text = source ∧ lexemes.length ≤ source.length ∧
        List.Forall₂ (Stands "a.h" source)
          ((Lexeme.placed [] lexemes).filter (·.2.isDocumentation)) (scan markers "a.h" source) ∧
        ∀ earlier comment later, scan markers "a.h" source = earlier ++ comment :: later →
          comment.terminated = false → later = [] ∧
            ∃ marker body, Lexeme.Begins given (source.drop comment.offset)
              (.documentation marker body false) [] := by
  intro given source
  have nonempty : given ≠ [] := by decide
  exact ⟨nonempty, scan_follows_grammar nonempty "a.h" source⟩

end Comment

end DocAtlas
