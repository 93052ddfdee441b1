import DocAtlas.Proofs.Binding.Entries

/-!
# What a comment documents

A comment documents the symbol that its first naming tag names, if the table knows that
symbol, and nothing otherwise. A comment none of whose tags names a symbol documents the
symbol that the table has on the line of the next code.

Binding chooses exactly the symbol that is documented, and reports every comment that
documents nothing.
-/

namespace DocAtlas

namespace ParsedComment

structure FirstNames (parsed : ParsedComment) (topic : Tag) (name : Text) : Prop where
  names : topic.target = some name
  first : ∃ before after, parsed.tags = before ++ topic :: after ∧
    ∀ tag ∈ before, tag.target = none

def NamesNothing (parsed : ParsedComment) : Prop := ∀ tag ∈ parsed.tags, tag.target = none

inductive Documents (table : SymbolTable) (parsed : ParsedComment) : Text → Prop
  | named {topic : Tag} {name : Text} : parsed.FirstNames topic name →
      table.contains name = true → Documents table parsed name
  | adjacent {line : Nat} {symbol : Symbol} : parsed.NamesNothing →
      parsed.comment.nextCodeLine = some line →
      table.at? parsed.comment.span.file line = some symbol →
      Documents table parsed symbol.name

inductive Unbound (table : SymbolTable) (parsed : ParsedComment) : Diagnostic → Prop
  | unknown {topic : Tag} {name : Text} : parsed.FirstNames topic name →
      table.contains name = false →
      Unbound table parsed
        { kind := .unknownSymbolReference
          message := Text.join ["\\", topic.marker, " names unknown symbol ", name]
          file := some parsed.comment.span.file
          line := some topic.line
          symbol := some name
          tags := parsed.tags }
  | orphaned : parsed.NamesNothing →
      (∀ line : Nat, parsed.comment.nextCodeLine = some line →
        table.at? parsed.comment.span.file line = none) →
      Unbound table parsed
        { kind := .orphanedDocumentation
          message := "documentation block has no explicit target and no adjacent declaration"
          file := some parsed.comment.span.file
          line := some parsed.comment.span.startLine
          symbol := none
          tags := parsed.tags }

variable {table : SymbolTable} {parsed : ParsedComment}

theorem explicitTopic?_eq_some {topic : Tag} :
    parsed.explicitTopic? = some topic ↔ ∃ name, parsed.FirstNames topic name := by
  rw [explicitTopic?, List.find?_eq_some_iff_append, Option.isSome_iff_exists]
  constructor
  · rintro ⟨⟨name, names⟩, before, after, parts, nameless⟩
    refine ⟨name, names, before, after, parts, ?_⟩
    intro tag member
    simpa using nameless tag member
  · rintro ⟨name, names, before, after, parts, nameless⟩
    refine ⟨⟨name, names⟩, before, after, parts, ?_⟩
    intro tag member
    simp [nameless tag member]

theorem explicitTopic?_eq_none : parsed.explicitTopic? = none ↔ parsed.NamesNothing := by
  simp [explicitTopic?, NamesNothing]

end ParsedComment

namespace SymbolTable

variable {table : SymbolTable} {name : Text}

theorem contains_eq_true : table.contains name = true ↔ ∃ symbol, table.get? name = some symbol :=
  Option.isSome_iff_exists

theorem contains_eq_false : table.contains name = false ↔ table.get? name = none :=
  Option.isSome_eq_false_iff.trans Option.isNone_iff_eq_none

end SymbolTable

namespace Candidate

open ParsedComment

variable {table : SymbolTable} {files : List Text} {parsed : ParsedComment}

theorem bind_adjacent (table : SymbolTable) (files : List Text) (parsed : ParsedComment) :
    (ofParsed table files parsed).adjacent.bind table.get? =
      parsed.comment.nextCodeLine.bind fun line => table.at? parsed.comment.span.file line := by
  simp only [ofParsed, Option.bind_map]
  cases behind : parsed.comment.nextCodeLine with
  | none => rfl
  | some line =>
    rw [Option.bind_some]
    cases found : table.at? parsed.comment.span.file line with
    | none => rfl
    | some symbol => exact SymbolTable.get?_of_at? found

theorem chosen?_eq_some {candidate : Candidate} {key : Text} :
    candidate.chosen? table = some key ↔
      ∃ symbol, candidate.choose table = .ok symbol ∧ symbol.name = key := by
  unfold chosen?
  cases candidate.choose table <;> simp

theorem chosen?_ofParsed {key : Text} :
    (ofParsed table files parsed).chosen? table = some key ↔ parsed.Documents table key := by
  rw [chosen?_eq_some]
  constructor
  · rintro ⟨symbol, chosen, rfl⟩
    rcases choose_eq_ok.mp chosen with ⟨topic, explicit, found⟩ | ⟨silent, found⟩
    · rcases explicitTopic?_eq_some.mp explicit with ⟨name, first⟩
      rw [first.names, Option.getD_some] at found
      rw [SymbolTable.name_of_get? found]
      exact .named first (SymbolTable.contains_eq_true.mpr ⟨symbol, found⟩)
    · rw [bind_adjacent, Option.bind_eq_some_iff] at found
      rcases found with ⟨line, behind, placed⟩
      exact .adjacent (explicitTopic?_eq_none.mp silent) behind placed
  · intro documents
    cases documents with
    | @named topic name first known =>
      rcases SymbolTable.contains_eq_true.mp known with ⟨symbol, found⟩
      refine ⟨symbol, choose_eq_ok.mpr (.inl ⟨topic, ?_, ?_⟩), SymbolTable.name_of_get? found⟩
      · exact explicitTopic?_eq_some.mpr ⟨key, first⟩
      · rw [first.names, Option.getD_some]
        exact found
    | @adjacent line symbol silent behind placed =>
      refine ⟨symbol, choose_eq_ok.mpr (.inr ⟨explicitTopic?_eq_none.mpr silent, ?_⟩), rfl⟩
      rw [bind_adjacent, behind, Option.bind_some]
      exact placed

theorem rejection?_ofParsed {diagnostic : Diagnostic} :
    (ofParsed table files parsed).rejection? table = some diagnostic ↔
      parsed.Unbound table diagnostic := by
  have rejected : (ofParsed table files parsed).rejection? table = some diagnostic ↔
      (ofParsed table files parsed).choose table = .error diagnostic := by
    unfold rejection?
    cases (ofParsed table files parsed).choose table <;> simp
  rw [rejected, choose_eq_error]
  constructor
  · rintro (⟨topic, explicit, unknown, rfl⟩ | ⟨silent, missing, rfl⟩)
    · rcases explicitTopic?_eq_some.mp explicit with ⟨name, first⟩
      rw [first.names, Option.getD_some] at unknown ⊢
      exact .unknown first (SymbolTable.contains_eq_false.mpr unknown)
    · rw [bind_adjacent, Option.bind_eq_none_iff] at missing
      exact .orphaned (explicitTopic?_eq_none.mp silent) missing
  · intro unbound
    cases unbound with
    | @unknown topic name first unknown =>
      refine .inl ⟨topic, explicitTopic?_eq_some.mpr ⟨name, first⟩, ?_, ?_⟩
      · rw [first.names, Option.getD_some]
        exact SymbolTable.contains_eq_false.mp unknown
      · rw [first.names]
        rfl
    | orphaned silent missing =>
      refine .inr ⟨explicitTopic?_eq_none.mpr silent, ?_, rfl⟩
      rw [bind_adjacent, Option.bind_eq_none_iff]
      exact missing

theorem isSome_rejection? (table : SymbolTable) (candidate : Candidate) :
    (candidate.rejection? table).isSome = (candidate.chosen? table == none) := by
  unfold rejection? chosen?
  cases candidate.choose table <;> rfl

theorem isSome_rejection?_ofParsed :
    ((ofParsed table files parsed).rejection? table).isSome = true ↔
      ¬∃ key, parsed.Documents table key := by
  rw [isSome_rejection?, beq_iff_eq, Option.eq_none_iff_forall_ne_some, not_exists]
  exact forall_congr' fun key => not_congr chosen?_ofParsed

end Candidate

namespace ParsedComment

variable {table : SymbolTable} {parsed : ParsedComment}

instance (table : SymbolTable) (parsed : ParsedComment) (key : Text) :
    Decidable (parsed.Documents table key) :=
  decidable_of_iff ((Candidate.ofParsed table [] parsed).chosen? table = some key)
    Candidate.chosen?_ofParsed

instance (table : SymbolTable) (parsed : ParsedComment) :
    Decidable (∃ key, parsed.Documents table key) :=
  decidable_of_iff (((Candidate.ofParsed table [] parsed).chosen? table).isSome = true)
    (Option.isSome_iff_exists.trans (exists_congr fun _ => Candidate.chosen?_ofParsed))

end ParsedComment

end DocAtlas
