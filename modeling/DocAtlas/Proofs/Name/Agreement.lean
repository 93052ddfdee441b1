import DocAtlas.Proofs.Name.Spelling

/-!
# Names read again

The name that an argument declares may itself be written, as a topic or as a reference. Main
statement: a reference to it is always to this name, and as a topic it declares itself exactly
if it is plain. A name that is not plain comes from a call, and its leaf begins with the
operator keyword and at least two more signs.
-/

namespace DocAtlas.Name

open Text (isBlank trim Trimmed)

/-! ## Plain names -/

/-- A leaf that is read whole without a parameter list: an identifier that goes on with nothing
behind the letters of the operator keyword, or an operator of one sign. -/
inductive PlainLeaf : Text → Prop
  | word {word : Text} : Word word → (∀ sign, word = operatorWord ++ sign → sign = []) →
      PlainLeaf word
  | operator {blanks : Text} {c : Char} : (∀ b ∈ blanks, isBlank b = true) →
      isBlank c = false → PlainLeaf (operatorWord ++ blanks ++ [c])

theorem PlainLeaf.begins {name : Text} (leaf : PlainLeaf name) :
    ∃ c ∈ name.head?, isPathPart c = true := by
  cases leaf with
  | word spelled _ => exact spelled.begins
  | operator _ _ => exact ⟨'o', rfl, by decide⟩

theorem operatorSign_append {blanks rest : Text} {c : Char}
    (allBlank : ∀ b ∈ blanks, isBlank b = true) (solid : isBlank c = false) :
    operatorSign (operatorWord ++ blanks ++ c :: rest) =
      some (operatorWord ++ blanks ++ [c], rest) := by
  have stops : ∀ d ∈ (c :: rest).head?, isBlank d = false := by
    intro d first
    cases first
    exact solid
  have dropped : Text.dropStart? operatorWord (operatorWord ++ blanks ++ c :: rest) =
      some (blanks ++ c :: rest) := Text.dropStart?_eq_some.mpr (List.append_assoc _ _ _)
  simp only [operatorSign, dropped, Option.bind_eq_bind, Option.bind_some,
    dropWhile_append_stop allBlank stops, takeWhile_append_stop allBlank stops]

theorem operatorSign_spells : Form.Spells operatorSign PlainLeaf (· = ·) := by
  intro text name rest read
  have parts := (operatorSign_exact read).2
  refine ⟨?_, rest, parts, rfl⟩
  simp only [operatorSign, Option.bind_eq_bind, Option.bind_eq_some_iff] at read
  rcases read with ⟨after, _, read⟩
  split at read
  · cases read
  · next c others sign =>
    cases read
    have kept := List.head?_dropWhile_not isBlank after
    rw [sign] at kept
    exact .operator (fun b => List.mem_takeWhile_imp) (by simpa using kept)

theorem plainLeaf_spells : Form.Spells plainLeaf PlainLeaf (· = ·) := by
  intro text name rest read
  unfold plainLeaf at read
  cases sign : operatorSign text with
  | some found => exact operatorSign_spells (by simpa [sign] using read)
  | none =>
    have identifier : identifier? text = some (name, rest) := by simpa [sign] using read
    have spelled := word_of_identifier? identifier
    have parts := (identifier?_exact identifier).2
    refine ⟨.word spelled ?_, rest, parts, rfl⟩
    intro letters whole
    cases letters with
    | nil => rfl
    | cons c others =>
      have solid : isBlank c = false :=
        isBlank_of_isPathPart (spelled.forall_mem c (by simp [whole]))
      have found : operatorSign text = some (operatorWord ++ [c], others ++ rest) := by
        rw [parts, whole]
        simpa using operatorSign_append (List.forall_mem_nil _) solid
      rw [found] at sign
      cases sign

theorem owner_operator {blanks : Text} (allBlank : ∀ b ∈ blanks, isBlank b = true) (c : Char) :
    owner (operatorWord ++ blanks ++ [c]) = none := by
  cases owned : owner (operatorWord ++ blanks ++ [c]) with
  | none => rfl
  | some found =>
    rcases exists_word_of_owner owned with ⟨word, _, first⟩
    have parts := congrArg (List.count ':') (owner_exact owned).2
    have keyword : operatorWord.count ':' = 0 := by decide
    have colons : separator.count ':' = 2 := by decide
    have between : blanks.count ':' = 0 := by
      apply List.count_eq_zero_of_not_mem
      exact fun member => absurd (allBlank _ member) (by decide)
    have single : [c].count ':' ≤ 1 := List.count_le_length
    simp only [first, List.count_append, keyword, colons, between] at parts
    omega

theorem plain_whole {name : Text} (bare : Owned PlainLeaf name) : plain name = some (name, []) := by
  induction bare with
  | @leaf name leaf =>
    cases leaf with
    | word spelled short =>
      have unowned : owner (name ++ []) = none := owner_eq_none spelled (by simp) (by decide)
      have identifier : identifier? (name ++ []) = some (name, []) :=
        identifier?_append spelled (by simp)
      rw [List.append_nil] at unowned identifier
      have unsigned : operatorSign name = none := by
        cases dropped : Text.dropStart? operatorWord name with
        | none => simp [operatorSign, dropped]
        | some sign =>
          rw [short sign (Text.dropStart?_eq_some.mp dropped)] at dropped
          simp [operatorSign, dropped]
      rw [plain, qualified_of_unowned _ unowned, plainLeaf, unsigned, identifier]
      rfl
    | operator allBlank solid =>
      rw [plain, qualified_of_unowned _ (owner_operator allBlank _), plainLeaf,
        operatorSign_append allBlank solid]
      rfl
  | owner spelled _ induction => exact qualified_owner spelled induction

/-! ## The last name of a text -/

theorem exists_suffix_of_lastPlain? {text name : Text} (found : lastPlain? text = some name) :
    ∃ suffix rest, suffix <:+ text ∧ plain suffix = some (name, rest) := by
  fun_induction lastPlain? text with
  | case1 => cases found
  | case2 c text missing induction =>
    rcases induction found with ⟨suffix, rest, inside, read⟩
    exact ⟨suffix, rest, inside.trans (List.suffix_cons c text), read⟩
  | case3 c text first rest read shorter induction =>
    cases later : lastPlain? rest with
    | none =>
      rw [later] at found
      cases found
      exact ⟨c :: text, rest, List.suffix_refl _, read⟩
    | some last =>
      rw [later] at found
      cases found
      rcases induction later with ⟨suffix, behind, inside, read'⟩
      refine ⟨suffix, behind, inside.trans ?_, read'⟩
      rw [(plain_exact read).2]
      exact List.suffix_append first rest

theorem owned_of_lastPlain? {text name : Text} (found : lastPlain? text = some name) :
    Owned PlainLeaf name := by
  rcases exists_suffix_of_lastPlain? found with ⟨_, _, _, read⟩
  exact (qualified_spells plainLeaf_spells read).1

theorem lastPlain?_eq_self_iff {name : Text} :
    lastPlain? name = some name ↔ Owned PlainLeaf name := by
  constructor
  · exact owned_of_lastPlain?
  · intro bare
    rcases bare.begins PlainLeaf.begins with ⟨c, first, _⟩
    rcases List.head?_eq_some_iff.mp first with ⟨letters, rfl⟩
    rw [lastPlain?]
    split
    · next missing =>
      rw [plain_whole bare] at missing
      cases missing
    · next read =>
      rw [plain_whole bare] at read
      cases read
      simp [lastPlain?]

theorem exists_operator_of_mem {name : Text} (bare : Owned PlainLeaf name) (member : '(' ∈ name) :
    ∃ front blanks, (∀ b ∈ blanks, isBlank b = true) ∧
      name = front ++ (operatorWord ++ (blanks ++ ['('])) := by
  induction bare with
  | leaf leaf =>
    cases leaf with
    | word spelled _ => exact absurd (spelled.forall_mem _ member) (by decide)
    | @operator blanks c allBlank solid =>
      rw [List.mem_append, List.mem_append, List.mem_singleton] at member
      rcases member with (keyword | between) | sign
      · exact absurd keyword (by decide)
      · exact absurd (allBlank _ between) (by decide)
      · exact ⟨[], blanks, allBlank, by simp [← sign]⟩
  | @owner word name spelled _ induction =>
    rw [List.mem_append, List.mem_append] at member
    rcases member with (inWord | inSeparator) | later
    · exact absurd (spelled.forall_mem _ inWord) (by decide)
    · exact absurd inSeparator (by decide)
    · rcases induction later with ⟨front, blanks, allBlank, parts⟩
      refine ⟨word ++ separator ++ front, blanks, allBlank, ?_⟩
      rw [parts, List.append_assoc _ front]

/-- A parenthesis behind the operator keyword opens a parameter list, so a text without a call
holds no name with one. -/
theorem not_mem_of_lastPlain? {text name : Text} (uncalled : firstCall? text = none)
    (found : lastPlain? text = some name) : '(' ∉ name := by
  intro member
  rcases exists_suffix_of_lastPlain? found with ⟨suffix, rest, inside, read⟩
  rcases exists_operator_of_mem (owned_of_lastPlain? found) member with
    ⟨front, blanks, allBlank, parts⟩
  have keyword : Path operatorWord :=
    .leaf (.identifier (by decide) (List.all_eq_true.mp (by decide)))
  have called := call?_append keyword (opens_append allBlank rest)
  have within : operatorWord ++ (blanks ++ '(' :: rest) <:+ text := by
    refine List.IsSuffix.trans ⟨front, ?_⟩ inside
    rw [(plain_exact read).2, parts]
    simp
  rw [firstCall?_eq_none.mp uncalled _ within] at called
  cases called

/-! ## Declared names -/

def LongOperator (leaf : Text) : Prop :=
  ∃ sign, leaf = operatorWord ++ sign ∧ 2 ≤ sign.length ∧ ∀ c ∈ sign, isOperatorPart c = true

theorem plain_or_long_of_sign {sign : Text} (full : sign ≠ [])
    (parts : ∀ c ∈ sign, isOperatorPart c = true) :
    PlainLeaf (operatorWord ++ sign) ∨ LongOperator (operatorWord ++ sign) := by
  rcases List.exists_cons_of_ne_nil full with ⟨c, letters, rfl⟩
  cases letters with
  | nil =>
    have solid := (isOperatorPart_iff.mp (parts c List.mem_cons_self)).1
    exact .inl (.operator (List.forall_mem_nil _) solid)
  | cons d others => exact .inr ⟨c :: d :: others, rfl, by simp, parts⟩

theorem CalledLeaf.plain_or_long {leaf : Text} (called : CalledLeaf leaf) :
    PlainLeaf (leaf.filter (!isBlank ·)) ∨ LongOperator (leaf.filter (!isBlank ·)) := by
  cases called with
  | word spelled =>
    rw [Path.filter_eq (.leaf spelled)]
    by_cases keyword : ∃ sign, leaf = operatorWord ++ sign ∧ sign ≠ []
    · rcases keyword with ⟨sign, rfl, full⟩
      apply plain_or_long_of_sign full
      exact fun c member =>
        isOperatorPart_of_isPathPart (spelled.forall_mem c (List.mem_append_right _ member))
    · refine .inl (.word spelled fun sign whole => ?_)
      by_contra full
      exact keyword ⟨sign, whole, full⟩
  | @operator blanks sign allBlank full parts =>
    have keyword : operatorWord.filter (!isBlank ·) = operatorWord := by decide
    have between : blanks.filter (!isBlank ·) = [] :=
      List.filter_eq_nil_iff.mpr fun b member => by simp [allBlank b member]
    have signs : sign.filter (!isBlank ·) = sign :=
      List.filter_eq_self.mpr fun c member => by simp [(isOperatorPart_iff.mp (parts c member)).1]
    rw [List.filter_append, List.filter_append, keyword, between, signs, List.append_nil]
    exact plain_or_long_of_sign full parts

theorem plain_or_long_of_called {path : Text} (called : Owned CalledLeaf path) :
    Owned PlainLeaf (path.filter (!isBlank ·)) ∨ Owned LongOperator (path.filter (!isBlank ·)) := by
  induction called with
  | leaf leaf => exact leaf.plain_or_long.imp .leaf .leaf
  | owner spelled _ induction =>
    have colons : separator.filter (!isBlank ·) = separator := by decide
    rw [List.filter_append, List.filter_append, Path.filter_eq (.leaf spelled), colons]
    exact induction.imp (.owner spelled) (.owner spelled)

theorem trimmed_of_plain {name : Text} (bare : Owned PlainLeaf name) : Trimmed name := by
  constructor
  · intro c first
    rcases bare.begins PlainLeaf.begins with ⟨d, begins, part⟩
    cases (Option.mem_def.mp first).symm.trans begins
    exact isBlank_of_isPathPart part
  · induction bare with
    | leaf leaf =>
      cases leaf with
      | word spelled _ =>
        intro c last
        exact isBlank_of_isPathPart (spelled.forall_mem c (List.mem_of_mem_getLast? last))
      | operator _ solid =>
        rw [List.getLast?_concat]
        intro c last
        cases last
        exact solid
    | owner _ later induction =>
      rcases later.begins PlainLeaf.begins with ⟨c, first, _⟩
      rwa [List.getLast?_append_of_ne_nil _ (List.ne_nil_of_mem (List.mem_of_mem_head? first))]

/-- What an argument declares is trimmed, holds no parenthesis and is plain, or comes from a
call and ends in a long operator. -/
structure Declared (argument name : Text) : Prop where
  uncalled : '(' ∉ name
  trimmed : Trimmed name
  plain_or_long : Owned PlainLeaf name ∨
    firstCall? (trim argument) = some name ∧ Owned LongOperator name

theorem declared_of_ofArgument? {argument name : Text}
    (declared : ofArgument? argument = some name) : Declared argument name := by
  rcases Option.or_eq_some_iff.mp declared with called | ⟨uncalled, last⟩
  · rcases exists_suffix_of_firstCall? called with ⟨suffix, _, read⟩
    rcases spelled_of_call? read with ⟨path, _, _, rfl, owned, _, _⟩
    refine ⟨?_, ?_, (plain_or_long_of_called owned).imp_right fun long => ⟨called, long⟩⟩
    · exact fun member => owned.not_mem (List.mem_of_mem_filter member)
    · apply Text.trimmed_of_not_blank
      intro c member
      simpa using (List.mem_filter.mp member).2
  · have bare := owned_of_lastPlain? last
    exact ⟨not_mem_of_lastPlain? uncalled last, trimmed_of_plain bare, .inl bare⟩

/-- A reference to a declared name is to this name. As a topic it declares itself exactly if it
is plain, which it is unless it was called as an operator of several signs. -/
theorem declared_name_declares_itself {argument name : Text}
    (declared : ofArgument? argument = some name) :
    ofReference name = name ∧ (ofArgument? name = some name ↔ Owned PlainLeaf name) ∧
      (¬Owned PlainLeaf name →
        firstCall? (trim argument) = some name ∧ Owned LongOperator name) := by
  have found := declared_of_ofArgument? declared
  have uncalled : firstCall? name = none := by
    rw [firstCall?_eq_none]
    intro suffix inside
    exact call?_eq_none fun member => found.uncalled (inside.subset member)
  refine ⟨ofReference_eq_self found.uncalled found.trimmed, ?_, found.plain_or_long.resolve_left⟩
  rw [ofArgument?, found.trimmed.trim_eq, uncalled, Option.none_or]
  exact lastPlain?_eq_self_iff

/-- An operator of one sign is declared again, although blanks stand around it at first. -/
theorem declared_name_declares_operator :
    let argument : Text := "static bool Foo::operator < (const Foo &other)"
    let name : Text := "Foo::operator<"
    ofArgument? argument = some name ∧ Owned PlainLeaf name ∧ ofReference name = name ∧
      ofArgument? name = some name := by
  intro argument name
  have declared : ofArgument? argument = some name := by decide +kernel
  have owner : Word ['F', 'o', 'o'] := .identifier (by decide) (List.all_eq_true.mp (by decide))
  have sign : PlainLeaf (operatorWord ++ [] ++ ['<']) :=
    .operator (List.forall_mem_nil _) (by decide)
  have bare : Owned PlainLeaf name := .owner owner (.leaf sign)
  have agreement := declared_name_declares_itself declared
  exact ⟨declared, bare, agreement.1, agreement.2.1.mpr bare⟩

/-- The second sign of an operator is read only where a parameter list follows. -/
theorem long_operator_is_cut_short :
    let argument : Text := "bool Foo::operator==(const Foo &other) const"
    let name : Text := "Foo::operator=="
    ofArgument? argument = some name ∧ ofReference name = name ∧
      ofArgument? name = some "Foo::operator=" ∧ ofArgument? name ≠ some name := by
  intro argument name
  exact ⟨by decide +kernel, by decide +kernel, by decide +kernel, by decide +kernel⟩

end DocAtlas.Name
