import DocAtlas.Proofs.Name.Spelling
import Mathlib.Data.List.Infix

/-!
# Names of signatures

The name of a signature is looked for from the left, so what stands in front of it matters.
Main statement: behind a type a name is found as it is written, unless the letters of the
operator keyword stand in the type so that no blank parts what follows them from the name.
-/

namespace DocAtlas.Name

open Text (isBlank trim trimStart)

/-! ## The leftmost call -/

theorem firstCall?_append {text : Text} (called : call? text ≠ none) (front : Text) :
    ∃ taken, taken <:+ front ∧ firstCall? (front ++ text) = call? (taken ++ text) ∧
      call? (taken ++ text) ≠ none ∧
      ∀ longer, longer <:+ front → call? (longer ++ text) ≠ none →
        longer.length ≤ taken.length := by
  induction front with
  | nil =>
    refine ⟨[], List.suffix_refl _, ?_, called, ?_⟩
    · cases text with
      | nil => exact absurd (call?_eq_none List.not_mem_nil) called
      | cons c rest =>
        rcases Option.ne_none_iff_exists'.mp called with ⟨name, found⟩
        rw [List.nil_append, firstCall?, found, Option.some_or]
    · intro longer inside _
      exact inside.length_le
  | cons c front induction =>
    cases whole : call? (c :: front ++ text) with
    | some name =>
      refine ⟨c :: front, List.suffix_refl _, ?_, by rw [whole]; simp, ?_⟩
      · rw [whole, List.cons_append, firstCall?, ← List.cons_append, whole, Option.some_or]
      · intro longer inside _
        exact inside.length_le
    | none =>
      rcases induction with ⟨taken, inside, first, found, longest⟩
      refine ⟨taken, inside.trans (List.suffix_cons c front), ?_, found, ?_⟩
      · rw [List.cons_append, firstCall?, ← List.cons_append, whole, Option.none_or, first]
      · intro longer within called
        rcases List.suffix_cons_iff.mp within with rfl | later
        · exact absurd whole called
        · exact longest longer later called

/-! ## Operators in front of a name -/

/-- The letters of the operator keyword stand in a text, behind them perhaps blanks, and then
none up to its end. -/
def EndsInOperator (text : Text) : Prop :=
  ∃ after, operatorWord ++ after <:+ text ∧ ∀ c ∈ trimStart after, isBlank c = false

instance (text : Text) : Decidable (EndsInOperator text) :=
  decidable_of_iff
    (∃ suffix ∈ text.tails, operatorWord <+: suffix ∧
      (trimStart (suffix.drop operatorWord.length)).all (!isBlank ·) = true) <| by
    constructor
    · intro found
      rcases found with ⟨suffix, inside, ⟨after, rfl⟩, solid⟩
      rw [List.drop_left, List.all_eq_true] at solid
      exact ⟨after, (List.mem_tails _ _).mp inside, fun c member => by simpa using solid c member⟩
    · intro found
      rcases found with ⟨after, inside, solid⟩
      refine ⟨_, (List.mem_tails _ _).mpr inside, ⟨after, rfl⟩, ?_⟩
      rw [List.drop_left, List.all_eq_true]
      exact fun c member => by simpa using solid c member

theorem EndsInOperator.of_suffix {first second : Text} (inside : first <:+ second)
    (ends : EndsInOperator first) : EndsInOperator second := by
  rcases ends with ⟨after, within, solid⟩
  exact ⟨after, within.trans inside, solid⟩

theorem exists_rest_of_append_eq {front rest taken name : Text}
    (path : ∀ c ∈ front, isPathPart c = true)
    (last : ∃ c ∈ taken.getLast?, isPathPart c = false) (parts : front ++ rest = taken ++ name) :
    ∃ more, taken = front ++ more ∧ rest = more ++ name ∧
      ∃ c ∈ more.getLast?, isPathPart c = false := by
  rcases last with ⟨c, ends, other⟩
  have outside : c ∉ front := by
    intro member
    rw [path c member] at other
    cases other
  rcases List.append_eq_append_iff.mp parts with ⟨more, split, follows⟩ | ⟨more, split, _⟩
  · refine ⟨more, split, follows, c, ?_, other⟩
    rw [split, List.getLast?_append, Option.mem_def, Option.or_eq_some_iff] at ends
    rcases ends with inMore | ⟨_, inFront⟩
    · exact inMore
    · exact absurd (List.mem_of_getLast? inFront) outside
  · have member : c ∈ front := by
      rw [split]
      exact List.mem_append_left _ (List.mem_of_mem_getLast? ends)
    exact absurd member outside

theorem endsInOperator_of_owned {taken name : Text} (path : Path name)
    (last : ∃ c ∈ taken.getLast?, isPathPart c = false)
    (owned : Owned CalledLeaf (taken ++ name)) : EndsInOperator taken := by
  generalize whole : taken ++ name = called at owned
  induction owned generalizing taken with
  | leaf leaf =>
    cases leaf with
    | word spelled =>
      rcases last with ⟨c, ends, other⟩
      have part := spelled.forall_mem c <| by
        rw [← whole]
        exact List.mem_append_left _ (List.mem_of_mem_getLast? ends)
      rw [part] at other
      cases other
    | @operator blanks sign allBlank full parts =>
      have letters : ∀ c ∈ operatorWord, isPathPart c = true := List.all_eq_true.mp (by decide)
      rw [List.append_assoc] at whole
      rcases exists_rest_of_append_eq letters last whole.symm with ⟨more, rfl, follows, _⟩
      refine ⟨more, List.suffix_refl _, ?_⟩
      rcases path.begins Word.begins with ⟨d, first, part⟩
      rcases List.head?_eq_some_iff.mp first with ⟨letters, rfl⟩
      have sameSign : trimStart more ++ d :: letters = sign := by
        rw [← Text.trimStart_append_cons (isBlank_of_isPathPart part), ← follows]
        apply dropWhile_append_stop allBlank
        exact fun c first => (isOperatorPart_iff.mp (parts c (List.mem_of_mem_head? first))).1
      intro c member
      exact (isOperatorPart_iff.mp (parts c (by simp [← sameSign, member]))).1
  | @owner word name' spelled _ induction =>
    have front : ∀ c ∈ word ++ separator, isPathPart c = true := by
      rw [List.forall_mem_append]
      exact ⟨spelled.forall_mem, List.all_eq_true.mp (by decide)⟩
    rcases exists_rest_of_append_eq front last whole.symm with ⟨more, rfl, follows, ends⟩
    exact (induction ends follows.symm).of_suffix (List.suffix_append _ _)

theorem call?_operator {after name behind rest : Text} (uncalled : '(' ∉ after)
    (solid : ∀ c ∈ trimStart after, isBlank c = false) (path : Path name)
    (opens : Opens behind rest) : call? (operatorWord ++ after ++ (name ++ behind)) ≠ none := by
  have blanks := List.takeWhile_append_dropWhile (p := isBlank) (l := after)
  have parts : ∀ c ∈ trimStart after ++ name, isOperatorPart c = true := by
    rw [List.forall_mem_append]
    refine ⟨fun c member => isOperatorPart_iff.mpr ⟨solid c member, ?_⟩,
      fun c member => isOperatorPart_of_isPathPart (path.forall_mem c member)⟩
    intro parenthesis
    rw [parenthesis] at member
    exact uncalled ((List.dropWhile_sublist isBlank).subset member)
  have full : trimStart after ++ name ≠ [] := List.append_ne_nil_of_right_ne_nil _ path.ne_nil
  have allBlank : ∀ c ∈ after.takeWhile isBlank, isBlank c = true :=
    fun c => List.mem_takeWhile_imp
  have read := calledOperator_append allBlank full parts opens
  have whole : operatorWord ++ after ++ (name ++ behind) =
      operatorWord ++ after.takeWhile isBlank ++ (trimStart after ++ name) ++ behind := by
    have cut : after.takeWhile isBlank ++ (trimStart after ++ (name ++ behind)) =
        after ++ (name ++ behind) := by
      rw [← List.append_assoc, trimStart, blanks]
    simp [cut]
  have leaf : calledLeaf (operatorWord ++ after ++ (name ++ behind)) ≠ none := by
    rw [whole, calledLeaf, read]
    simp
  have found := qualified_ne_none leaf
  simpa [call?] using found

theorem owned_of_call? {text rest name : Text} (uncalled : '(' ∉ text)
    (finish : ∀ c ∈ text.getLast?, isBlank c = false)
    (called : call? (text ++ '(' :: rest) = some name) :
    name = text.filter (!isBlank ·) ∧ Owned CalledLeaf text := by
  rcases spelled_of_call? called with ⟨path, behind, rest', rfl, owned, parts, opens⟩
  rcases opens.exists_blanks with ⟨blanks, allBlank, rfl⟩
  have outside {front : Text} (missing : '(' ∉ front) (behind : Text) :
      (front ++ '(' :: behind).takeWhile (· != '(') = front := by
    apply takeWhile_append_stop
    · intro c member
      rw [bne_iff_ne]
      intro parenthesis
      exact missing (parenthesis ▸ member)
    · intro c first
      cases first
      rfl
  have blanksOutside : '(' ∉ path ++ blanks := by
    rw [List.mem_append, not_or]
    refine ⟨owned.not_mem, fun member => ?_⟩
    exact absurd (allBlank _ member) (by decide)
  have whole : text = path ++ blanks := by
    rw [← outside uncalled rest, parts, ← List.append_assoc, outside blanksOutside]
  have nothing : blanks = [] := by
    by_contra some
    rw [whole, List.getLast?_append_of_ne_nil _ some] at finish
    have solid := finish _ (List.getLast?_eq_some_getLast some)
    rw [allBlank _ (List.getLast_mem some)] at solid
    cases solid
  rw [nothing, List.append_nil] at whole
  rw [whole]
  exact ⟨rfl, owned⟩

/-! ## Signatures -/

theorem not_path_of_apart {c : Char} (apart : isBlank c = true ∨ c = '*' ∨ c = '&') :
    isPathPart c = false := by
  rcases apart with blank | rfl | rfl
  · exact not_path_of_isBlank blank
  · decide
  · decide

/-- The call that is found in a signature begins with the name or, at an operator, before it. -/
theorem firstCall?_signature {returned name : Text} (uncalled : '(' ∉ returned)
    (apart : ∀ c ∈ returned.getLast?, isBlank c = true ∨ c = '*' ∨ c = '&') (path : Path name)
    (rest : Text) :
    ∃ taken, taken <:+ returned ∧
      firstCall? (returned ++ name ++ '(' :: rest) = some (taken.filter (!isBlank ·) ++ name) ∧
      (taken = [] ↔ ¬EndsInOperator returned) ∧ ∀ c ∈ taken.head?, isBlank c = false := by
  have opens : Opens ('(' :: rest) rest := rfl
  have own : call? (name ++ '(' :: rest) ≠ none := by simp [call?_append path opens]
  rcases firstCall?_append own returned with ⟨taken, inside, first, called, longest⟩
  rcases Option.ne_none_iff_exists'.mp called with ⟨found, read⟩
  have within : '(' ∉ taken ++ name := by
    rw [List.mem_append, not_or]
    exact ⟨fun member => uncalled (inside.subset member), path.not_mem (by decide)⟩
  have finish : ∀ c ∈ (taken ++ name).getLast?, isBlank c = false := by
    rw [List.getLast?_append_of_ne_nil _ path.ne_nil]
    exact fun c last => path.not_blank c (List.mem_of_mem_getLast? last)
  rw [← List.append_assoc] at read
  rcases owned_of_call? within finish read with ⟨rfl, owned⟩
  refine ⟨taken, inside, ?_, ⟨?_, ?_⟩, ?_⟩
  · rw [List.append_assoc, first, ← List.append_assoc, read, List.filter_append,
      path.filter_eq]
  -- An operator at the end can be read together with the name, so more than nothing is taken.
  · intro nothing ends
    rcases ends with ⟨after, ends, blankless⟩
    have afterUncalled : '(' ∉ after := fun member =>
      uncalled (ends.subset (List.mem_append_right _ member))
    have shorter := longest _ ends (call?_operator afterUncalled blankless path opens)
    have positive : 0 < operatorWord.length := by decide
    rw [nothing, List.length_append, List.length_nil] at shorter
    omega
  -- What is taken ends like the type, and only an operator joins such an end to a name.
  · intro clear
    by_contra some
    rcases inside with ⟨before, rfl⟩
    have last := List.getLast?_eq_some_getLast some
    rw [List.getLast?_append_of_ne_nil _ some] at apart
    have ends := endsInOperator_of_owned path ⟨_, last, not_path_of_apart (apart _ last)⟩ owned
    exact clear (ends.of_suffix (List.suffix_append before taken))
  · intro c start
    rcases owned.begins CalledLeaf.begins with ⟨d, begins, part⟩
    rw [List.head?_append, Option.mem_def.mp start, Option.some_or] at begins
    cases begins
    exact isBlank_of_isPathPart part

/-- Behind a type a signature declares the name that stands before the parameter list, unless
the type ends in an operator. A part of the type is then taken for a part of the name. -/
theorem signature_declares_name {returned name : Text} (uncalled : '(' ∉ returned)
    (apart : ∀ c ∈ returned.getLast?, isBlank c = true ∨ c = '*' ∨ c = '&') (path : Path name)
    (parameters suffix : Text) :
    let argument := returned ++ name ++ '(' :: parameters ++ ')' :: suffix
    (ofArgument? argument = some name ↔ ¬EndsInOperator returned) ∧
      ∃ taken, taken <:+ returned ∧
        ofArgument? argument = some (taken.filter (!isBlank ·) ++ name) := by
  intro argument
  rcases firstCall?_signature uncalled apart path (Text.trimEnd (parameters ++ ')' :: suffix)) with
    ⟨taken, inside, first, clear, start⟩
  have solid : isBlank '(' = false := by decide
  have whole : argument = returned ++ name ++ '(' :: (parameters ++ ')' :: suffix) := by
    simp [argument]
  have declared : ofArgument? argument = some (taken.filter (!isBlank ·) ++ name) := by
    rw [ofArgument?, whole, Text.trim_append_cons solid, firstCall?_trimStart, first,
      Option.some_or]
  refine ⟨?_, taken, inside, declared⟩
  rw [declared, Option.some.injEq, List.append_left_eq_self, ← clear]
  cases taken with
  | nil => simp
  | cons c letters => simp [start c rfl]

/-- The letters of the keyword do no harm here, as a blank stands between them and the name. -/
theorem signature_declares_destructor :
    let returned : Text := "my_operator<A> const &"
    let name : Text := "Foo::~Foo"
    '(' ∉ returned ∧ (∀ c ∈ returned.getLast?, isBlank c = true ∨ c = '*' ∨ c = '&') ∧
      Path name ∧ ¬EndsInOperator returned ∧
      ofArgument? (returned ++ name ++ '(' :: "int (*f)(int)" ++ ')' :: " const") = some name := by
  intro returned name
  have uncalled : '(' ∉ returned := by decide
  have finish : returned.getLast? = some '&' := by decide
  have apart : ∀ c ∈ returned.getLast?, isBlank c = true ∨ c = '*' ∨ c = '&' := by
    rw [finish]
    intro c same
    cases same
    decide
  have first : Word ['F', 'o', 'o'] := .identifier (by decide) (List.all_eq_true.mp (by decide))
  have last : Word ['~', 'F', 'o', 'o'] := .destructor (by decide) (List.all_eq_true.mp (by decide))
  have path : Path name := .owner first (.leaf last)
  have clear : ¬EndsInOperator returned := by decide
  exact ⟨uncalled, apart, path, clear,
    (signature_declares_name uncalled apart path _ _).1.mpr clear⟩

/-- An identifier that ends in the letters of the keyword is no operator, yet it is read as one
that takes the name behind it for its sign. -/
theorem operator_letters_join_name :
    let returned : Text := "my_operator "
    let name : Text := "foo"
    (∀ c ∈ returned, isIdentifierPart c = true ∨ isBlank c = true) ∧
      operatorWord ∉ returned.splitOnP (!isIdentifierPart ·) ∧
      (∀ c ∈ returned.getLast?, isBlank c = true) ∧ Path name ∧
      ofArgument? (returned ++ name ++ ['(', ')']) = some "operatorfoo" ∧
      ofArgument? (returned ++ name ++ ['(', ')']) ≠ some name := by
  intro returned name
  have path : Path name := .leaf (.identifier (by decide) (List.all_eq_true.mp (by decide)))
  have checked : returned.all (fun c => isIdentifierPart c || isBlank c) = true := by decide
  have letters : ∀ c ∈ returned, isIdentifierPart c = true ∨ isBlank c = true := fun c member =>
    (Bool.or_eq_true _ _).mp (List.all_eq_true.mp checked c member)
  have finish : returned.getLast? = some ' ' := by decide
  have apart : ∀ c ∈ returned.getLast?, isBlank c = true := by
    rw [finish]
    intro c same
    cases same
    decide
  exact ⟨letters, by decide, apart, path, by decide +kernel, by decide +kernel⟩

end DocAtlas.Name
