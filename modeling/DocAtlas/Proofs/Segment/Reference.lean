import DocAtlas.Proofs.Name.Spelling
import DocAtlas.Proofs.Segment.Opaque

/-!
# Laws of references in prose

The word behind a command is marked up without the punctuation of the sentence. Main statement:
a call that is referred to keeps its parameter list, also where a sentence in parentheses ends
behind it, and it refers to what its name alone refers to.
-/

namespace DocAtlas

open Name (Balanced)
open Text (isBlank)

/-! ## Words at the end of a sentence -/

theorem Sheds.of_append {value shed : Text} {c : Char} (sheds : Sheds value (shed ++ [c])) :
    Sheds value shed where
  punctuation := fun d member => sheds.punctuation d (List.mem_append_left _ member)
  surplus := by
    intro inside after parts
    apply sheds.surplus inside (after ++ [c])
    rw [parts, List.append_assoc, List.cons_append]
  finish := sheds.finish

theorem Sheds.no_backslash {value shed : Text} (sheds : Sheds value shed) : '\\' ∉ shed := by
  intro backslash
  exact absurd (sheds.punctuation '\\' backslash) (by decide)

theorem trimPunctuation_concat {word : Text} {c : Char} (punctuation : isPunctuation c = true)
    (surplus : c = ')' → word.count '(' ≤ word.count ')') :
    trimPunctuation (word ++ [c]) = trimPunctuation word := by
  have dropped : ¬c = ')' ∨
      (c :: word.reverse).count '(' < (c :: word.reverse).count ')' := by
    by_cases closing : c = ')'
    · subst closing
      have more := surplus rfl
      rw [List.count_cons_self, List.count_cons_of_ne (by decide), List.count_reverse,
        List.count_reverse]
      omega
    · exact .inl closing
  rw [trimPunctuation, List.reverse_append, List.reverse_singleton, List.singleton_append,
    dropPunctuation, if_pos (by simpa [punctuation] using dropped)]
  rfl

theorem trimPunctuation_eq_self {value : Text}
    (finish : ∀ c ∈ value.getLast?, isPunctuation c = true →
      c = ')' ∧ value.count ')' ≤ value.count '(') : trimPunctuation value = value := by
  rcases List.eq_nil_or_concat value with rfl | ⟨word, c, rfl⟩
  · rfl
  · rw [List.concat_eq_append, List.getLast?_concat] at finish
    have kept := finish c rfl
    rw [← List.count_reverse, ← List.count_reverse (a := '(')] at kept
    rw [List.concat_eq_append, trimPunctuation]
    rw [List.reverse_append, List.reverse_singleton, List.singleton_append] at kept ⊢
    rw [dropPunctuation, if_neg (by simpa using kept), List.reverse_cons, List.reverse_reverse]

theorem Sheds.trimPunctuation_eq {value shed : Text} (sheds : Sheds value shed) :
    trimPunctuation (value ++ shed) = value := by
  induction shed using List.reverseRecOn with
  | nil =>
    rw [List.append_nil]
    exact trimPunctuation_eq_self sheds.finish
  | append_singleton shed c induction =>
    have punctuation : isPunctuation c = true := sheds.punctuation c (by simp)
    have surplus : c = ')' → (value ++ shed).count '(' ≤ (value ++ shed).count ')' := by
      intro closing
      subst closing
      exact sheds.surplus shed [] rfl
    rw [← List.append_assoc, trimPunctuation_concat punctuation surplus]
    exact induction sheds.of_append

theorem sheds_of_count_eq {value shed : Text} (counts : value.count '(' = value.count ')')
    (finish : ∀ c ∈ value.getLast?, isPunctuation c = true → c = ')')
    (punctuation : ∀ c ∈ shed, isPunctuation c = true) : Sheds value shed where
  punctuation := punctuation
  surplus := by
    intro inside after parts
    have noOpening : '(' ∉ inside := by
      intro opening
      have sign := punctuation '(' (by simp [parts, opening])
      exact absurd sign (by decide)
    rw [List.count_append, List.count_append, List.count_eq_zero_of_not_mem noOpening]
    omega
  finish := fun c last sign => ⟨finish c last sign, counts.ge⟩

theorem isWordPart_of_isPunctuation {c : Char} (sign : isPunctuation c = true) :
    InlineArgument.isWordPart c = true := by
  have signs : ∀ c ∈ ['.', ',', ';', ':', '!', '?', ')'], InlineArgument.isWordPart c = true :=
    List.all_eq_true.mp (by decide)
  exact signs c (of_decide_eq_true sign)

namespace InlineArgument

theorem read_word {blanks word rest : Text} (some : blanks ≠ [])
    (allBlank : ∀ c ∈ blanks, isBlank c = true) (full : word ≠ [])
    (letters : ∀ c ∈ word, isWordPart c = true)
    (stops : ∀ c ∈ rest.head?, isWordPart c = false) :
    read (blanks ++ word ++ rest) = (.word blanks word, rest) := by
  have solid : ∀ c ∈ (word ++ rest).head?, isBlank c = false ∧ c ≠ '{' := by
    rw [List.head?_append_of_ne_nil _ full]
    intro c first
    have letter := letters c (List.mem_of_mem_head? first)
    simp only [isWordPart, Bool.and_eq_true, Bool.not_eq_true', bne_iff_ne] at letter
    exact letter.1
  have unblank := fun c first => (solid c first).1
  have taken : (blanks ++ (word ++ rest)).takeWhile isBlank = blanks :=
    takeWhile_append_stop allBlank unblank
  have left : (blanks ++ (word ++ rest)).dropWhile isBlank = word ++ rest :=
    dropWhile_append_stop allBlank unblank
  have found : ¬(blanks = [] ∨ (word ++ rest).takeWhile isWordPart = []) := by
    rw [takeWhile_append_stop letters stops]
    exact not_or.mpr ⟨some, full⟩
  rw [List.append_assoc, read, taken, left]
  split
  · next opening =>
    rw [opening] at solid
    exact absurd rfl (solid '{' rfl).2
  · rw [if_neg found, takeWhile_append_stop letters stops, dropWhile_append_stop letters stops]

theorem no_backslash_shed (argument : InlineArgument) : '\\' ∉ argument.shed := by
  cases argument with
  | word blanks letters => exact (sheds_trimPunctuation letters).no_backslash
  | _ => exact List.not_mem_nil

end InlineArgument

/-! ## Prose with one reference -/

namespace Segment

def plain (text : Text) : List Segment := if text = [] then [] else [.text text]

theorem prependText_reference (front value target : Text) (rest : List Segment) :
    prependText front (.reference value target :: rest) =
      plain front ++ .reference value target :: rest := by
  cases front with
  | nil => rfl
  | cons c front => rfl

theorem prependText_nil (front : Text) : prependText front [] = plain front := by
  cases front with
  | nil => rfl
  | cons c front => rfl

/-- What a known command marks up is a segment; prose goes on with what the argument sheds. -/
theorem ofProse_marked {style : InlineStyle} {name behind : Text} (lettered : name ≠ [])
    (alphabetic : ∀ c ∈ name, c.isAlpha = true) (stops : ∀ c ∈ behind.head?, c.isAlpha = false)
    (known : Vocabulary.inlineStyle? name = some style)
    (full : (InlineArgument.read behind).1.marked ≠ []) :
    ofProse ('\\' :: (name ++ behind)) =
      ofStyle style (InlineArgument.read behind).1.marked ::
        ofProse ((InlineArgument.read behind).1.shed ++ (InlineArgument.read behind).2) := by
  rw [ofProse_without_backslash (InlineArgument.no_backslash_shed _), ofProse,
    Piece.ofProse_command lettered alphabetic stops, ofPieces_marked known full]
  rfl

/-- Up to its first command prose is kept. The command becomes a segment if it is known and has
something to mark up; otherwise it is kept with its argument. Then prose is read on. -/
theorem first_command_is_read {front name behind : Text} (plainFront : '\\' ∉ front)
    (lettered : name ≠ []) (alphabetic : ∀ c ∈ name, c.isAlpha = true)
    (stops : ∀ c ∈ behind.head?, c.isAlpha = false) :
    let argument := (InlineArgument.read behind).1
    let rest := (InlineArgument.read behind).2
    (∀ style, Vocabulary.inlineStyle? name = some style → argument.marked ≠ [] →
      ofProse (front ++ '\\' :: (name ++ behind)) =
        prependText front (ofStyle style argument.marked :: ofProse (argument.shed ++ rest))) ∧
      (Vocabulary.inlineStyle? name = none ∨ argument.marked = [] →
        ofProse (front ++ '\\' :: (name ++ behind)) =
          prependText (front ++ ('\\' :: name ++ argument.written)) (ofProse rest)) := by
  intro argument rest
  rw [ofProse_without_backslash plainFront, prependText_append]
  constructor
  · intro style known full
    rw [ofProse_marked lettered alphabetic stops known full]
  · intro idle
    rw [ofProse_unmarked lettered alphabetic stops idle]

theorem ofProse_word {style : InlineStyle} {name blanks value shed rest : Text}
    (named : Vocabulary.inlineStyle? name = some style) (some : name ≠ [])
    (alphabetic : ∀ c ∈ name, c.isAlpha = true) (apart : blanks ≠ [])
    (allBlank : ∀ c ∈ blanks, isBlank c = true) (full : value ≠ [])
    (letters : ∀ c ∈ value ++ shed, InlineArgument.isWordPart c = true)
    (stops : ∀ c ∈ rest.head?, InlineArgument.isWordPart c = false) (sheds : Sheds value shed) :
    ofProse ('\\' :: (name ++ (blanks ++ (value ++ shed) ++ rest))) =
      ofStyle style value :: ofProse (shed ++ rest) := by
  have read := InlineArgument.read_word apart allBlank (List.append_ne_nil_of_left_ne_nil full shed)
    letters stops
  have first : ∀ c ∈ (blanks ++ (value ++ shed) ++ rest).head?, c.isAlpha = false := by
    rw [List.append_assoc, List.head?_append_of_ne_nil _ apart]
    intro c first
    have blank := allBlank c (List.mem_of_mem_head? first)
    by_contra letter
    rw [Bool.not_eq_false] at letter
    have part := InlineArgument.isWordPart_of_isAlpha letter
    simp [InlineArgument.isWordPart, blank] at part
  have marked : (InlineArgument.word blanks (value ++ shed)).marked = value :=
    sheds.trimPunctuation_eq
  have left : (InlineArgument.word blanks (value ++ shed)).shed = shed := by
    rw [InlineArgument.shed, sheds.trimPunctuation_eq, List.drop_left]
  rw [ofProse_marked some alphabetic first named (by rwa [read, marked]), read, marked, left]

theorem ofProse_plain {text : Text} (plainText : '\\' ∉ text) : ofProse text = plain text := by
  have kept := ofProse_without_backslash plainText []
  have nothing : ofProse [] = [] := by
    rw [ofProse, Piece.ofProse]
    rfl
  rwa [List.append_nil, nothing, prependText_nil] at kept

theorem ofProse_reference {before value shed after : Text} (plainBefore : '\\' ∉ before)
    (full : value ≠ []) (letters : ∀ c ∈ value, InlineArgument.isWordPart c = true)
    (counts : value.count '(' = value.count ')')
    (finish : ∀ c ∈ value.getLast?, isPunctuation c = true → c = ')')
    (punctuation : ∀ c ∈ shed, isPunctuation c = true)
    (apart : ∀ c ∈ after.head?, isBlank c = true) (plainAfter : '\\' ∉ after) :
    ofProse (before ++ '\\' :: 'l' :: ' ' :: value ++ shed ++ after) =
      plain before ++ .reference value (Name.ofReference value) :: plain (shed ++ after) := by
  have named : Vocabulary.inlineStyle? ['l'] = some .reference := rfl
  have alphabetic : ∀ c ∈ ['l'], c.isAlpha = true := List.all_eq_true.mp (by decide)
  have blank : ∀ c ∈ [' '], isBlank c = true := List.all_eq_true.mp (by decide)
  have word : ∀ c ∈ value ++ shed, InlineArgument.isWordPart c = true :=
    List.forall_mem_append.mpr
      ⟨letters, fun c member => isWordPart_of_isPunctuation (punctuation c member)⟩
  have stops : ∀ c ∈ after.head?, InlineArgument.isWordPart c = false := by
    intro c first
    simp [InlineArgument.isWordPart, apart c first]
  have sheds := sheds_of_count_eq counts finish punctuation
  have marked := ofProse_word named (by decide) alphabetic (by decide) blank full word stops sheds
  have noBackslash : '\\' ∉ shed ++ after := by
    rw [List.mem_append, not_or]
    exact ⟨sheds.no_backslash, plainAfter⟩
  have text : before ++ '\\' :: 'l' :: ' ' :: value ++ shed ++ after =
      before ++ '\\' :: (['l'] ++ ([' '] ++ (value ++ shed) ++ after)) := by simp
  rw [text, ofProse_without_backslash plainBefore, marked, ofProse_plain noBackslash]
  exact prependText_reference before value _ _

/-- A call is referred to with its parameter list, and a name by itself, without the punctuation
behind them; the target is the name both times. Punctuation is shed whatever parentheses it
has, as those of the call close each other. -/
theorem reference_keeps_call {before name parameters shed after : Text} (path : Name.Path name)
    (balanced : Balanced parameters)
    (solid : ∀ c ∈ parameters, InlineArgument.isWordPart c = true)
    (punctuation : ∀ c ∈ shed, isPunctuation c = true)
    (plainBefore : '\\' ∉ before) (plainAfter : '\\' ∉ after)
    (apart : ∀ c ∈ after.head?, isBlank c = true) :
    let call := name ++ '(' :: parameters ++ [')']
    ofProse (before ++ '\\' :: 'l' :: ' ' :: call ++ shed ++ after) =
        plain before ++ .reference call name :: plain (shed ++ after) ∧
      ofProse (before ++ '\\' :: 'l' :: ' ' :: name ++ shed ++ after) =
        plain before ++ .reference name name :: plain (shed ++ after) := by
  intro call
  have letters : ∀ c ∈ name, InlineArgument.isWordPart c = true := fun c member =>
    InlineArgument.isWordPart_of_isPathPart (path.forall_mem c member)
  have opening : name.count '(' = 0 := List.count_eq_zero_of_not_mem (path.not_mem (by decide))
  have closing : name.count ')' = 0 := List.count_eq_zero_of_not_mem (path.not_mem (by decide))
  constructor
  · have counts : call.count '(' = call.count ')' := by
      have inner := Name.count_of_closesAll balanced
      simp [call, opening, closing]
      omega
    have whole : ∀ c ∈ call, InlineArgument.isWordPart c = true := by
      rw [List.forall_mem_append, List.forall_mem_append, List.forall_mem_cons]
      exact ⟨⟨letters, by decide, solid⟩, List.forall_mem_singleton.mpr (by decide)⟩
    have finish : ∀ c ∈ call.getLast?, isPunctuation c = true → c = ')' := by
      rw [List.getLast?_concat]
      intro c last _
      cases last
      rfl
    have target : Name.ofReference call = name := by
      have named := Name.ofReference_call path (List.forall_mem_nil _) parameters
      rwa [List.nil_append, ← List.append_assoc] at named
    have marked := ofProse_reference plainBefore (by simp [call]) whole counts finish punctuation
      apart plainAfter
    rwa [target] at marked
  · have finish : ∀ c ∈ name.getLast?, isPunctuation c = true → c = ')' := by
      intro c last sign
      have signs : ∀ c ∈ ['.', ',', ';', ':', '!', '?', ')'],
          (!Name.isIdentifierPart c) = true := List.all_eq_true.mp (by decide)
      have other := signs c (of_decide_eq_true sign)
      rw [path.ends c last] at other
      cases other
    have marked := ofProse_reference plainBefore path.ne_nil letters (opening.trans closing.symm)
      finish punctuation apart plainAfter
    rwa [Name.ofReference_path path] at marked

/-- The call keeps both its parentheses, and the one behind it goes with the full stop. -/
theorem reference_keeps_nested_call :
    let before : Text := "(See "
    let name : Text := "Foo::bar"
    let parameters : Text := "f(x),\\b"
    let shed : Text := ")."
    let after : Text := " and more"
    Name.Path name ∧ Balanced parameters ∧ (∀ c ∈ parameters, InlineArgument.isWordPart c = true) ∧
      (∀ c ∈ shed, isPunctuation c = true) ∧ '\\' ∉ before ∧ '\\' ∉ after ∧
      (∀ c ∈ after.head?, isBlank c = true) ∧
      ofProse "(See \\l Foo::bar(f(x),\\b)). and more" =
        [.text "(See ", .reference "Foo::bar(f(x),\\b)" "Foo::bar", .text "). and more"] ∧
      ofProse "(See \\l Foo::bar). and more" =
        [.text "(See ", .reference "Foo::bar" "Foo::bar", .text "). and more"] := by
  intro before name parameters shed after
  have owner : Name.Word ['F', 'o', 'o'] :=
    .identifier (by decide) (List.all_eq_true.mp (by decide))
  have leaf : Name.Word ['b', 'a', 'r'] :=
    .identifier (by decide) (List.all_eq_true.mp (by decide))
  have path : Name.Path name := .owner owner (.leaf leaf)
  have balanced : Balanced parameters := by decide
  have solid : ∀ c ∈ parameters, InlineArgument.isWordPart c = true :=
    List.all_eq_true.mp (by decide)
  have punctuation : ∀ c ∈ shed, isPunctuation c = true := List.all_eq_true.mp (by decide)
  have plainBefore : '\\' ∉ before := by decide
  have plainAfter : '\\' ∉ after := by decide
  have apart : ∀ c ∈ after.head?, isBlank c = true := by
    intro c first
    cases first
    decide
  have marked :=
    reference_keeps_call path balanced solid punctuation plainBefore plainAfter apart
  exact ⟨path, balanced, solid, punctuation, plainBefore, plainAfter, apart, marked.1, marked.2⟩

end Segment

end DocAtlas
