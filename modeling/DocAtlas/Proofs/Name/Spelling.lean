import DocAtlas.Name.Spelling
import DocAtlas.Proofs.Lists
import DocAtlas.Proofs.Text.Trim

/-!
# Laws of names in longer texts

A name is a path: owners with `::` behind each of them, and a leaf. What a form reads is such
a path whose leaf is of the form's kind, and it stands at the beginning of the text, also where
more is looked at behind it. Main statements: a path of identifiers before a parameter list is
read as a call of just this name, and so as a reference to it; a reference that says anything
has a name.
-/

namespace DocAtlas.Name

open Text (isBlank trim)

/-! ## Identifiers -/

inductive Word : Text → Prop
  | identifier {c : Char} {letters : Text} :
      isIdentifierStart c = true → (∀ d ∈ letters, isIdentifierPart d = true) →
      Word (c :: letters)
  | destructor {c : Char} {letters : Text} :
      isIdentifierStart c = true → (∀ d ∈ letters, isIdentifierPart d = true) →
      Word ('~' :: c :: letters)

def isPathPart (c : Char) : Bool := isIdentifierPart c || c == '~' || c == ':'

theorem code_of_isPathPart {c : Char} (part : isPathPart c = true) :
    48 ≤ c.toNat ∧ c.toNat ≤ 126 := by
  simp only [isPathPart, isIdentifierPart, Bool.or_eq_true, beq_iff_eq] at part
  rcases part with ((letter | rfl) | rfl) | rfl
  · have bounds : (decide ('A'.val ≤ c.val ∧ c.val ≤ 'Z'.val) ||
        decide ('a'.val ≤ c.val) && decide (c.val ≤ 'z'.val) ||
        decide ('0'.val ≤ c.val) && decide (c.val ≤ '9'.val)) = true := letter
    have values : (65 ≤ c.toNat ∧ c.toNat ≤ 90 ∨ 97 ≤ c.toNat ∧ c.toNat ≤ 122) ∨
        48 ≤ c.toNat ∧ c.toNat ≤ 57 := by
      simpa [UInt32.le_iff_toNat_le] using bounds
    omega
  all_goals decide

theorem isBlank_of_isPathPart {c : Char} (part : isPathPart c = true) : isBlank c = false := by
  have code := code_of_isPathPart part
  simp only [isBlank, Bool.or_eq_false_iff, Bool.and_eq_false_iff, decide_eq_false_iff_not,
    beq_eq_false_iff_ne]
  omega

theorem not_path_of_isBlank {c : Char} (blank : isBlank c = true) : isPathPart c = false := by
  by_contra part
  rw [Bool.not_eq_false] at part
  rw [isBlank_of_isPathPart part] at blank
  cases blank

theorem isIdentifierPart_of_start {c : Char} (start : isIdentifierStart c = true) :
    isIdentifierPart c = true := by
  rw [isIdentifierStart, Bool.or_eq_true] at start
  rw [isIdentifierPart, Char.isAlphanum, Bool.or_eq_true, Bool.or_eq_true]
  exact start.imp_left .inl

theorem isPathPart_of_isIdentifierPart {c : Char} (part : isIdentifierPart c = true) :
    isPathPart c = true := by
  rw [isPathPart, part, Bool.true_or, Bool.true_or]

theorem isIdentifierPart_of_not_path {c : Char} (other : isPathPart c = false) :
    isIdentifierPart c = false := by
  rw [isPathPart, Bool.or_eq_false_iff, Bool.or_eq_false_iff] at other
  exact other.1.1

theorem Word.forall_mem {word : Text} (spelled : Word word) : ∀ c ∈ word, isPathPart c = true := by
  have path {c : Char} {letters : Text} (start : isIdentifierStart c = true)
      (parts : ∀ d ∈ letters, isIdentifierPart d = true) :
      ∀ d ∈ c :: letters, isPathPart d = true := by
    rw [List.forall_mem_cons]
    exact ⟨isPathPart_of_isIdentifierPart (isIdentifierPart_of_start start),
      fun d member => isPathPart_of_isIdentifierPart (parts d member)⟩
  cases spelled with
  | identifier start parts => exact path start parts
  | destructor start parts => exact List.forall_mem_cons.mpr ⟨by decide, path start parts⟩

theorem Word.begins {word : Text} (spelled : Word word) :
    ∃ c ∈ word.head?, isPathPart c = true := by
  have parts := spelled.forall_mem
  cases spelled with
  | identifier _ _ => exact ⟨_, rfl, parts _ List.mem_cons_self⟩
  | destructor _ _ => exact ⟨_, rfl, parts _ List.mem_cons_self⟩

theorem identifier?_append {word behind : Text} (spelled : Word word)
    (stops : ∀ c ∈ behind.head?, isIdentifierPart c = false) :
    identifier? (word ++ behind) = some (word, behind) := by
  cases spelled with
  | @identifier c letters start parts =>
    have noTilde : ∀ d rest, c = '~' → letters ++ behind = d :: rest → False := by
      intro _ _ tilde _
      rw [tilde] at start
      exact absurd start (by decide)
    rw [List.cons_append, identifier?.eq_2 _ _ noTilde, if_pos start,
      takeWhile_append_stop parts stops, dropWhile_append_stop parts stops]
  | destructor start parts =>
    rw [List.cons_append, List.cons_append, identifier?, if_pos start,
      takeWhile_append_stop parts stops, dropWhile_append_stop parts stops]

theorem word_of_identifier? {text word rest : Text} (read : identifier? text = some (word, rest)) :
    Word word := by
  unfold identifier? at read
  split at read
  · split at read
    · next start =>
      cases read
      exact .destructor start fun d => List.mem_takeWhile_imp
    · cases read
  · split at read
    · next start =>
      cases read
      exact .identifier start fun d => List.mem_takeWhile_imp
    · cases read
  · cases read

/-! ## Paths -/

/-- Owners with a separator behind each, and a leaf of some kind. -/
inductive Owned (Leaf : Text → Prop) : Text → Prop
  | leaf {name : Text} : Leaf name → Owned Leaf name
  | owner {word name : Text} : Word word → Owned Leaf name →
      Owned Leaf (word ++ separator ++ name)

abbrev Path : Text → Prop := Owned Word

theorem Owned.forall_mem {Leaf : Text → Prop} {holds : Char → Prop}
    (path : ∀ c, isPathPart c = true → holds c)
    (leaves : ∀ {name}, Leaf name → ∀ c ∈ name, holds c) {name : Text} (owned : Owned Leaf name) :
    ∀ c ∈ name, holds c := by
  induction owned with
  | leaf leaf => exact leaves leaf
  | owner spelled _ induction =>
    rw [List.forall_mem_append, List.forall_mem_append]
    refine ⟨⟨fun c member => path c (spelled.forall_mem c member), ?_⟩, induction⟩
    have colons : ∀ c ∈ separator, isPathPart c = true := List.all_eq_true.mp (by decide)
    exact fun c member => path c (colons c member)

theorem Path.forall_mem {name : Text} (path : Path name) : ∀ c ∈ name, isPathPart c = true :=
  Owned.forall_mem (fun _ part => part) Word.forall_mem path

theorem Owned.begins {Leaf : Text → Prop}
    (leaves : ∀ {name}, Leaf name → ∃ c ∈ name.head?, isPathPart c = true) {name : Text}
    (owned : Owned Leaf name) : ∃ c ∈ name.head?, isPathPart c = true := by
  cases owned with
  | leaf leaf => exact leaves leaf
  | owner spelled _ =>
    rcases spelled.begins with ⟨c, first, part⟩
    refine ⟨c, ?_, part⟩
    rw [List.head?_append, List.head?_append, Option.mem_def.mp first, Option.some_or,
      Option.some_or]
    rfl

theorem Path.ne_nil {name : Text} (path : Path name) : name ≠ [] := by
  rcases Owned.begins Word.begins path with ⟨c, first, _⟩
  exact List.ne_nil_of_mem (List.mem_of_mem_head? first)

theorem Path.ends {name : Text} (path : Path name) :
    ∀ c ∈ name.getLast?, isIdentifierPart c = true := by
  have word {c : Char} {letters : Text} (start : isIdentifierStart c = true)
      (parts : ∀ d ∈ letters, isIdentifierPart d = true) :
      ∀ d ∈ c :: letters, isIdentifierPart d = true :=
    List.forall_mem_cons.mpr ⟨isIdentifierPart_of_start start, parts⟩
  intro c last
  induction path with
  | leaf spelled =>
    cases spelled with
    | identifier start parts => exact word start parts c (List.mem_of_mem_getLast? last)
    | destructor start parts =>
      rw [List.getLast?_cons_cons] at last
      exact word start parts c (List.mem_of_mem_getLast? last)
  | owner _ path induction =>
    rw [List.getLast?_append_of_ne_nil _ (Path.ne_nil path)] at last
    exact induction last

theorem Path.not_blank {name : Text} (path : Path name) : ∀ c ∈ name, isBlank c = false :=
  fun c member => isBlank_of_isPathPart (path.forall_mem c member)

theorem Path.not_mem {name : Text} (path : Path name) {c : Char} (other : isPathPart c = false) :
    c ∉ name := by
  intro member
  rw [path.forall_mem c member] at other
  cases other

theorem Path.filter_eq {name : Text} (path : Path name) : name.filter (!isBlank ·) = name :=
  List.filter_eq_self.mpr fun c member => by simp [path.not_blank c member]

theorem owner_append {word : Text} (spelled : Word word) (behind : Text) :
    owner (word ++ separator ++ behind) = some (word ++ separator, behind) := by
  have stops : ∀ c ∈ (separator ++ behind).head?, isIdentifierPart c = false := by
    intro c first
    cases first
    decide
  have dropped : Text.dropStart? separator (separator ++ behind) = some behind :=
    Text.dropStart?_eq_some.mpr rfl
  rw [owner, List.append_assoc, identifier?_append spelled stops]
  simp [dropped]

theorem exists_word_of_owner {text first after : Text} (read : owner text = some (first, after)) :
    ∃ word, Word word ∧ first = word ++ separator := by
  simp only [owner, Option.bind_eq_bind, Option.pure_def, Option.bind_eq_some_iff] at read
  rcases read with ⟨⟨word, behind⟩, found, rest, _, equal⟩
  cases equal
  exact ⟨word, word_of_identifier? found, rfl⟩

theorem owner_eq_none {word behind : Text} (spelled : Word word)
    (stops : ∀ c ∈ behind.head?, isIdentifierPart c = false) (apart : ¬separator <+: behind) :
    owner (word ++ behind) = none := by
  have missing : Text.dropStart? separator behind = none := by
    cases dropped : Text.dropStart? separator behind with
    | none => rfl
    | some rest => exact absurd ⟨rest, (Text.dropStart?_eq_some.mp dropped).symm⟩ apart
  rw [owner, identifier?_append spelled stops]
  simp [missing]

/-! ## Reading a path -/

def Form.Spells (form : Form) (Leaf : Text → Prop) (Behind : Text → Text → Prop) : Prop :=
  ∀ {text name rest}, form text = some (name, rest) →
    Leaf name ∧ ∃ behind, text = name ++ behind ∧ Behind behind rest

theorem qualified_spells {form : Form} {Leaf : Text → Prop} {Behind : Text → Text → Prop}
    (spells : form.Spells Leaf Behind) : Form.Spells (qualified form) (Owned Leaf) Behind := by
  intro text name rest read
  fun_induction qualified form text generalizing name rest with
  | case1 text unowned =>
    have leaf := spells read
    exact ⟨.leaf leaf.1, leaf.2⟩
  | case2 text first after owned shorter inner innerRest found induction =>
    cases read
    rcases exists_word_of_owner owned with ⟨word, spelled, rfl⟩
    rcases induction found with ⟨path, behind, parts, follows⟩
    refine ⟨.owner spelled path, behind, ?_, follows⟩
    rw [(owner_exact owned).2, parts, List.append_assoc _ inner]
  | case3 text first after owned shorter missing induction =>
    have leaf := spells read
    exact ⟨.leaf leaf.1, leaf.2⟩

theorem qualified_of_unowned (form : Form) {text : Text} (unowned : owner text = none) :
    qualified form text = form text := by
  rw [qualified]
  split
  · rfl
  · next owned =>
    rw [unowned] at owned
    cases owned

theorem qualified_owner {form : Form} {word after name rest : Text} (spelled : Word word)
    (read : qualified form after = some (name, rest)) :
    qualified form (word ++ separator ++ after) = some (word ++ separator ++ name, rest) := by
  have owned := owner_append spelled after
  rw [qualified]
  split
  · next unowned =>
    rw [owned] at unowned
    cases unowned
  · next found =>
    rw [owned] at found
    cases found
    rw [read]

/-- Where a leaf can be read a name can, if not always that leaf. -/
theorem qualified_ne_none {form : Form} {text : Text} (leaf : form text ≠ none) :
    qualified form text ≠ none := by
  rw [qualified]
  split
  · exact leaf
  · dsimp only
    split
    · simp
    · exact leaf

/-! ## Calls -/

def Opens (behind rest : Text) : Prop := behind.dropWhile isBlank = '(' :: rest

theorem opens_append {blanks : Text} (allBlank : ∀ c ∈ blanks, isBlank c = true) (rest : Text) :
    Opens (blanks ++ '(' :: rest) rest := by
  apply dropWhile_append_stop allBlank
  intro c first
  cases first
  decide

theorem Opens.exists_blanks {behind rest : Text} (opens : Opens behind rest) :
    ∃ blanks, (∀ c ∈ blanks, isBlank c = true) ∧ behind = blanks ++ '(' :: rest := by
  refine ⟨behind.takeWhile isBlank, fun c => List.mem_takeWhile_imp, ?_⟩
  rw [← opens, List.takeWhile_append_dropWhile]

theorem Opens.starts {behind rest : Text} (opens : Opens behind rest) :
    ∀ c ∈ behind.head?, isBlank c = true ∨ c = '(' := by
  intro c first
  rcases opens.exists_blanks with ⟨blanks, allBlank, rfl⟩
  cases blanks with
  | nil =>
    cases first
    exact .inr rfl
  | cons blank others =>
    cases first
    exact .inl (allBlank _ List.mem_cons_self)

theorem Opens.not_path {behind rest : Text} (opens : Opens behind rest) :
    ∀ c ∈ behind.head?, isPathPart c = false := by
  intro c first
  rcases opens.starts c first with blank | rfl
  · exact not_path_of_isBlank blank
  · decide

theorem Opens.not_operator {behind rest : Text} (opens : Opens behind rest) :
    ∀ c ∈ behind.head?, isOperatorPart c = false := by
  intro c first
  rcases opens.starts c first with blank | rfl
  · simp [isOperatorPart, blank]
  · decide

theorem beforeCall_eq_some {name behind found rest : Text} :
    beforeCall name behind = some (found, rest) ↔ found = name ∧ Opens behind rest := by
  unfold beforeCall Opens
  split
  · next after opens =>
    rw [opens, Option.some.injEq, Prod.mk.injEq, List.cons.injEq, eq_comm, eq_comm (a := after)]
    simp
  · next other =>
    constructor
    · simp
    · intro opens
      exact absurd opens.2 (other rest)

/-- The leaf of a call: an identifier, or an operator up to a blank or the parameter list. -/
inductive CalledLeaf : Text → Prop
  | word {word : Text} : Word word → CalledLeaf word
  | operator {blanks sign : Text} : (∀ c ∈ blanks, isBlank c = true) → sign ≠ [] →
      (∀ c ∈ sign, isOperatorPart c = true) → CalledLeaf (operatorWord ++ blanks ++ sign)

theorem isOperatorPart_iff {c : Char} : isOperatorPart c = true ↔ isBlank c = false ∧ c ≠ '(' := by
  simp [isOperatorPart]

theorem isOperatorPart_of_isPathPart {c : Char} (part : isPathPart c = true) :
    isOperatorPart c = true := by
  refine isOperatorPart_iff.mpr ⟨isBlank_of_isPathPart part, ?_⟩
  intro parenthesis
  rw [parenthesis] at part
  exact absurd part (by decide)

theorem CalledLeaf.begins {name : Text} (leaf : CalledLeaf name) :
    ∃ c ∈ name.head?, isPathPart c = true := by
  cases leaf with
  | word spelled => exact spelled.begins
  | operator _ _ _ => exact ⟨'o', rfl, by decide⟩

theorem CalledLeaf.not_mem {name : Text} (leaf : CalledLeaf name) : ∀ c ∈ name, c ≠ '(' := by
  cases leaf with
  | word spelled =>
    intro c member
    exact (isOperatorPart_iff.mp (isOperatorPart_of_isPathPart (spelled.forall_mem c member))).2
  | operator allBlank _ parts =>
    rw [List.forall_mem_append, List.forall_mem_append]
    have keyword : '(' ∉ operatorWord := by decide
    refine ⟨⟨?_, ?_⟩, fun c member => (isOperatorPart_iff.mp (parts c member)).2⟩
    · intro c member parenthesis
      rw [parenthesis] at member
      exact keyword member
    · intro c member parenthesis
      rw [parenthesis] at member
      exact absurd (allBlank _ member) (by decide)

theorem Owned.not_mem {name : Text} (owned : Owned CalledLeaf name) : '(' ∉ name := by
  have other : ∀ c ∈ name, c ≠ '(' := Owned.forall_mem
    (fun _ part => (isOperatorPart_iff.mp (isOperatorPart_of_isPathPart part)).2)
    CalledLeaf.not_mem owned
  exact fun parenthesis => other _ parenthesis rfl

theorem calledOperator_spells : Form.Spells calledOperator CalledLeaf Opens := by
  intro text name rest read
  simp only [calledOperator, Option.bind_eq_bind, Option.bind_eq_some_iff] at read
  rcases read with ⟨after, dropped, read⟩
  split at read
  · cases read
  · next sign some =>
    rcases beforeCall_eq_some.mp read with ⟨rfl, opens⟩
    have blanks := List.takeWhile_append_dropWhile (p := isBlank) (l := after)
    have letters := List.takeWhile_append_dropWhile (p := isOperatorPart)
      (l := after.dropWhile isBlank)
    refine ⟨.operator (fun c => List.mem_takeWhile_imp) some fun c => List.mem_takeWhile_imp,
      _, ?_, opens⟩
    rw [Text.dropStart?_eq_some.mp dropped, List.append_assoc, List.append_assoc, letters, blanks]

theorem calledIdentifier_spells : Form.Spells calledIdentifier CalledLeaf Opens := by
  intro text name rest read
  simp only [calledIdentifier, Option.bind_eq_bind, Option.bind_eq_some_iff] at read
  rcases read with ⟨⟨word, behind⟩, found, read⟩
  rcases beforeCall_eq_some.mp read with ⟨rfl, opens⟩
  exact ⟨.word (word_of_identifier? found), behind, (identifier?_exact found).2, opens⟩

theorem calledLeaf_spells : Form.Spells calledLeaf CalledLeaf Opens := by
  intro text name rest read
  unfold calledLeaf at read
  cases operator : calledOperator text with
  | none => exact calledIdentifier_spells (by simpa [operator] using read)
  | some found => exact calledOperator_spells (by simpa [operator] using read)

theorem spelled_of_call? {text name : Text} (called : call? text = some name) :
    ∃ path behind rest, name = path.filter (!isBlank ·) ∧ Owned CalledLeaf path ∧
      text = path ++ behind ∧ Opens behind rest := by
  rcases Option.map_eq_some_iff.mp called with ⟨⟨path, rest⟩, found, rfl⟩
  rcases qualified_spells calledLeaf_spells found with ⟨owned, behind, parts, opens⟩
  exact ⟨path, behind, rest, rfl, owned, parts, opens⟩

theorem call?_eq_none {text : Text} (uncalled : '(' ∉ text) : call? text = none := by
  cases called : call? text with
  | none => rfl
  | some name =>
    rcases spelled_of_call? called with ⟨path, behind, rest, _, _, rfl, opens⟩
    rcases opens.exists_blanks with ⟨blanks, _, rfl⟩
    exact absurd (by simp) uncalled

theorem calledOperator_append {blanks sign behind rest : Text}
    (allBlank : ∀ c ∈ blanks, isBlank c = true) (full : sign ≠ [])
    (parts : ∀ c ∈ sign, isOperatorPart c = true) (opens : Opens behind rest) :
    calledOperator (operatorWord ++ blanks ++ sign ++ behind) =
      some (operatorWord ++ blanks ++ sign, rest) := by
  have solid : ∀ c ∈ (sign ++ behind).head?, isBlank c = false := by
    rw [List.head?_append_of_ne_nil _ full]
    exact fun c first => (isOperatorPart_iff.mp (parts c (List.mem_of_mem_head? first))).1
  have dropped : Text.dropStart? operatorWord (operatorWord ++ blanks ++ sign ++ behind) =
      some (blanks ++ (sign ++ behind)) := Text.dropStart?_eq_some.mpr (by simp)
  have accepted : beforeCall (operatorWord ++ blanks ++ sign) behind =
      some (operatorWord ++ blanks ++ sign, rest) := beforeCall_eq_some.mpr ⟨rfl, opens⟩
  rcases List.exists_cons_of_ne_nil full with ⟨c, letters, rfl⟩
  simp only [calledOperator, dropped, Option.bind_eq_bind, Option.bind_some,
    dropWhile_append_stop allBlank solid, takeWhile_append_stop allBlank solid,
    takeWhile_append_stop parts opens.not_operator,
    dropWhile_append_stop parts opens.not_operator, accepted]

theorem exists_sign_of_dropStart? {word behind after : Text}
    (stops : ∀ c ∈ behind.head?, isPathPart c = false)
    (dropped : Text.dropStart? operatorWord (word ++ behind) = some after) :
    ∃ sign, word = operatorWord ++ sign ∧ after = sign ++ behind := by
  rcases List.append_eq_append_iff.mp (Text.dropStart?_eq_some.mp dropped) with
    ⟨more, parts, rest⟩ | ⟨sign, parts, rest⟩
  · cases more with
    | nil => exact ⟨[], by rw [parts, List.append_nil, List.append_nil], rest.symm⟩
    | cons c more =>
      have part : isPathPart c = true := by
        have letters : ∀ d ∈ operatorWord, isPathPart d = true := List.all_eq_true.mp (by decide)
        exact letters c (by rw [parts]; simp)
      rw [rest] at stops
      rw [stops c rfl] at part
      cases part
  · exact ⟨sign, parts, rest⟩

theorem calledOperator_eq_none {behind rest : Text} (opens : Opens behind rest) :
    calledOperator (operatorWord ++ behind) = none := by
  have dropped : Text.dropStart? operatorWord (operatorWord ++ behind) = some behind :=
    Text.dropStart?_eq_some.mpr rfl
  have unsigned : (behind.dropWhile isBlank).takeWhile isOperatorPart = [] := by
    rw [opens]
    rfl
  simp [calledOperator, dropped, unsigned]

/-- An identifier before a parameter list is the leaf of a call, also if it begins with the
letters of the operator keyword. -/
theorem calledLeaf_append {word behind rest : Text} (spelled : Word word)
    (opens : Opens behind rest) : calledLeaf (word ++ behind) = some (word, rest) := by
  have operator : calledOperator (word ++ behind) = none ∨
      calledOperator (word ++ behind) = some (word, rest) := by
    cases dropped : Text.dropStart? operatorWord (word ++ behind) with
    | none => exact .inl (by simp [calledOperator, dropped])
    | some after =>
      rcases exists_sign_of_dropStart? opens.not_path dropped with ⟨sign, rfl, _⟩
      by_cases empty : sign = []
      · subst empty
        rw [List.append_nil]
        exact .inl (calledOperator_eq_none opens)
      · have parts : ∀ c ∈ sign, isOperatorPart c = true := fun c member =>
          isOperatorPart_of_isPathPart (spelled.forall_mem c (List.mem_append_right _ member))
        have read := calledOperator_append (List.forall_mem_nil _) empty parts opens
        rw [List.append_nil] at read
        exact .inr read
  have identifier : calledIdentifier (word ++ behind) = some (word, rest) := by
    have stops : ∀ c ∈ behind.head?, isIdentifierPart c = false := fun c first =>
      isIdentifierPart_of_not_path (opens.not_path c first)
    simp [calledIdentifier, identifier?_append spelled stops,
      beforeCall_eq_some.mpr ⟨rfl, opens⟩]
  rcases operator with missing | found
  · rw [calledLeaf, missing]
    exact identifier
  · rw [calledLeaf, found]
    rfl

theorem qualified_calledLeaf {name behind rest : Text} (path : Path name)
    (opens : Opens behind rest) : qualified calledLeaf (name ++ behind) = some (name, rest) := by
  induction path with
  | leaf spelled =>
    have apart : ¬separator <+: behind := by
      rintro ⟨more, rfl⟩
      exact absurd (opens.not_path ':' rfl) (by decide)
    have stops : ∀ c ∈ behind.head?, isIdentifierPart c = false := fun c first =>
      isIdentifierPart_of_not_path (opens.not_path c first)
    rw [qualified_of_unowned _ (owner_eq_none spelled stops apart)]
    exact calledLeaf_append spelled opens
  | owner spelled _ induction =>
    rw [List.append_assoc]
    exact qualified_owner spelled induction

/-- A path before a parameter list is the name of the call. -/
theorem call?_append {name behind rest : Text} (path : Path name) (opens : Opens behind rest) :
    call? (name ++ behind) = some name := by
  rw [call?, qualified_calledLeaf path opens, Option.map_some, path.filter_eq]

theorem firstCall?_eq_none {text : Text} :
    firstCall? text = none ↔ ∀ suffix, suffix <:+ text → call? suffix = none := by
  induction text with
  | nil =>
    have nothing : call? [] = none := call?_eq_none (List.not_mem_nil)
    simp [firstCall?, nothing]
  | cons c text induction =>
    rw [firstCall?, Option.or_eq_none_iff, induction]
    simp only [List.suffix_cons_iff, forall_eq_or_imp]

theorem exists_suffix_of_firstCall? {text name : Text} (found : firstCall? text = some name) :
    ∃ suffix, suffix <:+ text ∧ call? suffix = some name := by
  induction text with
  | nil => cases found
  | cons c text induction =>
    rcases Option.or_eq_some_iff.mp found with called | ⟨_, later⟩
    · exact ⟨c :: text, List.suffix_refl _, called⟩
    · rcases induction later with ⟨suffix, inside, called⟩
      exact ⟨suffix, inside.trans (List.suffix_cons c text), called⟩

theorem call?_cons_of_blank {c : Char} (blank : isBlank c = true) (text : Text) :
    call? (c :: text) = none := by
  cases called : call? (c :: text) with
  | none => rfl
  | some name =>
    rcases spelled_of_call? called with ⟨path, behind, _, _, owned, parts, _⟩
    rcases owned.begins CalledLeaf.begins with ⟨d, first, part⟩
    have same : (c :: text).head? = some d := by
      rw [parts, List.head?_append, Option.mem_def.mp first, Option.some_or]
    cases same
    rw [not_path_of_isBlank blank] at part
    cases part

theorem firstCall?_trimStart (text : Text) :
    firstCall? (Text.trimStart text) = firstCall? text := by
  induction text with
  | nil => rfl
  | cons c text induction =>
    by_cases blank : isBlank c = true
    · rw [firstCall?, call?_cons_of_blank blank, Option.none_or, ← induction, Text.trimStart,
        List.dropWhile_cons_of_pos blank]
      rfl
    · rw [Text.trimStart, List.dropWhile_cons_of_neg blank]

/-! ## Parameter lists -/

/-- All parentheses of a text are closed in it, and as many as are open before it. -/
def closesAll (depth : Nat) : Text → Bool
  | [] => depth == 0
  | c :: rest =>
    if c = '(' then closesAll (depth + 1) rest
    else if c = ')' then depth != 0 && closesAll (depth - 1) rest
    else closesAll depth rest

abbrev Balanced (text : Text) : Prop := closesAll 0 text = true

theorem count_of_closesAll {depth : Nat} {text : Text} (closes : closesAll depth text = true) :
    depth + text.count '(' = text.count ')' := by
  induction text generalizing depth with
  | nil => simpa [closesAll] using closes
  | cons c rest induction =>
    unfold closesAll at closes
    split at closes
    · next opening =>
      subst opening
      have counts := induction closes
      rw [List.count_cons_self, List.count_cons_of_ne (by decide)]
      omega
    · split at closes
      · next closing =>
        subst closing
        rw [Bool.and_eq_true, bne_iff_ne] at closes
        have counts := induction closes.2
        rw [List.count_cons_self, List.count_cons_of_ne (by decide)]
        omega
      · next other another =>
        rw [List.count_cons_of_ne another, List.count_cons_of_ne other]
        exact induction closes

/-! ## References -/

theorem ne_nil_of_call? {text name : Text} (called : call? text = some name) : name ≠ [] := by
  rcases spelled_of_call? called with ⟨path, _, _, rfl, owned, _, _⟩
  rcases owned.begins CalledLeaf.begins with ⟨c, first, part⟩
  apply List.ne_nil_of_mem (a := c)
  rw [List.mem_filter, isBlank_of_isPathPart part]
  exact ⟨List.mem_of_mem_head? first, rfl⟩

theorem ofReference_ne_nil {text : Text} (full : trim text ≠ []) : ofReference text ≠ [] := by
  unfold ofReference
  cases called : call? (trim text) with
  | none => exact full
  | some name => exact ne_nil_of_call? called

theorem ofReference_eq_self {name : Text} (uncalled : '(' ∉ name) (trimmed : Text.Trimmed name) :
    ofReference name = name := by
  rw [ofReference, trimmed.trim_eq, call?_eq_none uncalled, Option.getD_none]

theorem ofReference_path {name : Text} (path : Path name) : ofReference name = name := by
  apply ofReference_eq_self
  · exact path.not_mem (by decide)
  · exact Text.trimmed_of_not_blank path.not_blank

theorem ofReference_call {name blanks : Text} (path : Path name)
    (allBlank : ∀ c ∈ blanks, isBlank c = true) (parameters : Text) :
    ofReference (name ++ (blanks ++ '(' :: parameters ++ [')'])) = name := by
  have full : blanks ++ '(' :: parameters ++ [')'] ≠ [] := by simp
  have opens : Opens (blanks ++ '(' :: parameters ++ [')']) (parameters ++ [')']) := by
    rw [List.append_assoc]
    exact opens_append allBlank (parameters ++ [')'])
  have trimmed : Text.Trimmed (name ++ (blanks ++ '(' :: parameters ++ [')'])) := by
    constructor
    · rw [List.head?_append_of_ne_nil _ path.ne_nil]
      exact fun c first => path.not_blank c (List.mem_of_mem_head? first)
    · rw [List.getLast?_append_of_ne_nil _ full, List.getLast?_concat]
      intro c last
      cases last
      decide
  rw [ofReference, trimmed.trim_eq, call?_append path opens, Option.getD_some]

end DocAtlas.Name
