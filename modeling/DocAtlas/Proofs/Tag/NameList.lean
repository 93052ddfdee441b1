import DocAtlas.Proofs.Name.Spelling
import DocAtlas.Tag.NameList

/-!
# Laws of lists of names

A name in a list may be written as a call, in braces, and behind the reference command, with
blanks between all of these. Main statement: names that are written so, with commas between
them and a full stop at the end, are read as just these names.
-/

namespace DocAtlas.NameList

open Name (Balanced closesAll)
open Text (isBlank trim Trimmed)

/-! ## Cutting at commas -/

def Inert (c : Char) : Prop := c ≠ ',' ∧ c ≠ '(' ∧ c ≠ ')'

instance : DecidablePred Inert := fun c =>
  inferInstanceAs (Decidable (c ≠ ',' ∧ c ≠ '(' ∧ c ≠ ')'))

/-- A text that no cut divides at a depth of parentheses, and which leaves that depth behind. -/
def Undivided (depth : Nat) (text : Text) : Prop :=
  ∀ rest, cutOutside depth (text ++ rest) =
    (text ++ (cutOutside depth rest).1, (cutOutside depth rest).2)

theorem Undivided.append {depth : Nat} {first second : Text} (before : Undivided depth first)
    (after : Undivided depth second) : Undivided depth (first ++ second) := by
  intro rest
  rw [List.append_assoc, before, after, List.append_assoc]

theorem undivided_of_inert {depth : Nat} {text : Text} (inert : ∀ c ∈ text, Inert c) :
    Undivided depth text := by
  intro rest
  induction text with
  | nil => rfl
  | cons c letters induction =>
    rw [List.forall_mem_cons] at inert
    have comma : ¬(c = ',' ∧ depth = 0) := fun both => inert.1.1 both.1
    have level : depthAfter depth c = depth := by
      rw [depthAfter, if_neg inert.1.2.1, if_neg inert.1.2.2]
    rw [List.cons_append, cutOutside, if_neg comma, level, induction inert.2, List.cons_append]

/-- Inside parentheses nothing is cut. The induction runs through what stands at a depth below
the one outside. -/
theorem cutOutside_closing {depth : Nat} {inner : Text} (closes : closesAll depth inner = true)
    (outer : Nat) (rest : Text) :
    cutOutside (depth + outer + 1) (inner ++ rest) =
      (inner ++ (cutOutside (outer + 1) rest).1, (cutOutside (outer + 1) rest).2) := by
  induction inner generalizing depth with
  | nil =>
    have level : depth = 0 := by simpa [closesAll] using closes
    rw [level, Nat.zero_add]
    rfl
  | cons c letters induction =>
    have comma : ¬(c = ',' ∧ depth + outer + 1 = 0) := by omega
    unfold closesAll at closes
    rw [List.cons_append, cutOutside, if_neg comma]
    split at closes
    · next opening =>
      have level : depthAfter (depth + outer + 1) c = depth + 1 + outer + 1 := by
        rw [depthAfter, if_pos opening]
        omega
      rw [level, induction closes, List.cons_append]
    · next other =>
      split at closes
      · next closing =>
        rw [Bool.and_eq_true, bne_iff_ne] at closes
        have level : depthAfter (depth + outer + 1) c = depth - 1 + outer + 1 := by
          rw [depthAfter, if_neg other, if_pos closing]
          omega
        rw [level, induction closes.2, List.cons_append]
      · next another =>
        have level : depthAfter (depth + outer + 1) c = depth + outer + 1 := by
          rw [depthAfter, if_neg other, if_neg another]
        rw [level, induction closes, List.cons_append]

theorem undivided_parameters {parameters : Text} (balanced : Balanced parameters) :
    Undivided 0 ('(' :: parameters ++ [')']) := by
  intro rest
  have inside := cutOutside_closing balanced 0 (')' :: rest)
  simp only [Nat.zero_add] at inside
  simp [cutOutside, depthAfter, inside]

theorem read_append_comma {part : Text} (whole : Undivided 0 part) (full : readPart part ≠ [])
    (text : Text) : read (part ++ ',' :: text) = readPart part :: read text := by
  have parts : splitOutside (part ++ ',' :: text) = part :: splitOutside text := by
    rw [splitOutside, whole, cutOutside, if_pos ⟨rfl, rfl⟩, List.append_nil]
    rfl
  rw [read, parts, List.map_cons, List.filter_cons_of_pos (by simp [full])]
  rfl

theorem read_single {part : Text} (whole : Undivided 0 part) (full : readPart part ≠ []) :
    read part = [readPart part] := by
  have parts : splitOutside part = [part] := by
    have cut := whole []
    rw [List.append_nil] at cut
    rw [splitOutside, cut, cutOutside, List.append_nil]
  rw [read, parts, List.map_singleton, List.filter_cons_of_pos (by simp [full]), List.filter_nil]

/-! ## Ways to write a name -/

inductive Called (name : Text) : Text → Prop
  | bare : Called name name
  | call {blanks parameters : Text} : (∀ c ∈ blanks, isBlank c = true) → Balanced parameters →
      Called name (name ++ (blanks ++ '(' :: parameters ++ [')']))

inductive Braced (name : Text) : Text → Prop
  | plain {call : Text} : Called name call → Braced name call
  | braced {before call after : Text} : (∀ c ∈ before ++ after, isBlank c = true) →
      Called name call → Braced name ('{' :: (before ++ call ++ after) ++ ['}'])

inductive Commanded (name : Text) : Text → Prop
  | plain {reference : Text} : Braced name reference → Commanded name reference
  | command {blanks reference : Text} : (∀ c ∈ blanks, isBlank c = true) →
      Braced name reference → Commanded name ('\\' :: 'l' :: (blanks ++ reference))

/-- One part of a list: a name in any of these ways, with blanks around it. -/
inductive Lists (part name : Text) : Prop
  | between {before reference after : Text} : Name.Path name → Commanded name reference →
      (∀ c ∈ before ++ after, isBlank c = true) → part = before ++ reference ++ after →
      Lists part name

/-- What every way to write a name keeps: no blank or full stop stands at its ends, and no cut
divides it. -/
structure Closed (text : Text) : Prop where
  full : text ≠ []
  start : ∀ c ∈ text.head?, isBlank c = false
  finish : ∀ c ∈ text.getLast?, isBlank c = false ∧ c ≠ '.'
  undivided : Undivided 0 text

theorem Closed.trimmed {text : Text} (closed : Closed text) : Trimmed text :=
  ⟨closed.start, fun c last => (closed.finish c last).1⟩

/-- Something may be written in front of a closed text that holds no comma or parenthesis. -/
theorem Closed.behind {front text : Text} (closed : Closed text) (full : front ≠ [])
    (start : ∀ c ∈ front.head?, isBlank c = false)
    (inert : ∀ c ∈ front, Inert c) : Closed (front ++ text) where
  full := List.append_ne_nil_of_left_ne_nil full text
  start := by rwa [List.head?_append_of_ne_nil _ full]
  finish := by
    rw [List.getLast?_append_of_ne_nil _ closed.full]
    exact closed.finish
  undivided := (undivided_of_inert inert).append closed.undivided

theorem Closed.before {text finish : Text} (closed : Closed text) (full : finish ≠ [])
    (ends : ∀ c ∈ finish.getLast?, isBlank c = false ∧ c ≠ '.')
    (inert : ∀ c ∈ finish, Inert c) : Closed (text ++ finish) where
  full := List.append_ne_nil_of_left_ne_nil closed.full finish
  start := by
    rw [List.head?_append_of_ne_nil _ closed.full]
    exact closed.start
  finish := by rwa [List.getLast?_append_of_ne_nil _ full]
  undivided := closed.undivided.append (undivided_of_inert inert)

theorem inert_of_blank {blanks : Text} (allBlank : ∀ c ∈ blanks, isBlank c = true) :
    ∀ c ∈ blanks, Inert c := by
  intro c member
  have blank := allBlank c member
  refine ⟨?_, ?_, ?_⟩ <;>
  · intro same
    rw [same] at blank
    exact absurd blank (by decide)

theorem ne_of_isPathPart {c : Char} (part : Name.isPathPart c = true) :
    Inert c ∧ c ≠ '.' ∧ c ≠ '{' ∧ c ≠ '\\' := by
  refine ⟨⟨?_, ?_, ?_⟩, ?_, ?_, ?_⟩ <;>
  · intro same
    rw [same] at part
    exact absurd part (by decide)

theorem closed_of_path {name : Text} (path : Name.Path name) : Closed name where
  full := path.ne_nil
  start := fun c first => path.not_blank c (List.mem_of_mem_head? first)
  finish := by
    intro c last
    have part := path.forall_mem c (List.mem_of_mem_getLast? last)
    exact ⟨Name.isBlank_of_isPathPart part, (ne_of_isPathPart part).2.1⟩
  undivided := undivided_of_inert fun c member => (ne_of_isPathPart (path.forall_mem c member)).1

theorem closed_parameters {parameters : Text} (balanced : Balanced parameters) :
    Closed ('(' :: parameters ++ [')']) where
  full := List.cons_ne_nil _ _
  start := by
    intro c first
    cases first
    decide
  finish := by
    rw [List.getLast?_concat]
    intro c last
    cases last
    decide
  undivided := undivided_parameters balanced

theorem Called.closed {name call : Text} (path : Name.Path name) (called : Called name call) :
    Closed call := by
  have own := closed_of_path path
  cases called with
  | bare => exact own
  | @call blanks parameters allBlank balanced =>
    have inert : ∀ c ∈ name ++ blanks, Inert c :=
      List.forall_mem_append.mpr
        ⟨fun c member => (ne_of_isPathPart (path.forall_mem c member)).1, inert_of_blank allBlank⟩
    have start : ∀ c ∈ (name ++ blanks).head?, isBlank c = false := by
      rw [List.head?_append_of_ne_nil _ own.full]
      exact own.start
    have whole : name ++ (blanks ++ '(' :: parameters ++ [')']) =
        name ++ blanks ++ ('(' :: parameters ++ [')']) := by simp
    rw [whole]
    exact (closed_parameters balanced).behind (List.append_ne_nil_of_left_ne_nil own.full _)
      start inert

theorem Braced.closed {name reference : Text} (path : Name.Path name)
    (braced : Braced name reference) : Closed reference := by
  cases braced with
  | plain called => exact called.closed path
  | @braced before call after around called =>
    rw [List.forall_mem_append] at around
    have opening : ∀ c ∈ '{' :: before, Inert c :=
      List.forall_mem_cons.mpr ⟨by decide, inert_of_blank around.1⟩
    have closing : ∀ c ∈ after ++ ['}'], Inert c :=
      List.forall_mem_append.mpr
        ⟨inert_of_blank around.2, List.forall_mem_singleton.mpr (by decide)⟩
    have whole : '{' :: (before ++ call ++ after) ++ ['}'] =
        '{' :: before ++ call ++ (after ++ ['}']) := by simp
    rw [whole]
    apply Closed.before _ (by simp) _ closing
    · apply (called.closed path).behind (List.cons_ne_nil _ _) _ opening
      intro c first
      cases first
      decide
    · rw [List.getLast?_concat]
      intro c last
      cases last
      decide

theorem Commanded.closed {name written : Text} (path : Name.Path name)
    (commanded : Commanded name written) : Closed written := by
  cases commanded with
  | plain braced => exact braced.closed path
  | @command blanks reference allBlank braced =>
    have inert : ∀ c ∈ '\\' :: 'l' :: blanks, Inert c :=
      List.forall_mem_cons.mpr
        ⟨by decide, List.forall_mem_cons.mpr ⟨by decide, inert_of_blank allBlank⟩⟩
    apply (braced.closed path).behind (List.cons_ne_nil '\\' ('l' :: blanks)) _ inert
    intro c first
    cases first
    decide

/-! ## Reading a part -/

theorem Called.head? {name call : Text} (path : Name.Path name) (called : Called name call) :
    ∀ c ∈ call.head?, Name.isPathPart c = true := by
  have first : ∀ c ∈ name.head?, Name.isPathPart c = true := fun c first =>
    path.forall_mem c (List.mem_of_mem_head? first)
  cases called with
  | bare => exact first
  | call _ _ => rwa [List.head?_append_of_ne_nil _ path.ne_nil]

theorem Braced.head? {name reference : Text} (path : Name.Path name)
    (braced : Braced name reference) : ∀ c ∈ reference.head?, c ≠ '\\' := by
  cases braced with
  | plain called => exact fun c first => (ne_of_isPathPart (called.head? path c first)).2.2.2
  | braced _ _ =>
    intro c first
    cases first
    decide

theorem dropBraces_eq_self {name : Text} (first : ∀ c ∈ name.head?, c ≠ '{') :
    dropBraces name = name := by
  unfold dropBraces
  split
  · exact absurd rfl (first '{' rfl)
  · rfl

theorem dropCommand_eq_self {name : Text} (first : ∀ c ∈ name.head?, c ≠ '\\') :
    dropCommand name = name := by
  unfold dropCommand
  split
  · exact absurd rfl (first '\\' rfl)
  · rfl

theorem Called.reads {name call : Text} (path : Name.Path name) (called : Called name call) :
    Name.ofReference call = name := by
  cases called with
  | bare => exact Name.ofReference_path path
  | call allBlank _ => exact Name.ofReference_call path allBlank _

theorem Braced.reads {name reference : Text} (path : Name.Path name)
    (braced : Braced name reference) : Name.ofReference (dropBraces reference) = name := by
  cases braced with
  | plain called =>
    have first := fun c first => (ne_of_isPathPart (called.head? path c first)).2.2.1
    rw [dropBraces_eq_self first]
    exact called.reads path
  | @braced before call after around called =>
    have closed := called.closed path
    have inside : dropBraces ('{' :: (before ++ call ++ after) ++ ['}']) = call := by
      simp only [dropBraces, List.cons_append, List.getLast?_concat, if_true,
        List.dropLast_concat]
      exact Text.trim_between around closed.trimmed closed.full
    rw [inside]
    exact called.reads path

theorem Commanded.reads {name written : Text} (path : Name.Path name)
    (commanded : Commanded name written) :
    Name.ofReference (dropBraces (dropCommand written)) = name := by
  cases commanded with
  | plain braced =>
    rw [dropCommand_eq_self (braced.head? path)]
    exact braced.reads path
  | @command blanks reference allBlank braced =>
    have closed := braced.closed path
    have around : ∀ c ∈ blanks ++ [], isBlank c = true := by rwa [List.append_nil]
    have behind := Text.trim_between around closed.trimmed closed.full
    rw [List.append_nil] at behind
    rw [dropCommand, behind]
    exact braced.reads path

theorem Closed.last_ne_stop {text after : Text} (closed : Closed text)
    (allBlank : ∀ c ∈ after, isBlank c = true) :
    ∀ c ∈ (text ++ after).getLast?, (c == '.') = false := by
  intro c last
  rw [beq_eq_false_iff_ne]
  by_cases empty : after = []
  · rw [empty, List.append_nil] at last
    exact (closed.finish c last).2
  · rw [List.getLast?_append_of_ne_nil _ empty] at last
    intro stop
    rw [stop] at last
    exact absurd (allBlank '.' (List.mem_of_mem_getLast? last)) (by decide)

theorem trim_trimStops {before text after stops : Text} (closed : Closed text)
    (around : ∀ c ∈ before ++ after, isBlank c = true) (onlyStops : ∀ c ∈ stops, c = '.') :
    trim (trimStops (trim (before ++ text ++ after ++ stops))) = text := by
  have blanks := List.forall_mem_append.mp around
  have stopped : ∀ c ∈ stops, (c == '.') = true := fun c member =>
    beq_iff_eq.mpr (onlyStops c member)
  by_cases unfinished : stops = []
  · have kept : trimStops (text ++ stops) = text :=
      Text.dropEndWhile_append_stop stopped fun c last =>
        beq_eq_false_iff_ne.mpr (closed.finish c last).2
    rw [unfinished, List.append_nil] at kept
    rw [unfinished, List.append_nil, Text.trim_between around closed.trimmed closed.full, kept,
      closed.trimmed.trim_eq]
  · have whole : Trimmed (text ++ after ++ stops) := by
      constructor
      · rw [List.append_assoc, List.head?_append_of_ne_nil _ closed.full]
        exact closed.start
      · rw [List.getLast?_append_of_ne_nil _ unfinished]
        intro c last
        rw [onlyStops c (List.mem_of_mem_getLast? last)]
        decide
    have front : trim (before ++ (text ++ after ++ stops) ++ []) = text ++ after ++ stops :=
      Text.trim_between (by rw [List.append_nil]; exact blanks.1) whole
        (List.append_ne_nil_of_right_ne_nil _ unfinished)
    have kept : trimStops (text ++ after ++ stops) = text ++ after :=
      Text.dropEndWhile_append_stop stopped (closed.last_ne_stop blanks.2)
    have back : trim ([] ++ text ++ after) = text :=
      Text.trim_between blanks.2 closed.trimmed closed.full
    have parts : before ++ text ++ after ++ stops = before ++ (text ++ after ++ stops) ++ [] := by
      simp
    rw [parts, front, kept]
    exact back

theorem readPart_append {part name stops : Text} (lists : Lists part name)
    (onlyStops : ∀ c ∈ stops, c = '.') : readPart (part ++ stops) = name := by
  rcases lists with ⟨path, commanded, around, rfl⟩
  rw [readPart, trim_trimStops (commanded.closed path) around onlyStops]
  exact commanded.reads path

theorem Lists.undivided {part name : Text} (lists : Lists part name) : Undivided 0 part := by
  rcases lists with ⟨path, commanded, around, rfl⟩
  rw [List.forall_mem_append] at around
  exact ((undivided_of_inert (inert_of_blank around.1)).append
    (commanded.closed path).undivided).append (undivided_of_inert (inert_of_blank around.2))

theorem Lists.ne_nil {part name : Text} (lists : Lists part name) : name ≠ [] := by
  rcases lists with ⟨path, _, _, _⟩
  exact path.ne_nil

theorem Lists.readPart {part name : Text} (lists : Lists part name) : readPart part = name := by
  have noStops : ∀ c ∈ ([] : Text), c = '.' := by simp
  have read := readPart_append lists noStops
  rwa [List.append_nil] at read

/-! ## Reading a list -/

theorem read_intercalate {parts names : List Text} (written : List.Forall₂ Lists parts names)
    (some : names ≠ []) {stops : Text} (onlyStops : ∀ c ∈ stops, c = '.') :
    read ([','].intercalate parts ++ stops) = names := by
  induction written with
  | nil => exact absurd rfl some
  | @cons part name parts names lists written induction =>
    cases written with
    | nil =>
      have inert : ∀ c ∈ stops, Inert c := by
        intro c member
        rw [onlyStops c member]
        decide
      have reads := readPart_append lists onlyStops
      have only := read_single (lists.undivided.append (undivided_of_inert inert))
        (reads ▸ lists.ne_nil)
      rw [reads] at only
      simpa [List.intercalate] using only
    | @cons next second parts names nextLists written =>
      have reads := lists.readPart
      have step := read_append_comma lists.undivided (reads ▸ lists.ne_nil)
        ([','].intercalate (next :: parts) ++ stops)
      rw [reads, induction (List.cons_ne_nil _ _)] at step
      simpa [List.intercalate] using step

/-- A list is read as the names that are written in it, in their order. Its parts are cut so
that nothing but the commas between them is left out, whatever the argument is. -/
theorem list_reads_written_names :
    (∀ {parts names : List Text} {stops : Text}, List.Forall₂ Lists parts names → names ≠ [] →
      (∀ c ∈ stops, c = '.') → read ([','].intercalate parts ++ stops) = names) ∧
    ∀ argument, [','].intercalate (splitOutside argument) = argument := by
  constructor
  · intro parts names stops written some onlyStops
    exact read_intercalate written some onlyStops
  · exact intercalate_splitOutside

/-- The commas and full stops of a parameter list change nothing, and nor does the full stop of
the list behind a brace. -/
theorem list_reads_destructor_in_braces :
    let parts : List Text := ["\tbar", " \\l  \x7b Foo::~Foo (f(int, T...), ...)\x7d "]
    let names : List Text := ["bar", "Foo::~Foo"]
    List.Forall₂ Lists parts names ∧ names ≠ [] ∧ (∀ c ∈ ['.'], c = '.') ∧
      read ([','].intercalate parts ++ ['.']) = names ∧
      [','].intercalate (splitOutside ([','].intercalate parts)) = [','].intercalate parts := by
  intro parts names
  have bare : Lists "\tbar" "bar" := by
    have leaf : Name.Word ['b', 'a', 'r'] :=
      .identifier (by decide) (List.all_eq_true.mp (by decide))
    have blanks : ∀ c ∈ ['\t'] ++ [], isBlank c = true := List.all_eq_true.mp (by decide)
    exact .between (.leaf leaf) (.plain (.plain .bare)) blanks rfl
  have destructor : Lists " \\l  \x7b Foo::~Foo (f(int, T...), ...)\x7d " "Foo::~Foo" := by
    let name : Text := "Foo::~Foo"
    let call : Text := "Foo::~Foo (f(int, T...), ...)"
    have owner : Name.Word ['F', 'o', 'o'] :=
      .identifier (by decide) (List.all_eq_true.mp (by decide))
    have leaf : Name.Word ['~', 'F', 'o', 'o'] :=
      .destructor (by decide) (List.all_eq_true.mp (by decide))
    have path : Name.Path name := .owner owner (.leaf leaf)
    have blank : ∀ c ∈ [' '], isBlank c = true := List.all_eq_true.mp (by decide)
    have balanced : Balanced "f(int, T...), ..." := by decide
    have called : Called name call := .call blank balanced
    have inside : ∀ c ∈ [' '] ++ [], isBlank c = true := List.all_eq_true.mp (by decide)
    have braced : Braced name ('{' :: ([' '] ++ call ++ []) ++ ['}']) := .braced inside called
    have behind : ∀ c ∈ [' ', ' '], isBlank c = true := List.all_eq_true.mp (by decide)
    have around : ∀ c ∈ [' '] ++ [' '], isBlank c = true := List.all_eq_true.mp (by decide)
    exact .between path (.command behind braced) around rfl
  have written : List.Forall₂ Lists parts names := .cons bare (.cons destructor .nil)
  have some : names ≠ [] := by decide
  have onlyStops : ∀ c ∈ ['.'], c = '.' := List.forall_mem_singleton.mpr rfl
  exact ⟨written, some, onlyStops, list_reads_written_names.1 written some onlyStops,
    list_reads_written_names.2 _⟩

end DocAtlas.NameList
