import DocAtlas.Tag.Parse
import DocAtlas.Proofs.Text.Trim
import Mathlib.Data.List.Basic

/-!
# Passages of a comment

The lines of a comment fall into passages: a blank line that closes what is open, a run of
prose, or a command with the lines of its body. The command settles how far its body
reaches. Whether a line is a command, the end of code or content depends on nothing but
whether code is open in front of it.
-/

namespace DocAtlas

open Text (trim)

/-! ## Lines -/

/-- A text that begins with a command: behind the backslash a name, the longest run of
letters and digits, which begins with a letter, and then the argument. -/
structure BeginsCommand (text name argument : Text) : Prop where
  split : ∃ rest, text = '\\' :: (name ++ rest) ∧ (∀ c ∈ rest.head?, c.isAlphanum = false) ∧
    argument = trim rest
  named : ∃ letter others, name = letter :: others ∧ letter.isAlpha = true ∧
    ∀ c ∈ others, c.isAlphanum = true

theorem readCommand?_eq_some {text name argument : Text} :
    readCommand? text = some (name, argument) ↔ BeginsCommand text name argument := by
  constructor
  · intro found
    unfold readCommand? at found
    split at found
    · next letter text =>
      split at found
      · next alpha =>
        cases found
        refine ⟨⟨text.dropWhile Char.isAlphanum, ?_, ?_, rfl⟩, letter, _, rfl, alpha, ?_⟩
        · rw [List.cons_append, List.takeWhile_append_dropWhile]
        · intro c first
          have stops := List.head?_dropWhile_not Char.isAlphanum text
          simpa [Option.mem_def.mp first] using stops
        · exact fun c member => List.mem_takeWhile_imp member
      · cases found
    · cases found
  · rintro ⟨⟨rest, rfl, stops, rfl⟩, letter, others, rfl, alpha, inName⟩
    have noMore : rest.takeWhile Char.isAlphanum = [] ∧ rest.dropWhile Char.isAlphanum = rest := by
      cases rest with
      | nil => exact ⟨rfl, rfl⟩
      | cons c rest => simp [stops c rfl]
    rw [List.cons_append, readCommand?, if_pos alpha, List.takeWhile_append_of_pos inName,
      List.dropWhile_append_of_pos inName, noMore.1, noMore.2, List.append_nil]

structure OpensTag (line name argument : Text) : Prop where
  command : BeginsCommand (trim line) name argument
  block : Vocabulary.inlineStyle? name = none

theorem opensTag?_eq_some {line name argument : Text} :
    opensTag? line = some (name, argument) ↔ OpensTag line name argument := by
  constructor
  · intro found
    unfold opensTag? at found
    split at found
    · cases found
    · next name argument read =>
      split at found
      · cases found
      · next block =>
        cases found
        exact ⟨readCommand?_eq_some.mp read, by simpa using block⟩
  · rintro ⟨command, block⟩
    rw [opensTag?, readCommand?_eq_some.mpr command]
    simp [block]

structure NumberedLine where
  number : Nat
  text : Text
deriving DecidableEq, Repr

namespace NumberedLine

def ofTexts (first : Nat) : List Text → List NumberedLine
  | [] => []
  | text :: rest => ⟨first, text⟩ :: ofTexts (first + 1) rest

def content (line : NumberedLine) : Text := trim line.text

def isBlank (line : NumberedLine) : Bool := line.content = []

def isPlain (line : NumberedLine) : Bool := opensTag? line.text = none

def isProse (line : NumberedLine) : Bool := line.isPlain && !line.isBlank

def closesCode (line : NumberedLine) : Bool := line.content = '\\' :: Vocabulary.codeEnd

theorem isBlank_iff {line : NumberedLine} : line.isBlank = true ↔ trim line.text = [] :=
  decide_eq_true_iff

theorem isPlain_iff {line : NumberedLine} : line.isPlain = true ↔ opensTag? line.text = none :=
  decide_eq_true_iff

theorem isProse_iff {line : NumberedLine} :
    line.isProse = true ↔ line.isPlain = true ∧ ¬line.isBlank = true := by
  simp [isProse]

theorem closesCode_iff {line : NumberedLine} :
    line.closesCode = true ↔ trim line.text = '\\' :: Vocabulary.codeEnd :=
  decide_eq_true_iff

end NumberedLine

def BodyExtent.reaches (extent : BodyExtent) (line : NumberedLine) : Bool :=
  match extent with
  | .none => false
  | .paragraph => line.isProse
  | .untilNextTag => line.isPlain
  | .verbatim => !line.closesCode

/-! ## Roles of lines -/

inductive LineRole where
  | command (name : Text)
  | codeEnd
  | content
deriving DecidableEq, Repr

namespace LineRole

def command? : LineRole → Option Text
  | command name => some name
  | _ => none

def read : Bool → List NumberedLine → List (NumberedLine × LineRole)
  | _, [] => []
  | true, line :: rest =>
    if line.closesCode then (line, codeEnd) :: read false rest
    else (line, content) :: read true rest
  | false, line :: rest =>
    match opensTag? line.text with
    | some (name, _) =>
      (line, command name) :: read (decide ((Vocabulary.spec name).body = .verbatim)) rest
    | none => (line, content) :: read false rest

theorem map_read (codeOpen : Bool) (lines : List NumberedLine) :
    (read codeOpen lines).map (·.1) = lines := by
  fun_induction read codeOpen lines <;> simp_all

def commands (lines : List NumberedLine) : List (Nat × Text) :=
  (read false lines).filterMap fun (line, role) => role.command?.map fun name => (line.number, name)

def contents (lines : List NumberedLine) : List NumberedLine :=
  (read false lines).filterMap fun (line, role) => if role = content then some line else none

end LineRole

/-! ## Passages -/

inductive Passage where
  | gap (line : NumberedLine)
  | prose (first : NumberedLine) (rest : List NumberedLine)
  | command (line : NumberedLine) (name argument : Text) (body : List NumberedLine)
  | code (line : NumberedLine) (name argument : Text) (body : List NumberedLine)
    (closing : Option NumberedLine)
deriving DecidableEq, Repr

namespace Passage

/-- The passages of some lines, each as long as it goes. Code also takes the line that
closes it. -/
def ofLines : List NumberedLine → List Passage
  | [] => []
  | line :: rest =>
    match opensTag? line.text with
    | some (name, argument) =>
      let reaches := (Vocabulary.spec name).body.reaches
      if (Vocabulary.spec name).body = .verbatim then
        code line name argument (rest.takeWhile reaches) (rest.dropWhile reaches).head? ::
          ofLines (rest.dropWhile reaches).tail
      else command line name argument (rest.takeWhile reaches) :: ofLines (rest.dropWhile reaches)
    | none =>
      if line.isBlank then gap line :: ofLines rest
      else prose line (rest.takeWhile (·.isProse)) :: ofLines (rest.dropWhile (·.isProse))
termination_by lines => lines.length
decreasing_by
  · have := (List.dropWhile_sublist (l := rest) reaches).length_le
    grind
  · have := (List.dropWhile_sublist (l := rest) reaches).length_le
    grind
  · grind
  · have := (List.dropWhile_sublist (l := rest) (·.isProse)).length_le
    grind

def roles : Passage → List (NumberedLine × LineRole)
  | gap line => [(line, .content)]
  | prose first rest => (first :: rest).map (·, .content)
  | command line name _ body => (line, .command name) :: body.map (·, .content)
  | code line name _ body closing =>
    (line, .command name) :: body.map (·, .content) ++ closing.toList.map (·, .codeEnd)

def lines (passage : Passage) : List NumberedLine := passage.roles.map (·.1)

theorem read_plain {body : List NumberedLine} (plain : ∀ line ∈ body, line.isPlain = true)
    (rest : List NumberedLine) :
    LineRole.read false (body ++ rest) = body.map (·, .content) ++ LineRole.read false rest := by
  induction body with
  | nil => rfl
  | cons line body induction =>
    rw [List.forall_mem_cons] at plain
    have opensNone := NumberedLine.isPlain_iff.mp plain.1
    rw [List.cons_append, LineRole.read, opensNone, induction plain.2, List.map_cons,
      List.cons_append]

theorem read_code (lines : List NumberedLine) :
    let reaches := BodyExtent.verbatim.reaches
    LineRole.read true lines =
      (lines.takeWhile reaches).map (·, .content) ++
        (lines.dropWhile reaches).head?.toList.map (·, .codeEnd) ++
        LineRole.read false (lines.dropWhile reaches).tail := by
  intro reaches
  induction lines with
  | nil => rfl
  | cons line rest induction =>
    rw [LineRole.read]
    by_cases closes : line.closesCode = true
    · have stops : ¬reaches line = true := by simp [reaches, BodyExtent.reaches, closes]
      rw [if_pos closes, List.takeWhile_cons_of_neg stops, List.dropWhile_cons_of_neg stops]
      rfl
    · have goesOn : reaches line = true := by simpa [reaches, BodyExtent.reaches] using closes
      rw [if_neg closes, List.takeWhile_cons_of_pos goesOn, List.dropWhile_cons_of_pos goesOn,
        induction]
      rfl

theorem isPlain_of_reaches {extent : BodyExtent} (outside : extent ≠ .verbatim)
    {line : NumberedLine} (reached : extent.reaches line = true) : line.isPlain = true := by
  cases extent with
  | none => cases reached
  | paragraph => exact (NumberedLine.isProse_iff.mp reached).1
  | untilNextTag => exact reached
  | verbatim => exact absurd rfl outside

theorem read_eq_roles (lines : List NumberedLine) :
    LineRole.read false lines = (ofLines lines).flatMap roles := by
  fun_induction ofLines lines with
  | case1 => rfl
  | case2 line rest name argument found reaches verbatim induction =>
    rw [LineRole.read, found, List.flatMap_cons, ← induction]
    simp only [verbatim, decide_true]
    rw [read_code rest]
    simp [roles, reaches, verbatim]
  | case3 line rest name argument found reaches outside induction =>
    have plain : ∀ next ∈ rest.takeWhile reaches, next.isPlain = true :=
      fun next member => isPlain_of_reaches outside (List.mem_takeWhile_imp member)
    have parts := read_plain plain (rest.dropWhile reaches)
    rw [List.takeWhile_append_dropWhile] at parts
    rw [LineRole.read, found, List.flatMap_cons, ← induction]
    simp [outside, parts, roles]
  | case4 line rest opensNone blank induction =>
    rw [LineRole.read, opensNone, List.flatMap_cons, ← induction]
    rfl
  | case5 line rest opensNone blank induction =>
    have plain : ∀ next ∈ rest.takeWhile (·.isProse), next.isPlain = true :=
      fun next member => (NumberedLine.isProse_iff.mp (List.mem_takeWhile_imp member)).1
    have parts := read_plain plain (rest.dropWhile (·.isProse))
    rw [List.takeWhile_append_dropWhile] at parts
    rw [LineRole.read, opensNone, List.flatMap_cons, ← induction]
    simp [parts, roles]

def WellFormed : Passage → Prop
  | gap line => line.isBlank = true
  | prose first rest => ∀ line ∈ first :: rest, line.isProse = true
  | command line name argument body =>
    OpensTag line.text name argument ∧ (Vocabulary.spec name).body ≠ .verbatim ∧
      ∀ next ∈ body, (Vocabulary.spec name).body.reaches next = true
  | code line name argument body closing =>
    OpensTag line.text name argument ∧ (Vocabulary.spec name).body = .verbatim ∧
      (∀ next ∈ body, next.closesCode = false) ∧ ∀ last ∈ closing, last.closesCode = true

theorem wellFormed_of_mem {lines : List NumberedLine} {passage : Passage}
    (member : passage ∈ ofLines lines) : passage.WellFormed := by
  fun_induction ofLines lines with
  | case1 => cases member
  | case2 line rest name argument found reaches verbatim induction =>
    rcases List.mem_cons.mp member with rfl | later
    · have stops := List.head?_dropWhile_not reaches rest
      refine ⟨opensTag?_eq_some.mp found, verbatim, ?_, ?_⟩
      · intro next inside
        simpa [reaches, verbatim, BodyExtent.reaches] using List.mem_takeWhile_imp inside
      · intro last closing
        rw [Option.mem_def.mp closing] at stops
        simpa [reaches, verbatim, BodyExtent.reaches] using stops
    · exact induction later
  | case3 line rest name argument found reaches outside induction =>
    rcases List.mem_cons.mp member with rfl | later
    · exact ⟨opensTag?_eq_some.mp found, outside, fun next inside => List.mem_takeWhile_imp inside⟩
    · exact induction later
  | case4 line rest opensNone blank induction =>
    rcases List.mem_cons.mp member with rfl | later
    · exact blank
    · exact induction later
  | case5 line rest opensNone full induction =>
    rcases List.mem_cons.mp member with rfl | later
    · have own := NumberedLine.isProse_iff.mpr ⟨NumberedLine.isPlain_iff.mpr opensNone, full⟩
      exact List.forall_mem_cons.mpr ⟨own, fun next inside => List.mem_takeWhile_imp inside⟩
    · exact induction later

/-! ## Tags of passages -/

def first : Passage → NumberedLine
  | gap line | prose line _ | command line _ _ _ | code line _ _ _ _ => line

def content : Passage → List NumberedLine
  | gap line => [line]
  | prose first rest => first :: rest
  | command _ _ _ body | code _ _ _ body _ => body

def command? : Passage → Option (Nat × Text)
  | gap _ | prose _ _ => none
  | command line name _ _ | code line name _ _ _ => some (line.number, name)

/-- The body of a passage's tag. A paragraph begins with the argument of its command, if
there is one; the paragraphs of a heading lie between its blank lines. -/
def body : Passage → List Segment
  | gap _ => []
  | prose first rest => Segment.ofProse (Text.unwords ((first :: rest).map (·.content)))
  | command _ name argument lines =>
    let contents := lines.map (·.content)
    match (Vocabulary.spec name).body with
    | .paragraph => Segment.ofProse (Text.unwords ((argument :: contents).filter (· ≠ [])))
    | .untilNextTag =>
      let paragraphs := (contents.splitOnP (· = [])).filter (· ≠ [])
      [.paragraphBreak].intercalate
        (paragraphs.map fun lines => Segment.ofProse (Text.unwords lines))
    | .none | .verbatim => []
  | code _ _ _ lines _ => [.codeBlock (PendingTag.codeText (lines.map (·.text)))]

def tag? (file : Text) (passage : Passage) : Option Tag :=
  match passage with
  | gap _ => none
  | prose first _ =>
    some { kind := .prose, marker := [], file := file, line := first.number, argument := none,
           target := none, targets := [], body := passage.body }
  | command line name argument _ | code line name argument _ _ =>
    let spec := Vocabulary.spec name
    some { kind := spec.kind
           marker := name
           file := file
           line := line.number
           argument := if argument = [] then none else some argument
           target := if spec.kind.isTopic then Name.ofArgument? argument else none
           targets := if spec.argument = .symbolList then NameList.read argument else []
           body := passage.body }

theorem commands_eq (lines : List NumberedLine) :
    LineRole.commands lines = (ofLines lines).filterMap command? := by
  rw [LineRole.commands, read_eq_roles, List.filterMap_flatMap, List.filterMap_eq_flatMap_toList]
  apply List.flatMap_congr
  intro passage _
  cases passage <;> simp [roles, command?, LineRole.command?]

theorem contents_eq (lines : List NumberedLine) :
    LineRole.contents lines = (ofLines lines).flatMap content := by
  rw [LineRole.contents, read_eq_roles, List.filterMap_flatMap]
  apply List.flatMap_congr
  intro passage _
  cases passage <;> simp [roles, content]

def attribution (file : Text) (passage : Passage) : List (NumberedLine × Tag) :=
  (passage.tag? file).toList.flatMap fun tag => passage.content.map (·, tag)

theorem attribution_lines {file : Text} {passage : Passage} (wellFormed : passage.WellFormed) :
    ((passage.attribution file).map (·.1)).filter (!·.isBlank) =
      passage.content.filter (!·.isBlank) := by
  cases passage with
  | gap line =>
    have blank : line.isBlank = true := wellFormed
    simp [attribution, tag?, content, blank]
  | prose | command | code => simp [attribution, tag?, content, Function.comp_def]

/-! ## Order -/

theorem ofTexts_increasing (first : Nat) (texts : List Text) :
    (NumberedLine.ofTexts first texts).Pairwise (·.number < ·.number) ∧
      ∀ line ∈ NumberedLine.ofTexts first texts, first ≤ line.number := by
  induction texts generalizing first with
  | nil => exact ⟨.nil, by simp [NumberedLine.ofTexts]⟩
  | cons text rest induction =>
    rcases induction (first + 1) with ⟨increasing, above⟩
    refine ⟨.cons (fun line member => above line member) increasing, ?_⟩
    intro line member
    rcases List.mem_cons.mp member with rfl | later
    · exact le_rfl
    · have := above line later
      omega

theorem flatMap_lines (lines : List NumberedLine) :
    (ofLines lines).flatMap Passage.lines = lines := by
  have all := LineRole.map_read false lines
  rw [read_eq_roles, List.map_flatMap] at all
  exact all

theorem firsts_sublist (lines : List NumberedLine) : ((ofLines lines).map first).Sublist lines := by
  have firsts (passages : List Passage) :
      (passages.map first).Sublist (passages.flatMap Passage.lines) := by
    induction passages with
    | nil => exact .slnil
    | cons passage rest induction =>
      have own : [passage.first].Sublist passage.lines := by
        cases passage <;> simp [first, Passage.lines, roles]
      exact own.append induction
  have taken := firsts (ofLines lines)
  rwa [flatMap_lines] at taken

end Passage

end DocAtlas
