import DocAtlas.Proofs.Comment.Lookahead

/-!
# Lists of markers

Which comments a text has depends only on those markers that occur in it, for no other can
open a comment there or keep one from being opened. Main statement: the order of the markers
and their repetitions leave no trace in a scan, and neither does one more marker that does
not occur in the text.
-/

namespace DocAtlas

def Markers.AgreeIn (text : Text) (first second : List Text) : Prop :=
  ∀ marker, marker <:+: text → (marker ∈ first ↔ marker ∈ second)

namespace Markers.AgreeIn

variable {text source marker after : Text} {first second : List Text}

theorem symm (agree : AgreeIn text first second) : AgreeIn text second first :=
  fun marker occurs => (agree marker occurs).symm

theorem of_suffix (agree : AgreeIn text first second) (behind : source <:+ text) :
    AgreeIn source first second :=
  fun marker occurs => agree marker (occurs.trans behind.isInfix)

theorem opens (agree : AgreeIn source first second)
    (opened : Lexeme.Opens first source marker after) :
    Lexeme.Opens second source marker after where
  nonempty := opened.nonempty
  listed := by
    have start : marker <+: source := ⟨after, opened.fits.symm⟩
    exact (agree marker start.isInfix).mp opened.listed
  fits := opened.fits
  longest := by
    intro other listed start
    exact opened.longest other ((agree other start.isInfix).mpr listed) start
  allowed := opened.allowed

end Markers.AgreeIn

namespace Lexeme

variable {text source : Text} {given others : List Text} {first second : Markers}

theorem opening?_congr (made : Markers.ofList? given = some first)
    (alsoMade : Markers.ofList? others = some second) (nonempty : source ≠ [])
    (agree : Markers.AgreeIn source given others) :
    first.opening? source = second.opening? source := by
  apply Option.ext
  intro opened
  rw [Markers.opening?_eq_some made nonempty, Markers.opening?_eq_some alsoMade nonempty]
  exact ⟨agree.opens, agree.symm.opens⟩

theorem next?_congr (made : Markers.ofList? given = some first)
    (alsoMade : Markers.ofList? others = some second)
    (agree : Markers.AgreeIn source given others) : next? first source = next? second source := by
  cases source with
  | nil => rfl
  | cons c rest =>
    have same := opening?_congr made alsoMade (List.cons_ne_nil c rest) agree
    rw [next?, next?, same]

end Lexeme

namespace Comment

variable {given others : List Text} {first second : Markers}

-- By the length of the text: an ordinary comment is passed over in one step.
theorem nextCodeLine?_congr (made : Markers.ofList? given = some first)
    (alsoMade : Markers.ofList? others = some second) (line : Nat) {text : Text}
    (agree : Markers.AgreeIn text given others) :
    nextCodeLine? first line text = nextCodeLine? second line text := by
  fun_induction nextCodeLine? first line text with
  | case1 => rw [nextCodeLine?_nil]
  | case2 line c rest blank induction =>
    rw [nextCodeLine?_cons, if_pos blank]
    exact induction (agree.of_suffix (List.suffix_cons c rest))
  | case3 line c rest visible opened =>
    have same := Lexeme.opening?_congr made alsoMade (List.cons_ne_nil c rest) agree
    rw [nextCodeLine?_cons, if_neg visible, ← same, if_pos opened]
  | case4 line c rest visible closed ordinary _ induction =>
    have same := Lexeme.opening?_congr made alsoMade (List.cons_ne_nil c rest) agree
    have behind : (Lexeme.ordinary c rest).2 <:+ c :: rest :=
      ⟨_, Lexeme.ordinary_append c rest⟩
    rw [nextCodeLine?_cons, if_neg visible, ← same, if_neg closed, if_pos ordinary]
    exact induction (agree.of_suffix behind)
  | case5 line c rest visible closed code =>
    have same := Lexeme.opening?_congr made alsoMade (List.cons_ne_nil c rest) agree
    rw [nextCodeLine?_cons, if_neg visible, ← same, if_neg closed, if_neg code]

theorem ofLexeme?_congr (made : Markers.ofList? given = some first)
    (alsoMade : Markers.ofList? others = some second) (file : Text) (offset line : Nat)
    (lexeme : Lexeme) {after : Text} (agree : Markers.AgreeIn after given others) :
    ofLexeme? first file offset line lexeme after =
      ofLexeme? second file offset line lexeme after := by
  have same := nextCodeLine?_congr made alsoMade (line + newlines lexeme.text) agree
  cases lexeme with
  | documentation marker body terminated => rw [ofLexeme?, ofLexeme?, same]
  | _ => rfl

theorem scanFrom_congr (made : Markers.ofList? given = some first)
    (alsoMade : Markers.ofList? others = some second) (file : Text) (offset line : Nat)
    {text : Text} (agree : Markers.AgreeIn text given others) :
    scanFrom first file offset line text = scanFrom second file offset line text := by
  fun_induction scanFrom first file offset line text with
  | case1 offset line text ended =>
    have same := Lexeme.next?_congr made alsoMade agree
    rw [scanFrom]
    split
    · rfl
    · next read =>
      rw [← same, ended] at read
      cases read
  | case2 offset line text lexeme rest read _ induction =>
    have behind : rest <:+ text := ⟨_, (Lexeme.next?_append read).symm⟩
    have alsoRead := (Lexeme.next?_congr made alsoMade agree).symm.trans read
    have here := ofLexeme?_congr made alsoMade file offset line lexeme (agree.of_suffix behind)
    rw [scanFrom_of_next? alsoRead, here, induction (agree.of_suffix behind)]

/-- The comments of a file, read with some markers; without a marker nothing is read. -/
def scanWith? (given : List Text) (path text : Text) : Option (List Comment) :=
  (Markers.ofList? given).map fun markers => scan markers path text

theorem scanWith?_congr {path text : Text} (nonempty : given ≠ []) (alsoNonempty : others ≠ [])
    (agree : Markers.AgreeIn text given others) :
    scanWith? others path text = scanWith? given path text := by
  rcases Markers.exists_ofList? nonempty with ⟨first, made⟩
  rcases Markers.exists_ofList? alsoNonempty with ⟨second, alsoMade⟩
  have same := scanFrom_congr made alsoMade (Text.slashed path) 0 1 agree
  simp only [scanWith?, made, alsoMade, Option.map_some, scan, same]

/-- Whatever markers are given, they are read as a set: the same markers in another order, or
repeated, give the same comments, and so does one more marker that the text does not have. -/
theorem markers_form_set (nonempty : given ≠ []) (path text : Text) :
    ∃ comments, scanWith? given path text = some comments ∧
      (∀ others, (∀ marker, marker ∈ others ↔ marker ∈ given) →
        scanWith? others path text = some comments) ∧
      ∀ marker, ¬marker <:+: text → ∀ before behind, given = before ++ behind →
        scanWith? (before ++ marker :: behind) path text = some comments := by
  rcases Markers.exists_ofList? nonempty with ⟨markers, made⟩
  have read : scanWith? given path text = some (scan markers path text) := by
    rw [scanWith?, made, Option.map_some]
  refine ⟨_, read, ?_, ?_⟩
  · intro others same
    have alsoNonempty : others ≠ [] := by
      rcases List.exists_mem_of_ne_nil given nonempty with ⟨marker, listed⟩
      exact List.ne_nil_of_mem ((same marker).mpr listed)
    rw [← read]
    exact scanWith?_congr nonempty alsoNonempty fun marker _ => (same marker).symm
  · intro marker missing before behind parts
    have agree : Markers.AgreeIn text given (before ++ marker :: behind) := by
      intro other occurs
      have different : other ≠ marker := fun equal => missing (equal ▸ occurs)
      rw [parts, List.mem_append, List.mem_append, List.mem_cons, or_iff_right different]
    rw [← read]
    exact scanWith?_congr nonempty (by simp) agree

/-- Both markers fit where the comment begins, and a longer one that does not occur is added
between them. -/
theorem markers_form_set_where_two_fit :
    let given : List Text := ["/*", "/*!"]
    let shuffled : List Text := ["/*!", "/*", "/*!"]
    let text : Text := "/*! a */\n/**/ int x;"
    ∃ comments, scanWith? given "a.h" text = some comments ∧
      scanWith? shuffled "a.h" text = some comments ∧
      scanWith? ["/*", "/*!!", "/*!"] "a.h" text = some comments := by
  intro given shuffled text
  have nonempty : given ≠ [] := by decide
  have same : ∀ marker, marker ∈ shuffled ↔ marker ∈ given := by
    intro marker
    simp only [shuffled, given, List.mem_cons, List.not_mem_nil, or_false]
    constructor
    · rintro (equal | equal | equal)
      · exact .inr equal
      · exact .inl equal
      · exact .inr equal
    · rintro (equal | equal)
      · exact .inr (.inl equal)
      · exact .inl equal
  have missing : ¬"/*!!".toList <:+: text := by decide
  rcases markers_form_set nonempty "a.h" text with ⟨comments, read, asSet, withMore⟩
  exact ⟨comments, read, asSet shuffled same, withMore _ missing ["/*"] ["/*!"] rfl⟩

end Comment

end DocAtlas
