import DocAtlas.Name
import DocAtlas.Text.Blank

/-!
# Names inside longer texts

A topic is written as a bare name or as a whole signature, and a reference as a name
with or without a parameter list. The name is found by its form: identifiers joined
by `::`, the last of which may be an operator.

A call is such a name before an opening parenthesis. Where a form can be read in two
ways, more owners are preferred to fewer, and an operator to an identifier.
-/

namespace DocAtlas.Name

open Text (isBlank trim)

def isIdentifierStart (c : Char) : Bool := c.isAlpha || c == '_'

def isIdentifierPart (c : Char) : Bool := c.isAlphanum || c == '_'

abbrev Form := Text → Option (Text × Text)

def identifier? : Form
  | '~' :: c :: rest =>
    if isIdentifierStart c then
      some ('~' :: c :: rest.takeWhile isIdentifierPart, rest.dropWhile isIdentifierPart)
    else none
  | c :: rest =>
    if isIdentifierStart c then
      some (c :: rest.takeWhile isIdentifierPart, rest.dropWhile isIdentifierPart)
    else none
  | [] => none

def owner : Form := fun text => do
  let (name, after) ← identifier? text
  let rest ← Text.dropStart? separator after
  return (name ++ separator, rest)

/-- A form is exact if what it reads and the rest make up the text, and it reads
something. -/
def Form.Exact (form : Form) : Prop :=
  ∀ {text name rest}, form text = some (name, rest) → name ≠ [] ∧ text = name ++ rest

theorem identifier?_exact : Form.Exact identifier? := by
  intro text name rest read
  unfold identifier? at read
  split at read
  all_goals first
    | (split at read <;> simp only [Option.some.injEq, Prod.mk.injEq, reduceCtorEq] at read
       obtain ⟨rfl, rfl⟩ := read
       simp [List.takeWhile_append_dropWhile])
    | simp at read

theorem owner_exact : Form.Exact owner := by
  intro text name rest read
  simp only [owner, Option.bind_eq_bind, Option.pure_def, Option.bind_eq_some_iff] at read
  obtain ⟨⟨first, after⟩, found, rest', dropped, equal⟩ := read
  simp only [Option.some.injEq, Prod.mk.injEq] at equal
  obtain ⟨rfl, rfl⟩ := equal
  have whole := (identifier?_exact found).2
  have cut : after = separator ++ rest' := Text.dropStart?_eq_some.mp dropped
  simp [whole, cut, separator]

theorem length_of_owner {text name rest : Text} (read : owner text = some (name, rest)) :
    rest.length < text.length := by
  obtain ⟨nonempty, equal⟩ := owner_exact read
  have positive := List.length_pos_iff.mpr nonempty
  rw [equal, List.length_append]
  omega

/-- A leaf form after as many owners as leave one readable. -/
def qualified (leafForm : Form) (text : Text) : Option (Text × Text) :=
  match read : owner text with
  | none => leafForm text
  | some (first, after) =>
    have := length_of_owner read
    match qualified leafForm after with
    | some (name, rest) => some (first ++ name, rest)
    | none => leafForm text
termination_by text.length

theorem qualified_exact {leafForm : Form} (exact_leaf : Form.Exact leafForm) :
    Form.Exact (qualified leafForm) := by
  intro text name rest read
  fun_induction qualified leafForm text generalizing name rest with
  | case1 text unowned => exact exact_leaf read
  | case2 text first after owned shorter inner innerRest found induction =>
    simp only [Option.some.injEq, Prod.mk.injEq] at read
    obtain ⟨rfl, rfl⟩ := read
    have step := induction found
    simp [(owner_exact owned).1, (owner_exact owned).2, step.2]
  | case3 text first after owned shorter missing induction => exact exact_leaf read

/-! ## Names without a parameter list -/

def operatorWord : Text := "operator"

def operatorSign : Form := fun text => do
  let after ← Text.dropStart? operatorWord text
  match after.dropWhile isBlank with
  | [] => none
  | c :: rest => some (operatorWord ++ after.takeWhile isBlank ++ [c], rest)

def plainLeaf : Form := fun text => operatorSign text <|> identifier? text

def plain : Form := qualified plainLeaf

theorem operatorSign_exact : Form.Exact operatorSign := by
  intro text name rest read
  simp only [operatorSign, Option.bind_eq_bind, Option.bind_eq_some_iff] at read
  obtain ⟨after, dropped, read⟩ := read
  have whole := Text.dropStart?_eq_some.mp dropped
  have parts := List.takeWhile_append_dropWhile (p := isBlank) (l := after)
  split at read
  · simp at read
  · next c rest' equal =>
    simp only [Option.some.injEq, Prod.mk.injEq] at read
    obtain ⟨rfl, rfl⟩ := read
    rw [equal] at parts
    refine ⟨by simp, ?_⟩
    rw [whole]
    conv => lhs; rw [← parts]
    simp

theorem plain_exact : Form.Exact plain := by
  apply qualified_exact
  intro text name rest read
  unfold plainLeaf at read
  cases sign : operatorSign text with
  | none => exact identifier?_exact (by simpa [sign] using read)
  | some found => exact operatorSign_exact (by simpa [sign] using read)

theorem length_of_plain {text name rest : Text} (read : plain text = some (name, rest)) :
    rest.length < text.length := by
  obtain ⟨nonempty, equal⟩ := plain_exact read
  have positive := List.length_pos_iff.mpr nonempty
  rw [equal, List.length_append]
  omega

/-- The last name in a text, reading from the left and going on behind each name. -/
def lastPlain? : Text → Option Text
  | [] => none
  | c :: text =>
    match read : plain (c :: text) with
    | none => lastPlain? text
    | some (name, rest) =>
      have := length_of_plain read
      some ((lastPlain? rest).getD name)
termination_by text => text.length
decreasing_by
  · exact Nat.lt_succ_self _
  · exact this

/-! ## Names before a parameter list -/

def beforeCall (name rest : Text) : Option (Text × Text) :=
  match rest.dropWhile isBlank with
  | '(' :: after => some (name, after)
  | _ => none

def isOperatorPart (c : Char) : Bool := !isBlank c && c != '('

def calledOperator : Form := fun text => do
  let after ← Text.dropStart? operatorWord text
  let sign := after.dropWhile isBlank
  match sign.takeWhile isOperatorPart with
  | [] => none
  | name =>
    beforeCall (operatorWord ++ after.takeWhile isBlank ++ name) (sign.dropWhile isOperatorPart)

def calledIdentifier : Form := fun text => do
  let (name, rest) ← identifier? text
  beforeCall name rest

def calledLeaf : Form := fun text => calledOperator text <|> calledIdentifier text

def call? (text : Text) : Option Text :=
  (qualified calledLeaf text).map fun read => read.1.filter (!isBlank ·)

def firstCall? : Text → Option Text
  | [] => none
  | c :: text => (call? (c :: text)).or (firstCall? text)

/-! ## Names of topics and references -/

/-- The name that a topic's argument declares: that of the first call, or else the
last name. -/
def ofArgument? (argument : Text) : Option Text :=
  (firstCall? (trim argument)).or (lastPlain? (trim argument))

/-- The name that a reference is to: a call's name if it begins with a call, else
all of it. -/
def ofReference (text : Text) : Text := (call? (trim text)).getD (trim text)

end DocAtlas.Name
