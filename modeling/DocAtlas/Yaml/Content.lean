import DocAtlas.Yaml.Merge
import DocAtlas.Yaml.Scalar

/-!
# Contents of nodes

What every node of a graph holds: a scalar its value, a container the numbers of the nodes
inside it. A container is looked into after all nodes that were met before it, so that of
several faults the one that is met first counts.
-/

namespace DocAtlas.Yaml

/-- What a node holds. `isWord` marks the word for no number, which is one key wherever it
stands. A container that is awaited is not looked into yet. -/
inductive Content where
  | awaited
  | scalar (value : Value) (isWord : Bool)
  | list (items : List Nat)
  | pairs (entries : Node.Entries)
  | set (entries : Node.Entries)
  | mapping (entries : Node.Entries)

namespace Content

def inner : Content → List Nat
  | awaited | scalar _ _ => []
  | list items => items
  | pairs entries | set entries | mapping entries =>
    entries.flatMap fun entry => [entry.1, entry.2]

/-! ## Scalars -/

/-- The text of a scalar; a mapping can state it under its lone equals sign. -/
def statedText (nodes : Array Node) : Nat → Nat → Except Fault Text
  | 0, _ => .error .malformed
  | steps + 1, number =>
    match Node.nodeAt nodes number with
    | .scalar _ text => .ok text
    | .sequence _ _ => .error .malformed
    | .mapping _ entries =>
      match entries.find? fun entry => Node.kindAt nodes entry.1 == .stated with
      | some (_, value) => statedText nodes steps value
      | none => .error .malformed

/-- Only a scalar itself is read as a date or a time. -/
def ofScalar (nodes : Array Node) (number : Nat) : Except Fault Content := do
  let text ← statedText nodes (nodes.size + 1) number
  match Node.nodeAt nodes number with
  | .mapping .moment _ => throw .momentOfMapping
  | node =>
    let value ← Scalar.value node.kind text
    return scalar value (node.kind == .real && Scalar.isNotANumberWord text)

end Content

/-! ## Looking at all nodes -/

/-- How far the contents are known. `later` holds the containers that are awaited, the last
one first. -/
structure Survey where
  nodes : Array Node
  contents : Array (Option Content)
  later : List Nat

namespace Survey

def hold (number : Nat) (content : Content) (survey : Survey) : Survey :=
  { survey with contents := survey.contents.setIfInBounds number (some content) }

def meet (survey : Survey) (number : Nat) : Except Fault Survey :=
  if (survey.contents[number]?.bind id).isSome then .ok survey
  else if (Node.kindAt survey.nodes number).isContainer then
    .ok { survey.hold number .awaited with later := number :: survey.later }
  else (Content.ofScalar survey.nodes number).map fun content => survey.hold number content

def meetItems (items : List Nat) (survey : Survey) : Except Fault Survey :=
  items.foldlM meet survey

/-- Looks at entries, the key before the value. A container is no key. -/
def meetEntries (entries : Node.Entries) (survey : Survey) : Except Fault Survey :=
  entries.foldlM (fun survey entry => do
    let survey ← survey.meet entry.1
    if (Node.kindAt survey.nodes entry.1).isContainer then throw .malformed
    survey.meet entry.2) survey

def meetMapping (number : Nat) (survey : Survey) : Except Fault (Survey × Node.Entries) := do
  let nodes ← Node.merge number survey.nodes
  let entries := Node.entriesAt nodes number
  return (← meetEntries entries { survey with nodes := nodes }, entries)

/-- The items of a list of pairs are mappings with a single entry, whose key may be
anything. -/
def meetPairs (items : List Nat) (survey : Survey) : Except Fault (Survey × Node.Entries) := do
  let (survey, entries) ← items.foldlM (fun (survey, entries) item => do
    match Node.nodeAt survey.nodes item with
    | .mapping _ [(key, value)] =>
      return (← (← meet survey key).meet value, (key, value) :: entries)
    | _ => throw Fault.malformed) (survey, [])
  return (survey, entries.reverse)

def enter (survey : Survey) (number : Nat) : Except Fault Survey := do
  match Node.nodeAt survey.nodes number with
  | .sequence .sequence items => return (← survey.meetItems items).hold number (.list items)
  | .sequence .pairs items =>
    let (survey, entries) ← survey.meetPairs items
    return survey.hold number (.pairs entries)
  | .mapping .mapping _ =>
    let (survey, entries) ← survey.meetMapping number
    return survey.hold number (.mapping entries)
  | .mapping .set _ =>
    let (survey, entries) ← survey.meetMapping number
    return survey.hold number (.set entries)
  | _ => throw .malformed

/-- Looks into the containers that are awaited, and then into those that were met inside
them. Every round looks into a new container. -/
def finish : Nat → Survey → Except Fault Survey
  | 0, survey => .ok survey
  | rounds + 1, survey => do
    if survey.later.isEmpty then return survey
    finish rounds (← survey.later.reverse.foldlM enter { survey with later := [] })

end Survey

namespace Graph

def contents (graph : Graph) : Except Fault (Array Content) := do
  let start : Survey := ⟨graph.nodes, graph.nodes.map fun _ => none, []⟩
  let survey ← (← start.meet graph.root).finish (graph.nodes.size + 1)
  return survey.contents.map (·.getD .awaited)

end Graph

end DocAtlas.Yaml
