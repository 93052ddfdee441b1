import DocAtlas.Yaml.Node

/-!
# Merged mappings

An entry under a merge key stands for the entries of the mapping that it names, or of the
mappings in a list of which the earlier ones count more. They come in front of a mapping's
own entries, so that those count most. A key that is a lone equals sign is a text.
-/

namespace DocAtlas.Yaml.Node

abbrev Entries := List (Nat × Nat)

def nodeAt (nodes : Array Node) (number : Nat) : Node := nodes[number]?.getD .absent

def kindAt (nodes : Array Node) (number : Nat) : Kind := (nodeAt nodes number).kind

def entriesAt (nodes : Array Node) (number : Nat) : Entries :=
  match nodeAt nodes number with
  | .mapping _ entries => entries
  | _ => []

def withEntries (entries : Entries) : Node → Node
  | .mapping kind _ => .mapping kind entries
  | node => node

def asText : Node → Node
  | .scalar .stated text => .scalar .text text
  | .sequence .stated items => .sequence .text items
  | .mapping .stated entries => .mapping .text entries
  | node => node

def putEntries (nodes : Array Node) (number : Nat) (entries : Entries) : Array Node :=
  nodes.modify number (withEntries entries)

def cutMerge? (nodes : Array Node) : Entries → Option (Nat × Entries)
  | [] => none
  | (key, value) :: rest =>
    if kindAt nodes key = .merge then some (value, rest)
    else (cutMerge? nodes rest).map fun found => (found.1, (key, value) :: found.2)

def mergeCount (nodes : Array Node) : Nat :=
  nodes.foldl (fun count node =>
    match node with
    | .mapping _ entries => count + entries.countP fun entry => kindAt nodes entry.1 == .merge
    | _ => count) 0

mutual
/-- Takes the merge keys of a mapping one by one; a step takes at least one of them. -/
def mergeFrom (merged : Entries) (number : Nat) : Nat → Array Node → Except Fault (Array Node)
  | 0, _ => .error .malformed
  | steps + 1, nodes =>
    let entries := entriesAt nodes number
    match cutMerge? nodes entries with
    | none =>
      .ok (entries.foldl (fun nodes entry => nodes.modify entry.1 asText)
        (putEntries nodes number (merged ++ entries)))
    | some (source, kept) => do
      let (nodes, more) ← contribution source steps (putEntries nodes number kept)
      mergeFrom (merged ++ more) number steps nodes

def contribution (source : Nat) : Nat → Array Node → Except Fault (Array Node × Entries)
  | 0, _ => .error .malformed
  | steps + 1, nodes =>
    match nodeAt nodes source with
    | .mapping _ _ => do
      let nodes ← mergeFrom [] source steps nodes
      return (nodes, entriesAt nodes source)
    | .sequence _ items =>
      items.foldlM (fun (nodes, entries) item =>
        match nodeAt nodes item with
        | .mapping _ _ => do
          let nodes ← mergeFrom [] item steps nodes
          return (nodes, entriesAt nodes item ++ entries)
        | _ => .error .malformed) (nodes, [])
    | .scalar _ _ => .error .malformed
end

def merge (number : Nat) (nodes : Array Node) : Except Fault (Array Node) :=
  let steps :=
    if (cutMerge? nodes (entriesAt nodes number)).isNone then 1 else 2 * mergeCount nodes + 2
  mergeFrom [] number steps nodes

end DocAtlas.Yaml.Node
