import DocAtlas.Yaml.Content

/-!
# YAML documents

The value that a document holds. In a mapping the last of equal keys counts, at the place
of the first. A container that holds itself becomes a knot, whose label is its number among
the nodes.
-/

namespace DocAtlas.Yaml

/-! ## Knots -/

/-- The nodes that are reached from some over the nodes that remain. -/
def reached (next : Nat → List Nat) (remaining pending : List Nat) : List Nat :=
  match _found : pending.find? remaining.contains with
  | none => []
  | some number =>
    number :: reached next (remaining.erase number) (next number ++ pending)
termination_by remaining.length
decreasing_by
  have member : number ∈ remaining := List.contains_iff_mem.mp (List.find?_some _found)
  have smaller := List.length_erase_of_mem member
  have positive := List.length_pos_of_mem member
  omega

def contentAt (contents : Array Content) (number : Nat) : Content :=
  contents[number]?.getD .awaited

def knotsOf (contents : Array Content) : List Nat :=
  let all := List.range contents.size
  let next (number : Nat) := (contentAt contents number).inner
  all.filter fun number => (reached next all (next number)).contains number

/-! ## Keys -/

def isSameKey (contents : Array Content) (first second : Nat × Value) : Bool :=
  first.1 == second.1 || first.2.sameKey second.2 ||
    match contentAt contents first.1, contentAt contents second.1 with
    | .scalar _ true, .scalar _ true => true
    | _, _ => false

abbrev KeyedEntry := (Nat × Value) × Value

/-- Sets the value under a key: an entry that is there keeps its place. -/
def put (contents : Array Content) (key : Nat × Value) (value : Value) :
    List KeyedEntry → List KeyedEntry
  | [] => [(key, value)]
  | (other, old) :: rest =>
    if isSameKey contents other key then (other, value) :: rest
    else (other, old) :: put contents key value rest

def distinct (contents : Array Content) (entries : List KeyedEntry) : List (Value × Value) :=
  (entries.foldl (fun all entry => put contents entry.1 entry.2 all) []).map fun entry =>
    (entry.1.2, entry.2)

/-- The items of a set; integers come in ascending order. -/
def inOrder (items : List Value) : List Value :=
  if items.all fun item => item.asInteger?.isSome then
    items.mergeSort fun first second =>
      (first.asInteger?.getD 0) ≤ (second.asInteger?.getD 0)
  else items

/-! ## Values -/

/-- The contents of a document and its knots, and the values that are known already. Where
there are knots, a value hangs on what it is inside of, and none is kept. -/
structure Known where
  contents : Array Content
  knots : List Nat
  values : Array (Option Value)

abbrev Tying := StateM Known

def keep (number : Nat) (value : Value) : Tying Value := do
  modify fun known =>
    if known.knots.isEmpty then
      { known with values := known.values.setIfInBounds number (some value) }
    else known
  return value

def tie (number : Nat) (container : Value) : Tying Value := do
  if (← get).knots.contains number then return .knot number container
  else keep number container

/-- The value of a node inside some containers. No path into the nodes is longer than there
are nodes. -/
def valueIn : Nat → List Nat → Nat → Tying Value
  | 0, _, _ => return .null
  | steps + 1, around, number => do
    let known ← get
    if around.contains number then return .loop number
    if let some value := known.values[number]?.bind id then return value
    let around := if known.knots.contains number then number :: around else around
    let entriesOf (entries : Node.Entries) : Tying (List KeyedEntry) :=
      entries.mapM fun entry => do
        let key ← valueIn steps around entry.1
        let value ← valueIn steps around entry.2
        return ((entry.1, key), value)
    match contentAt known.contents number with
    | .awaited => return .null
    | .scalar value _ => return value
    | .list items => tie number (.list (← items.mapM (valueIn steps around)))
    | .pairs entries =>
      let entries ← entriesOf entries
      tie number (.list (entries.map fun entry => .pair entry.1.2 entry.2))
    | .set entries =>
      let entries ← entriesOf entries
      tie number (.set (inOrder ((distinct known.contents entries).map (·.1))))
    | .mapping entries =>
      let entries ← entriesOf entries
      tie number (.mapping (distinct known.contents entries))

def valueOf (contents : Array Content) (isKnotted : Bool) (root : Nat) : Value :=
  let knots := if isKnotted then knotsOf contents else []
  let start : Known := ⟨contents, knots, contents.map fun _ => none⟩
  ((valueIn (contents.size + 1) [] root).run start).1

/-! ## Documents -/

/-- The value of a document; an empty document is null. -/
def read (text : Text) : Except Fault Value := do
  match ← Graph.ofTokens (← Token.read text) with
  | none => return .null
  | some graph => return valueOf (← graph.contents) graph.isKnotted graph.root

end DocAtlas.Yaml
