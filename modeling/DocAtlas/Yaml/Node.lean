import DocAtlas.Yaml.Token

/-!
# Nodes of a document

The tokens of a document make a graph of numbered nodes: scalars, sequences and mappings,
each of a kind. An alias is the number of an anchored node, which may be one that the alias
itself is in. A node that is left out is an empty plain scalar. Every mark is looked at only
when all before it are understood, so the first thing that is wrong counts.
-/

namespace DocAtlas.Yaml

inductive Node where
  | scalar (kind : Kind) (text : Text)
  | sequence (kind : Kind) (items : List Nat)
  | mapping (kind : Kind) (entries : List (Nat × Nat))
deriving DecidableEq, Repr

namespace Node

def kind : Node → Kind
  | scalar kind _ => kind
  | sequence kind _ => kind
  | mapping kind _ => kind

def absent : Node := scalar .null []

end Node

/-- Numbered nodes, one of which is the whole; `isKnotted` tells whether a node may be
inside itself. -/
structure Graph where
  nodes : Array Node
  root : Nat
  isKnotted : Bool

/-! ## Reading -/

/-- Handles and what they stand for; the first that fits counts. -/
abbrev Handles := List (Text × Text)

/-- The tokens ahead, the nodes so far, of which some are not complete, and the numbers of
the anchored ones. -/
structure Draft where
  tokens : List Token
  nodes : Array (Option Node)
  anchors : List (Text × Nat)
  isKnotted : Bool

abbrev Reader := StateT Draft (Except Fault)

namespace Reader

def refuse : Reader α := throw .malformed

def look : Reader (Option Token) := do
  match (← get).tokens.head? with
  | some (.fault fault) => throw fault
  | token => return token

def skip : Reader Unit := modify fun draft => { draft with tokens := draft.tokens.drop 1 }

/-! ## Making nodes -/

/-- A number for a node that is not complete. An anchor names one node only. -/
def begin (anchor : Option Text) : Reader Nat := do
  let draft ← get
  let number := draft.nodes.size
  if anchor.any fun name => (draft.anchors.lookup name).isSome then refuse
  set { draft with
    nodes := draft.nodes.push none
    anchors := anchor.toList.map (·, number) ++ draft.anchors }
  return number

def complete (number : Nat) (node : Node) : Reader Nat := do
  modify fun draft => { draft with nodes := draft.nodes.setIfInBounds number (some node) }
  return number

def add (anchor : Option Text) (node : Node) : Reader Nat := do
  complete (← begin anchor) node

def absent : Reader Nat := add none Node.absent

def aliased (name : Text) : Reader Nat := do
  let draft ← get
  match draft.anchors.lookup name with
  | none => refuse
  | some number =>
    if (draft.nodes[number]?.bind id).isNone then set { draft with isKnotted := true }
    return number

/-! ## Tags -/

def defaultHandles : Handles := [(['!'], ['!']), (['!', '!'], Kind.standardTag [])]

def fullTag (handles : Handles) (tag : WrittenTag) : Reader Text :=
  match tag.handle with
  | none => return tag.name
  | some handle =>
    match handles.lookup handle with
    | some start => return start ++ tag.name
    | none => refuse

def properties (handles : Handles) : Reader (Option Text × Option Text) := do
  match ← look with
  | some (.anchor name) =>
    skip
    if let some (.tag tag) ← look then
      skip
      return (some name, some (← fullTag handles tag))
    else return (some name, none)
  | some (.tag tag) =>
    skip
    if let some (.anchor name) ← look then
      skip
      return (some name, some (← fullTag handles tag))
    else return (none, some (← fullTag handles tag))
  | _ => return (none, none)

def isUnspecific (tag : Option Text) : Bool := tag == some [Handle.mark]

/-- The kind of a scalar: its tag says it, or its form. -/
def scalarKind (tag : Option Text) (text : Text) (plain : Bool) : Kind :=
  if isUnspecific tag || (plain && tag.isNone) then .ofForm text
  else (tag.map Kind.ofTag).getD .text

def containerKind (tag : Option Text) (usual : Kind) : Kind :=
  if isUnspecific tag then usual else (tag.map Kind.ofTag).getD usual

/-! ## Collections -/

/-- Where a node is looked for: inside brackets, in a block, or in a block right behind
a key, where a sequence needs no deeper indentation. -/
inductive Context where
  | flow
  | block
  | behindKey
deriving DecidableEq, Repr

/-- The marks before which an item or a part of an entry is left out. -/
def endsItem : Token → Bool
  | .blockEntry | .blockEnd => true
  | _ => false

def endsBareItem : Token → Bool
  | .blockEntry | .key | .value | .blockEnd => true
  | _ => false

def endsEntryPart : Token → Bool
  | .key | .value | .blockEnd => true
  | _ => false

def endsFlowKey : Token → Bool
  | .value | .flowEntry | .flowSequenceEnd | .flowMappingEnd => true
  | _ => false

def endsFlowValue : Token → Bool
  | .flowEntry | .flowSequenceEnd | .flowMappingEnd => true
  | _ => false

def sequence (anchor tag : Option Text) (items : Reader (List Nat)) : Reader Nat := do
  let number ← begin anchor
  complete number (.sequence (containerKind tag .sequence) (← items))

def mapping (anchor tag : Option Text) (entries : Reader (List (Nat × Nat))) : Reader Nat := do
  let number ← begin anchor
  complete number (.mapping (containerKind tag .mapping) (← entries))

def empty (anchor tag : Option Text) : Reader Nat :=
  if anchor.isNone && tag.isNone then refuse
  else add anchor (.scalar (scalarKind tag [] true) [])

mutual
def node (handles : Handles) (context : Context) : Nat → Reader Nat
  | 0 => refuse
  | steps + 1 => do
    if let some (.aliasOf name) ← look then
      skip
      aliased name
    else
      let (anchor, tag) ← properties handles
      content handles context anchor tag steps

/-- Reads a node behind its anchor and its tag; only with one of them may it be empty. -/
def content (handles : Handles) (context : Context) (anchor tag : Option Text) :
    Nat → Reader Nat
  | 0 => refuse
  | steps + 1 => do
    match context, ← look with
    | .behindKey, some .blockEntry => sequence anchor tag (bareItems handles steps)
    | _, some (.scalar text plain) =>
      skip
      add anchor (.scalar (scalarKind tag text plain) text)
    | _, some .flowSequenceStart =>
      skip
      sequence anchor tag (flowItems handles true steps)
    | _, some .flowMappingStart =>
      skip
      mapping anchor tag (flowEntries handles true steps)
    | .flow, _ => empty anchor tag
    | _, some .blockSequenceStart =>
      skip
      sequence anchor tag (items handles steps)
    | _, some .blockMappingStart =>
      skip
      mapping anchor tag (entries handles steps)
    | _, _ => empty anchor tag

def optional (handles : Handles) (context : Context) (ends : Token → Bool) :
    Nat → Reader Nat
  | 0 => refuse
  | steps + 1 => do
    if (← look).any ends then absent else node handles context steps

def items (handles : Handles) : Nat → Reader (List Nat)
  | 0 => refuse
  | steps + 1 => do
    match ← look with
    | some .blockEntry =>
      skip
      let item ← optional handles .block endsItem steps
      return item :: (← items handles steps)
    | some .blockEnd =>
      skip
      return []
    | _ => refuse

/-- The items of a sequence that is no deeper than its key. -/
def bareItems (handles : Handles) : Nat → Reader (List Nat)
  | 0 => refuse
  | steps + 1 => do
    match ← look with
    | some .blockEntry =>
      skip
      let item ← optional handles .block endsBareItem steps
      return item :: (← bareItems handles steps)
    | _ => return []

def entries (handles : Handles) : Nat → Reader (List (Nat × Nat))
  | 0 => refuse
  | steps + 1 => do
    match ← look with
    | some .key =>
      skip
      let key ← optional handles .behindKey endsEntryPart steps
      let value ← value handles .behindKey endsEntryPart steps
      return (key, value) :: (← entries handles steps)
    | some .blockEnd =>
      skip
      return []
    | _ => refuse

def value (handles : Handles) (context : Context) (ends : Token → Bool) : Nat → Reader Nat
  | 0 => refuse
  | steps + 1 => do
    if (← look) = some .value then
      skip
      optional handles context ends steps
    else absent

def flowItems (handles : Handles) (first : Bool) : Nat → Reader (List Nat)
  | 0 => refuse
  | steps + 1 => do
    match ← look with
    | some .flowSequenceEnd =>
      skip
      return []
    | some .flowEntry =>
      if first then flowItem handles steps
      else
        skip
        if (← look) = some .flowSequenceEnd then
          skip
          return []
        else flowItem handles steps
    | _ => if first then flowItem handles steps else refuse

/-- One item and those behind it. A key makes an item that is a mapping. -/
def flowItem (handles : Handles) : Nat → Reader (List Nat)
  | 0 => refuse
  | steps + 1 => do
    if (← look) = some .key then
      let item ← mapping none none (flowPair handles steps)
      return item :: (← flowItems handles false steps)
    else
      let item ← node handles .flow steps
      return item :: (← flowItems handles false steps)

def flowPair (handles : Handles) : Nat → Reader (List (Nat × Nat))
  | 0 => refuse
  | steps + 1 => do
    skip
    let key ← optional handles .flow endsFlowKey steps
    let value ← value handles .flow endsFlowValue steps
    return [(key, value)]

def flowEntries (handles : Handles) (first : Bool) : Nat → Reader (List (Nat × Nat))
  | 0 => refuse
  | steps + 1 => do
    match ← look with
    | some .flowMappingEnd =>
      skip
      return []
    | some .flowEntry =>
      if first then flowMember handles steps
      else
        skip
        if (← look) = some .flowMappingEnd then
          skip
          return []
        else flowMember handles steps
    | _ => if first then flowMember handles steps else refuse

/-- One entry and those behind it. A node without a key mark has no value. -/
def flowMember (handles : Handles) : Nat → Reader (List (Nat × Nat))
  | 0 => refuse
  | steps + 1 => do
    if (← look) = some .key then
      skip
      let key ← optional handles .flow endsFlowKey steps
      let value ← value handles .flow endsFlowValue steps
      return (key, value) :: (← flowEntries handles false steps)
    else
      let key ← node handles .flow steps
      let value ← absent
      return (key, value) :: (← flowEntries handles false steps)
end

/-! ## Documents -/

/-- The handles that directives set, and the tokens behind those. A document has one version
at most, and one meaning for a handle. -/
def cutDirectives (versioned : Bool) (handles : Handles) :
    List Token → Except Fault (Handles × List Token)
  | .directive (.version major) :: rest =>
    if versioned || major != 1 then .error .malformed else cutDirectives true handles rest
  | .directive (.handle handle start) :: rest =>
    if (handles.lookup handle).isSome then .error .malformed
    else cutDirectives versioned ((handle, start) :: handles) rest
  | .directive .other :: rest => cutDirectives versioned handles rest
  | tokens => .ok (handles, tokens)

def directives : Reader Handles := do
  let draft ← get
  let (handles, rest) ← cutDirectives false [] draft.tokens
  set { draft with tokens := rest }
  return handles ++ defaultHandles

def endsDocument : Token → Bool
  | .directive _ | .documentStart | .documentEnd => true
  | _ => false

def startsDocument : Token → Bool
  | .directive _ | .documentStart => true
  | _ => false

def documentContent (handles : Handles) (steps : Nat) : Reader Nat := do
  match ← look with
  | none => absent
  | some token => if endsDocument token then absent else node handles .block steps

def document (steps : Nat) : Reader Nat := do
  if (← look).any startsDocument then
    let handles ← directives
    if (← look) = some .documentStart then
      skip
      documentContent handles steps
    else refuse
  else node defaultHandles .block steps

def finish : Reader Unit := do
  modify fun draft => { draft with tokens := draft.tokens.dropWhile (· == Token.documentEnd) }
  if (← look).isSome then
    let _ ← directives
    let _ ← look
    refuse

end Reader

namespace Graph

def ofTokens (tokens : List Token) : Except Fault (Option Graph) := do
  if tokens.isEmpty then return none
  let start : Draft := ⟨tokens, #[], [], false⟩
  let read : Reader Nat := do
    let root ← Reader.document (8 * tokens.length + 8)
    Reader.finish
    return root
  let (root, draft) ← read start
  return some ⟨draft.nodes.map (·.getD .absent), root, draft.isKnotted⟩

end Graph

end DocAtlas.Yaml
