import DocAtlas.Yaml.Directive
import DocAtlas.Yaml.Folding

/-!
# Tokens of a document

A document is a sequence of marks and scalars. The indentation of block collections is
made into marks of its own. Whether a scalar is the key of a mapping shows only at the
colon behind it, on the same line and not too far away; the key's marks are then put in
front of it. A document may end in a fault: what is before it can still be looked at.
-/

namespace DocAtlas.Yaml

inductive Token where
  | directive (directive : Directive)
  | documentStart
  | documentEnd
  | blockSequenceStart
  | blockMappingStart
  | blockEnd
  | flowSequenceStart
  | flowSequenceEnd
  | flowMappingStart
  | flowMappingEnd
  | blockEntry
  | flowEntry
  | key
  | value
  | aliasOf (name : Text)
  | anchor (name : Text)
  | tag (tag : WrittenTag)
  | scalar (text : Text) (plain : Bool)
  | fault (fault : Fault)
deriving DecidableEq, Repr

/-- A place where a key may have begun: the number of its first token, whether something
else than a key is impossible there, and where it is. -/
structure PossibleKey where
  position : Nat
  required : Bool
  index : Nat
  line : Nat
  column : Nat
deriving DecidableEq, Repr

/-- How far the tokens are read. `keys` holds the possible key of each collection in
brackets, innermost first, and of the block around them last; `indents` the columns of
the open block collections, innermost first. -/
structure TokenState where
  cursor : Cursor
  tokens : List Token
  keys : List (Option PossibleKey)
  indents : List Nat
  allowsKey : Bool

namespace TokenState

def start (text : Text) : TokenState :=
  { cursor := Cursor.start text, tokens := [], keys := [none], indents := [], allowsKey := true }

def inFlow (state : TokenState) : Bool := 1 < state.keys.length

def leastIndent (state : TokenState) : Nat :=
  match state.indents with
  | [] => 0
  | column :: _ => column + 1

def column (state : TokenState) : Nat := state.cursor.column

def emit (token : Token) (state : TokenState) : TokenState :=
  { state with tokens := token :: state.tokens }

def emitAt (position : Nat) (tokens : List Token) (state : TokenState) : TokenState :=
  let behind := state.tokens.length - position
  { state with
    tokens := state.tokens.take behind ++ tokens.reverse ++ state.tokens.drop behind }

/-! ## Possible keys -/

def isStale (state : TokenState) (key : PossibleKey) : Bool :=
  key.line != state.cursor.line || 1024 < state.cursor.index - key.index

/-- Gives up keys that ended on an earlier line or began too long ago. -/
def dropStale (state : TokenState) : Except Fault TokenState :=
  let stale (key : Option PossibleKey) : Bool := key.any state.isStale
  if state.keys.any fun key => stale key && key.any (·.required) then .error .malformed
  else
    .ok { state with keys := state.keys.map fun key => if stale key then none else key }

def dropKey (state : TokenState) : Except Fault TokenState :=
  match state.keys with
  | some key :: rest =>
    if key.required then .error .malformed else .ok { state with keys := none :: rest }
  | _ => .ok state

def saveKey (state : TokenState) : Except Fault TokenState :=
  if state.allowsKey then do
    let state ← state.dropKey
    let key : PossibleKey :=
      { position := state.tokens.length
        required := !state.inFlow && state.indents.head? == some state.column
        index := state.cursor.index
        line := state.cursor.line
        column := state.column }
    return { state with keys := some key :: state.keys.drop 1 }
  else .ok state

/-! ## Indentation -/

def unwindTo (column : Nat) : List Nat → List Nat × List Token
  | [] => ([], [])
  | depth :: rest =>
    if column < depth then
      let (left, tokens) := unwindTo column rest
      (left, .blockEnd :: tokens)
    else (depth :: rest, [])

def unwind (state : TokenState) : TokenState :=
  if state.inFlow then state
  else
    let (indents, tokens) := unwindTo state.column state.indents
    { state with indents := indents, tokens := tokens ++ state.tokens }

def unwindAll (state : TokenState) : TokenState :=
  if state.inFlow then state
  else
    { state with
      indents := []
      tokens := state.indents.map (fun _ => Token.blockEnd) ++ state.tokens }

/-- Opens a block collection at a column, if that is deeper than the innermost one; its
mark stands in front of the token with some number. -/
def openBlock (column position : Nat) (mark : Token) (state : TokenState) : TokenState :=
  if state.leastIndent ≤ column then
    { state.emitAt position [mark] with indents := column :: state.indents }
  else state

/-! ## Reading to the next token -/

/-- Skips spaces, comments and line breaks. Behind a break a key may begin again. -/
def skipToToken (inFlow : Bool) : Nat → Bool → Cursor → Bool × Cursor
  | 0, allowsKey, cursor => (allowsKey, cursor)
  | steps + 1, allowsKey, cursor =>
    let cursor := cursor.skipWhile (· == ' ')
    let cursor := if cursor.peek? = some '#' then cursor.skipWhile (!isBreak ·) else cursor
    if cursor.atBreak then skipToToken inFlow steps (allowsKey || !inFlow) cursor.step
    else (allowsKey, cursor)

def toToken (state : TokenState) : TokenState :=
  let cursor :=
    if state.cursor.index = 0 ∧ state.cursor.peek? = some byteOrderMark then state.cursor.step
    else state.cursor
  let (allowsKey, cursor) :=
    skipToToken state.inFlow (cursor.rest.length + 1) state.allowsKey cursor
  { state with allowsKey := allowsKey, cursor := cursor }

/-! ## Single tokens -/

def pass (length : Nat) (token : Token) (state : TokenState) : TokenState :=
  { state.emit token with cursor := state.cursor.advance length }

def endsName (c : Option Char) : Bool :=
  isGap c || c.any (fun c => c ∈ ['?', ':', ',', ']', '}', '%', '@', Char.ofNat 0x60])

def readName (make : Text → Token) (state : TokenState) : Except Fault TokenState := do
  let state ← state.saveKey
  let (name, cursor) := state.cursor.step.takeWhile isNamePart
  if name = [] ∨ ¬ endsName cursor.peek? then throw .malformed
  return { state.emit (make name) with cursor := cursor, allowsKey := false }

def readTag (state : TokenState) : Except Fault TokenState := do
  let state ← state.saveKey
  let (tag, cursor) ← WrittenTag.read state.cursor
  return { state.emit (.tag tag) with cursor := cursor, allowsKey := false }

def readDirective (state : TokenState) : Except Fault TokenState := do
  let state ← state.unwindAll.dropKey
  let (directive, cursor) ← Directive.read state.cursor.step
  return { state.emit (.directive directive) with cursor := cursor, allowsKey := false }

def readDocumentMark (token : Token) (state : TokenState) : Except Fault TokenState := do
  let state ← state.unwindAll.dropKey
  return { state.pass 3 token with allowsKey := false }

def readFlowStart (token : Token) (state : TokenState) : Except Fault TokenState := do
  let state ← state.saveKey
  return { state.pass 1 token with keys := none :: state.keys, allowsKey := true }

def readFlowEnd (token : Token) (state : TokenState) : Except Fault TokenState := do
  let state ← state.dropKey
  if !state.inFlow then throw .malformed
  return { state.pass 1 token with keys := state.keys.drop 1, allowsKey := false }

def readFlowEntry (state : TokenState) : Except Fault TokenState := do
  let state ← state.dropKey
  return { state.pass 1 .flowEntry with allowsKey := true }

def readBlockEntry (state : TokenState) : Except Fault TokenState := do
  if !state.inFlow ∧ !state.allowsKey then throw .malformed
  let state :=
    if state.inFlow then state
    else state.openBlock state.column state.tokens.length .blockSequenceStart
  let state ← state.dropKey
  return { state.pass 1 .blockEntry with allowsKey := true }

def readIndicator (token : Token) (state : TokenState) : Except Fault TokenState := do
  if !state.inFlow ∧ !state.allowsKey then throw .malformed
  let state :=
    if state.inFlow then state
    else state.openBlock state.column state.tokens.length .blockMappingStart
  let state ← state.dropKey
  return { state.pass 1 token with allowsKey := !state.inFlow }

/-- A colon. If a key may have begun before it, that is a key now. -/
def readValue (state : TokenState) : Except Fault TokenState :=
  match state.keys with
  | some key :: rest =>
    let state := { state.emitAt key.position [.key] with keys := none :: rest }
    let state :=
      if state.inFlow then state
      else state.openBlock key.column key.position .blockMappingStart
    .ok { state.pass 1 .value with allowsKey := false }
  | _ => state.readIndicator .value

def readBlockScalar (folded : Bool) (state : TokenState) : Except Fault TokenState := do
  let state ← state.dropKey
  let (text, cursor) ← Block.read folded (max state.leastIndent 1) state.cursor.step
  return { state.emit (.scalar text false) with cursor := cursor, allowsKey := true }

def readQuoted (isDouble : Bool) (state : TokenState) : Except Fault TokenState := do
  let state ← state.saveKey
  let (text, cursor) ← Quoted.read isDouble (state.cursor.rest.length + 1) state.cursor.step
  return { state.emit (.scalar text false) with cursor := cursor, allowsKey := false }

def readPlain (state : TokenState) : Except Fault TokenState := do
  let state ← state.saveKey
  let (text, cursor, ended) := Plain.read state.inFlow state.leastIndent
    (state.cursor.rest.length + 1) [] state.cursor
  return { state.emit (.scalar text true) with cursor := cursor, allowsKey := ended }

def startsPlain (inFlow : Bool) (c : Char) (next : Option Char) : Bool :=
  !(isGap (some c) || c ∈ "-?:,[]#&*!|>%@".toList || c ∈ ['{', '}', '\x22', Char.ofNat 0x27,
    Char.ofNat 0x60]) ||
  (!isGap next && (c == '-' || (!inFlow && (c == '?' || c == ':'))))

def readToken (c : Char) (state : TokenState) : Except Fault TokenState :=
  let next := state.cursor.peekAt? 1
  let alone := isGap next
  let atStart : Bool := state.column == 0
  if c = '%' ∧ atStart then state.readDirective
  else if atStart ∧ state.cursor.atMark '-' then state.readDocumentMark .documentStart
  else if atStart ∧ state.cursor.atMark '.' then state.readDocumentMark .documentEnd
  else if c = '[' then state.readFlowStart .flowSequenceStart
  else if c = '{' then state.readFlowStart .flowMappingStart
  else if c = ']' then state.readFlowEnd .flowSequenceEnd
  else if c = '}' then state.readFlowEnd .flowMappingEnd
  else if c = ',' then state.readFlowEntry
  else if c = '-' ∧ alone then state.readBlockEntry
  else if c = '?' ∧ (state.inFlow ∨ alone) then state.readIndicator .key
  else if c = ':' ∧ (state.inFlow ∨ alone) then state.readValue
  else if c = '*' then state.readName .aliasOf
  else if c = '&' then state.readName .anchor
  else if c = '!' then state.readTag
  else if c = '|' ∧ !state.inFlow then state.readBlockScalar false
  else if c = '>' ∧ !state.inFlow then state.readBlockScalar true
  else if c = '\x22' then state.readQuoted true
  else if c = Char.ofNat 0x27 then state.readQuoted false
  else if startsPlain state.inFlow c next then state.readPlain
  else .error .malformed

/-- The tokens before which nothing more can be put, because no key can have begun among
them. -/
def settled (state : TokenState) : List Token :=
  let possible := state.keys.filterMap fun key => key.filter fun key => !state.isStale key
  let count := (possible.map (·.position)).foldl min state.tokens.length
  state.tokens.reverse.take count

/-- Reads all tokens. Every token takes at least one character. A fault other than of
grammar comes behind the tokens that are settled before it. -/
def readAll : Nat → TokenState → Except Fault (List Token)
  | 0, _ => .error .malformed
  | steps + 1, before => do
    let state ← before.toToken.dropStale
    let state := state.unwind
    match state.cursor.peek? with
    | none =>
      let state ← state.unwindAll.dropKey
      return state.tokens.reverse
    | some c =>
      match state.readToken c with
      | .ok next => readAll steps next
      | .error .malformed => throw .malformed
      | .error fault => return before.settled ++ [.fault fault]

end TokenState

def isAllowed (c : Char) : Bool :=
  let code := c.toNat
  code == 9 || code == 10 || code == 13 || (0x20 ≤ code && code ≤ 0x7e) || code == 0x85 ||
    (0xa0 ≤ code && code ≤ 0xfffd) || 0x10000 ≤ code

namespace Token

def read (text : Text) : Except Fault (List Token) :=
  if text.all isAllowed then TokenState.readAll (text.length + 2) (TokenState.start text)
  else .error .malformed

end Token

end DocAtlas.Yaml
