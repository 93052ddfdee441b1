import DocAtlas.Binding
import DocAtlas.Name.Lookup

/-!
# Resolving references

Every reference of every entry is settled against the keys of all entries, entry by
entry in the order of the keys. On request a property is first linked with its
documented accessors and notify signal, in both directions.
-/

namespace DocAtlas

/-- A link between two entries that no one has written. -/
structure Link where
  source : Text
  target : Text
deriving DecidableEq, Repr

namespace Link

def partnerFields : List Text := ["read", "write", "notify"]

/-- A name as it is meant inside an owner: one without a separator is the owner's. -/
def qualifyIn (owner : Option Text) (name : Text) : Text :=
  match owner with
  | none => name
  | some owner => if (Name.owner? name).isSome then name else Name.qualify owner name

def partners (symbol : Symbol) : List Text :=
  partnerFields.filterMap fun field =>
    (symbol.metadataText? field).map (qualifyIn symbol.owner?)

/-- Adds a link unless the entry has a reference or a link to the target already. -/
def add (entries : List Entry) (links : List Link) (link : Link) : List Link :=
  let written := (entries.filter fun entry => entry.key == link.source).flatMap (·.references)
  if written.any (fun reference => reference.target == link.target) || links.contains link then
    links
  else links ++ [link]

def addPair (entries : List Entry) (key : Text) (links : List Link) (partner : Text) : List Link :=
  if partner = key ∨ ¬ entries.any (fun entry => entry.key == partner) then links
  else add entries (add entries links ⟨key, partner⟩) ⟨partner, key⟩

def addProperty (table : SymbolTable) (entries : List Entry) (links : List Link) (entry : Entry) :
    List Link :=
  match entry.kind, table.get? entry.key with
  | .propertyKind, some symbol => (partners symbol).foldl (addPair entries entry.key) links
  | _, _ => links

def ofEntries (table : SymbolTable) (entries : List Entry) : List Link :=
  entries.foldl (addProperty table entries) []

def toReference (link : Link) : CrossReference :=
  { source := link.source, target := link.target, origin := .implicit, file := none,
    line := none, state := .unresolved }

end Link

/-- What a pass came to: the entries with their references settled, or the reference
that could not be; and the diagnostics until then. -/
structure Resolution where
  entries : Except AlreadySettled (List Entry)
  diagnostics : List Diagnostic

namespace Resolution

def keys (entries : List Entry) : List Text := entries.map (·.key)

def find? (entries : List Entry) (key : Text) : Option Entry :=
  entries.find? fun entry => entry.key == key

def outcome (entries : List Entry) (scope : Option Text) (target : Text) : ReferenceState :=
  match Name.resolve? target (keys entries) scope with
  | none => .dangling
  | some key => .resolved key ((find? entries key).map (·.href))

def danglingDiagnostic (table : SymbolTable) (reference : CrossReference) : Diagnostic :=
  let reason : Text :=
    if table.contains reference.target then "has no documentation" else "is not a known symbol"
  { kind := .danglingCrossReference
    message :=
      Text.join ["reference from ", reference.source, " to ", reference.target, " ", reason]
    file := reference.file
    line := reference.line
    symbol := some reference.target
    tags := [] }

def diagnostic? (table : SymbolTable) (reference : CrossReference) : Option Diagnostic :=
  if reference.state = .dangling then some (danglingDiagnostic table reference) else none

def settleAll (table : SymbolTable) (entries : List Entry) (scope : Option Text) :
    List CrossReference → Except AlreadySettled (List CrossReference) × List Diagnostic
  | [] => (.ok [], [])
  | reference :: rest =>
    match reference.settle (outcome entries scope reference.target) with
    | .error error => (.error error, [])
    | .ok settled =>
      let (others, diagnostics) := settleAll table entries scope rest
      (others.map (settled :: ·), (diagnostic? table settled).toList ++ diagnostics)

def referencesOf (links : List Link) (entry : Entry) : List CrossReference :=
  entry.references ++
    ((links.filter fun link => link.source == entry.key).map Link.toReference)

def settleEntries (table : SymbolTable) (entries : List Entry) (links : List Link) :
    List Entry → Except AlreadySettled (List Entry) × List Diagnostic
  | [] => (.ok [], [])
  | entry :: rest =>
    match settleAll table entries entry.scope? (referencesOf links entry) with
    | (.error error, diagnostics) => (.error error, diagnostics)
    | (.ok references, diagnostics) =>
      let (others, more) := settleEntries table entries links rest
      (others.map ({ entry with references := references } :: ·), diagnostics ++ more)

def sortedByKey (entries : List Entry) : List Entry :=
  entries.mergeSort fun first second => Text.le first.key second.key

def links (linkPartners : Bool) (table : SymbolTable) (entries : List Entry) : List Link :=
  if linkPartners then Link.ofEntries table entries else []

/-- One pass over all entries. `linkPartners` asks for the links of properties. -/
def ofEntries (linkPartners : Bool) (table : SymbolTable) (entries : List Entry) : Resolution :=
  let (settled, diagnostics) :=
    settleEntries table entries (links linkPartners table entries) (sortedByKey entries)
  ⟨settled, diagnostics⟩

def danglingCount (entries : List Entry) : Nat :=
  (entries.flatMap (·.references)).countP fun reference => reference.state = .dangling

end Resolution

end DocAtlas
