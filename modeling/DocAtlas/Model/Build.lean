import DocAtlas.Comment.Scan
import DocAtlas.Log
import DocAtlas.Model
import DocAtlas.Value.Literal

/-!
# Building a model

From source texts and a symbol table to a model: the comments of all sources are
scanned, parsed, bound to symbols and cross-referenced. A run keeps what every stage
came to; the model, its diagnostics and the log are views of it.
-/

namespace DocAtlas

/-! ## What can be wrong with the input -/

inductive ContractError where
  | noTable
  | noTableForBinding
  | noTableConfigured
  | tableShape
  | tableMembers
  | noSources
  | sourceShape (literal : Text)
deriving DecidableEq, Repr

namespace ContractError

def message : ContractError → Text
  | noTable => "A symbol table is required to build documentation"
  | noTableForBinding => "A symbol table is required to bind documentation"
  | noTableConfigured => "No symbol table configured; set `symbols` in .qdocgen.yml"
  | tableShape => "symbol_table must be a SymbolTable or an iterable of Symbol"
  | tableMembers => "symbol_table must contain only Symbol records"
  | noSources => "sources must be provided"
  | sourceShape literal =>
    Text.join ["Source entries must be (path, text) pairs, got ", literal]

end ContractError

inductive BuildError where
  | contract (error : ContractError)
  | sourcesNotIterable
  | longInteger
  | alreadySettled (error : AlreadySettled)
deriving DecidableEq, Repr

namespace BuildError

def message : BuildError → Text
  | contract error => error.message
  | sourcesNotIterable => "sources must be a list of (path, text) pairs"
  | longInteger => Value.longIntegerMessage
  | alreadySettled error => error.message

end BuildError

inductive SetupError where
  | noMarkers
  | noWorkers
deriving DecidableEq, Repr

namespace SetupError

def message : SetupError → Text
  | noMarkers => "At least one documentation comment marker is required"
  | noWorkers => "parse_workers must be at least 1"

end SetupError

/-! ## Inputs -/

structure Source where
  path : Text
  text : Text
deriving DecidableEq, Repr

namespace Source

/-- The complaint about an item that is no source shows it, which an integer of too many digits
inside does not allow. -/
def refusal (item : Value) : BuildError :=
  if item.hasLongInteger then .longInteger else .contract (.sourceShape item.literal)

def ofItem (item : Value) : Except BuildError Source :=
  match item with
  | .list [.text path, .text text] => .ok ⟨path, text⟩
  | other => .error (refusal other)

def ofEntry (entry : Value × Value) : Except BuildError Source :=
  match entry with
  | (.text path, .text text) => .ok ⟨path, text⟩
  | (key, value) => .error (refusal (.pair key value))

/-- The sources that a value holds. A text is taken for the list of its characters, none
of which is a source. -/
def ofValue (value : Value) : Except BuildError (List Source) :=
  match value with
  | .null => .error (.contract .noSources)
  | .list items => items.mapM ofItem
  | .mapping entries => entries.mapM ofEntry
  | .text [] => .ok []
  | .text (c :: _) => .error (refusal (.text [c]))
  | _ => .error .sourcesNotIterable

end Source

inductive TableInput where
  | table (table : SymbolTable)
  | symbols (symbols : List Symbol)
  | data (value : Value)

namespace TableInput

/-- Plain data is no symbol table, except for an empty list. -/
def toTable (input : TableInput) : Except ContractError SymbolTable :=
  match input with
  | table given => .ok given
  | symbols given => .ok (.ofList given)
  | data .null => .error .noTable
  | data (.list []) => .ok .empty
  | data (.list _) => .error .tableMembers
  | data _ => .error .tableShape

end TableInput

structure Builder where
  markers : Markers
  linkPartners : Bool
  workers : Int
  workers_positive : 1 ≤ workers

def defaultMarkers : List Text := ["/*!"]

namespace Builder

def ofSettings (markers : List Text) (linkPartners : Bool) (workers : Int) :
    Except SetupError Builder :=
  match Markers.ofList? markers with
  | none => .error .noMarkers
  | some markers =>
    if positive : 1 ≤ workers then .ok ⟨markers, linkPartners, workers, positive⟩
    else .error .noWorkers

end Builder

/-! ## Runs -/

structure Run where
  sources : List Source
  table : SymbolTable
  parsed : List ParsedComment
  candidates : List Candidate
  binding : Binding
  resolution : Resolution

namespace Comment

def unterminatedDiagnostic (comment : Comment) : Diagnostic :=
  { kind := .unterminatedComment
    message := "documentation comment is not closed before end of file"
    file := some comment.span.file
    line := some comment.span.startLine
    symbol := none
    tags := [] }

def unterminated? (comment : Comment) : Option Diagnostic :=
  if comment.terminated then none else some comment.unterminatedDiagnostic

end Comment

namespace ParsedComment

def diagnostics (parsed : ParsedComment) : List Diagnostic :=
  parsed.judged.filterMap fun judged => judged.fault.map fun fault => fault.diagnostic judged.tag

end ParsedComment

namespace Run

def parse (markers : Markers) (sources : List Source) : List ParsedComment :=
  (sources.flatMap fun source => Comment.scan markers source.path source.text).map (·.parse)

def fileOrder (sources : List Source) : List Text :=
  sources.map fun source => Text.slashed source.path

def ofSources (builder : Builder) (sources : List Source) (table : SymbolTable) : Run :=
  let parsed := parse builder.markers sources
  let candidates := Candidate.collect table (fileOrder sources) parsed
  let binding := Binding.ofCandidates table candidates
  let resolution := Resolution.ofEntries builder.linkPartners table binding.entries
  ⟨sources, table, parsed, candidates, binding, resolution⟩

def scanDiagnostics (run : Run) : List Diagnostic :=
  run.parsed.filterMap fun parsed => parsed.comment.unterminated?

def tagDiagnostics (run : Run) : List Diagnostic := run.parsed.flatMap (·.diagnostics)

def diagnostics (run : Run) : List Diagnostic :=
  run.scanDiagnostics ++ run.tagDiagnostics ++ run.binding.diagnostics ++
    run.resolution.diagnostics

def model (run : Run) : Except BuildError Model :=
  match run.resolution.entries with
  | .ok entries => .ok ⟨entries, run.diagnostics⟩
  | .error error => .error (.alreadySettled error)

/-! ## The log of a run -/

def scanRecord (run : Run) : Log.Record :=
  .debug "pipeline" ["Tokenized ", Text.natText run.parsed.length, " documentation blocks from ",
    Text.natText run.sources.length, " files"]

def bindRecord (run : Run) : Log.Record :=
  .debug "binder" ["Bound ", Text.natText run.candidates.length, " blocks to ",
    Text.natText run.binding.entries.length, " symbols"]

def resolveRecord (entries : List Entry) : Log.Record :=
  .debug "resolver" ["Resolved references for ", Text.natText entries.length, " entries (",
    Text.natText (Resolution.danglingCount entries), " dangling)"]

def finishRecord (run : Run) (entries : List Entry) : Log.Record :=
  { stage := "pipeline"
    level := .info
    message := Text.join ["Built documentation for ", Text.natText entries.length,
      " symbols with ", Text.natText run.diagnostics.length, " diagnostics"] }

def log (run : Run) : List Log.Record :=
  run.scanDiagnostics.map .ofDiagnostic ++ [run.scanRecord] ++
    run.tagDiagnostics.map .ofDiagnostic ++ run.binding.diagnostics.map .ofDiagnostic ++
    [run.bindRecord] ++ run.resolution.diagnostics.map .ofDiagnostic ++
    match run.resolution.entries with
    | .ok entries => [resolveRecord entries, run.finishRecord entries]
    | .error _ => []

end Run

namespace Model

/-- The model of what a caller gives, or what is wrong with it. The table is looked at
before the sources. -/
def build (builder : Builder) (sources : Value) (table : TableInput) : Except BuildError Model := do
  let table ← table.toTable.mapError .contract
  let sources ← Source.ofValue sources
  (Run.ofSources builder sources table).model

end Model

end DocAtlas
