import DocAtlas.Failure
import DocAtlas.Log

/-!
# Symbol files

The symbols that a file lists, and what the log says about reading them.
-/

namespace DocAtlas

/-- A kind that cannot even be spelled, for an integer in it, is no matter of symbols. -/
def SymbolTableError.failure (error : SymbolTableError) : Failure :=
  match error with
  | .unknownKind _ kind => if kind.hasLongInteger then .longInteger else .symbols error
  | _ => .symbols error

namespace Symbol

def ofText (parse : Yaml.Loader) (fileName text : Text) : Except Failure (List Symbol) :=
  match parse text with
  | .error .malformed => .error (.symbols (.unparsable fileName))
  | .error fault => .error (.document fault)
  | .ok contents => (ofContents fileName contents).mapError SymbolTableError.failure

def load (parse : Yaml.Loader) (tree : FileTree) (path : Path) : Except Failure (List Symbol) :=
  match tree.readText path.parts with
  | .error (.tree .nullCharacter) => .error (.tree .nullCharacter)
  | .error (.tree fault) => .error (.symbols (.unreadable path.toText (fault.message path.toText)))
  | .error (.encoding fault) => .error (.encoding fault)
  | .ok text => ofText parse path.name text

def loadRecord (path : Path) (symbols : List Symbol) : Log.Record :=
  .debug "symbols" ["Loaded ", Text.natText symbols.length, " symbols from ", path.toText]

def duplicateRecord (name : Text) : Log.Record :=
  .debug "symbols" ["Duplicate symbol ", name, " ignored"]

def loadLog (path : Path) (symbols : List Symbol) : List Log.Record :=
  loadRecord path symbols :: (SymbolTable.duplicates symbols).map duplicateRecord

end Symbol

end DocAtlas
