import DocAtlas.FileTree.Glob
import DocAtlas.Settings
import DocAtlas.Symbol.Record
import DocAtlas.Yaml.Fault

/-!
# Failures

Why a project cannot be documented: its settings, its symbols or its source patterns
are wrong, a file that it needs cannot be read, or a path that it is asked for is none.
-/

namespace DocAtlas

inductive Failure where
  | settings (error : SettingsError)
  | symbols (error : SymbolTableError)
  | build (error : BuildError)
  | setup (error : SetupError)
  | pattern (fault : Glob.Fault)
  | tree (fault : FileTree.Fault)
  | encoding (fault : Utf8.Fault)
  | document (fault : Yaml.Fault)
  | longInteger
  | noHome
  | noLogPath

namespace Failure

def message : Failure → Text
  | settings error => error.message
  | symbols error => error.message
  | build error => error.message
  | setup error => error.message
  | pattern fault => fault.message
  | tree fault => fault.summary
  | encoding fault => fault.message
  | document fault => fault.message
  | longInteger => Value.longIntegerMessage
  | noHome => "Could not determine home directory."
  | noLogPath => "no path for the log file"

end Failure

namespace FileTree

inductive TextFault where
  | tree (fault : Fault)
  | encoding (fault : Utf8.Fault)
deriving DecidableEq, Repr

namespace TextFault

def failure : TextFault → Failure
  | tree fault => .tree fault
  | encoding fault => .encoding fault

def message (fault : TextFault) (path : Text) : Text :=
  match fault with
  | tree fault => fault.message path
  | encoding fault => fault.message

end TextFault

/-- The text of a file, with a newline alone at the end of every line. -/
def readText (tree : FileTree) (names : List Text) : Except TextFault Text := do
  let content ← (tree.read names).mapError .tree
  let text ← (Utf8.decode content).mapError .encoding
  return Utf8.unifyLineEnds text

end FileTree

end DocAtlas
