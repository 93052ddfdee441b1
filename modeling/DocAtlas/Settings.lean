import DocAtlas.FileTree
import DocAtlas.Model.Build
import DocAtlas.Text.Lowercase
import DocAtlas.Value.Literal

/-!
# Settings

What a project's settings file says: which files are its sources, where its symbols are
listed, and how its comments are read. A setting that has the wrong form counts as not
given; only the file as a whole and the number of workers are checked.
-/

namespace DocAtlas

structure Settings where
  root : Path
  sources : List Text
  exclusions : List Text
  symbols : Option Path
  markers : List Text
  linkPartners : Bool
  workers : Int
  output : Option Path
deriving DecidableEq, Repr

inductive SettingsError where
  | unparsable
  | notAMapping
  | noWorkers
  | longInteger
deriving DecidableEq, Repr

namespace Settings

def fileName : Text := ".qdocgen.yml"

def defaultSources : List Text := ["**/*.cpp", "**/*.h"]

def defaults (root : Path) : Settings :=
  { root := root
    sources := defaultSources
    exclusions := []
    symbols := none
    markers := defaultMarkers
    linkPartners := false
    workers := 1
    output := none }

end Settings

namespace SettingsError

def message : SettingsError → Text
  | unparsable => Text.join ["Failed to parse ", Settings.fileName]
  | notAMapping => Text.join [Settings.fileName, " must contain a mapping at the root"]
  | noWorkers => "parse_workers must be at least 1"
  | longInteger => Value.longIntegerMessage

end SettingsError

namespace Settings

/-! ## What a setting says -/

/-- A text or a number is a text; a truth value is none. -/
def asText? : Value → Option Text
  | .truth _ => none
  | value => value.scalarText?

def asInteger? : Value → Option Int
  | .integer value => some value
  | .text value => Text.integer? value
  | _ => none

def trueWords : List Text := ["true", "yes", "1"]

def falseWords : List Text := ["false", "no", "0"]

def asTruth? : Value → Option Bool
  | .truth value => some value
  | .text value =>
    let word := Text.lower (Text.trim value)
    if trueWords.contains word then some true
    else if falseWords.contains word then some false
    else none
  | _ => none

/-- A single text is a list of one; of a list its scalars count. Bytes are a list of
numbers. An integer that is too long to be written cannot become a text. -/
def asTexts : Value → Except SettingsError (List Text)
  | .text value => .ok [value]
  | .bytes bytes => .ok (bytes.map fun byte => Text.natText byte.toNat)
  | other =>
    let items := other.items?.getD []
    if items.any Value.isLongInteger then .error .longInteger
    else .ok (items.filterMap Value.scalarText?)

def asPath? (root : Path) (value : Value) : Except SettingsError (Option Path) :=
  if value.isLongInteger then .error .longInteger
  else
    match asText? value with
    | none | some [] => .ok none
    | some text => .ok (some (root.appendText text))

def orDefault (given default : List Text) : List Text := if given = [] then default else given

/-! ## Settings from the contents of a file -/

/-- The settings that a mapping's entries say; a setting that is left out is null. -/
def ofEntries (root : Path) (entries : List (Value × Value)) :
    Except SettingsError Settings := do
  let setting (key : Text) : Value := (Value.lookup? key entries).getD .null
  let sources ← asTexts (setting "sources")
  let exclusions ← asTexts (setting "exclude_paths")
  let symbols ← asPath? root (setting "symbols")
  let markers ← asTexts (setting "comment_markers")
  let workers := (asInteger? (setting "parse_workers")).getD 1
  if workers < 1 then throw .noWorkers
  let output ← asPath? root (setting "output")
  .ok
    { root := root
      sources := orDefault sources defaultSources
      exclusions := exclusions
      symbols := symbols
      markers := orDefault markers defaultMarkers
      linkPartners := (asTruth? (setting "link_notify_signals")).getD false
      workers := workers
      output := output }

/-- The settings that a file's contents say. Anything empty says nothing. -/
def ofValue (root : Path) (contents : Value) : Except SettingsError Settings :=
  if contents.isEmpty then .ok (defaults root)
  else
    match contents.entries? with
    | some entries => ofEntries root entries
    | none => .error .notAMapping

end Settings

end DocAtlas
