import DocAtlas.Diagnostic

/-!
# Logs

What the program notes while it works. Every record belongs to a stage; those of the
diagnostics stage repeat the diagnostics, and the console leaves them out unless it is
asked to echo them. A log file gets every record of its level.
-/

namespace DocAtlas.Log

inductive Level where
  | debug
  | info
  | warning
deriving DecidableEq, Repr

namespace Level

def label : Level → Text
  | debug => "DEBUG"
  | info => "INFO"
  | warning => "WARNING"

def weight : Level → Nat
  | debug => 10
  | info => 20
  | warning => 30

end Level

def rootName : Text := "qdocgen"

def nameOf (stage : Option Text) : Text :=
  match stage with
  | none | some [] => rootName
  | some stage => Text.join [rootName, ".", stage]

def diagnosticsName : Text := nameOf (some "diagnostics".toList)

structure Record where
  stage : Text
  level : Level
  message : Text
deriving DecidableEq, Repr

namespace Record

def name (record : Record) : Text := nameOf (some record.stage)

def debug (stage : Text) (parts : List Text) : Record := ⟨stage, .debug, Text.join parts⟩

def ofDiagnostic (diagnostic : Diagnostic) : Record :=
  ⟨"diagnostics", .warning, diagnostic.describe⟩

end Record

def isDiagnostics (name : Text) : Bool :=
  name == diagnosticsName || Text.startsWith (diagnosticsName ++ ['.']) name

def passes (echo : Bool) (name : Text) : Bool := echo || !isDiagnostics name

structure Setup where
  level : Level
  echo : Bool
  file : Option Text
deriving DecidableEq, Repr

namespace Setup

/-- Diagnostics are echoed when the log is verbose, unless that is said otherwise. -/
def ofOptions (verbose : Bool) (file : Option Text) (echo : Option Bool) : Setup :=
  ⟨if verbose then .debug else .info, echo.getD verbose, file⟩

def announcement (setup : Setup) : Record :=
  { stage := []
    level := .debug
    message := Text.join ["Logging configured (level=", setup.level.label, ", log_file=",
      setup.file.getD "None", ")"] }

def admits (setup : Setup) (record : Record) : Bool :=
  setup.level.weight ≤ record.level.weight

def consoleLine? (setup : Setup) (record : Record) : Option Text :=
  if setup.admits record && passes setup.echo record.name then
    some (Text.join ["[", rootName, "] ", record.level.label, " ", record.message])
  else none

def fileLine? (setup : Setup) (record : Record) : Option Text :=
  if setup.admits record then
    some (Text.join [record.level.label, " ", record.name, ": ", record.message])
  else none

end Setup

end DocAtlas.Log
