import DocAtlas.Path
import DocAtlas.Text.Digit

/-!
# Arguments

What the arguments of the program ask for. A command stands first, behind the options
that hold for every command. Options may be shortened as long as one option alone is
meant, a value may be attached to its option, and single-letter options without a value
may share a dash. Two dashes alone end the options; as an attached value they are taken
away, which leaves the option without one.
-/

namespace DocAtlas.CommandLine

inductive Flag where
  | help
  | verbose
  | logFile
  | output
  | strict
  | scope
  | host
  | portNumber
deriving DecidableEq, Repr

def Flag.takesValue : Flag → Bool
  | help | verbose | strict => false
  | _ => true

abbrev Options := List (Text × Flag)

namespace Options

def common : Options :=
  [("-h", .help), ("--help", .help), ("-v", .verbose), ("--verbose", .verbose)]

def program : Options := ("--log-file", .logFile) :: common

end Options

inductive CommandName where
  | build
  | «show»
  | serve
deriving DecidableEq, Repr

namespace CommandName

def label : CommandName → Text
  | build => "build"
  | «show» => "show"
  | serve => "serve"

def ofLabel? (text : Text) : Option CommandName :=
  [build, «show», serve].find? fun name => name.label == text

def options : CommandName → Options
  | build =>
    ("-o", .output) :: ("--output", .output) :: ("--strict", .strict) :: Options.common
  | «show» => ("--scope", .scope) :: Options.common
  | serve => ("--host", .host) :: ("--port", .portNumber) :: Options.common

def namesSymbol (name : CommandName) : Bool := name == «show»

end CommandName

inductive Refusal where
  | help
  | usage
deriving DecidableEq, Repr

/-! ## Kinds of arguments -/

/-- What an argument is by its form. A long option may have a value behind an equals
sign, a short one anything behind its letter. -/
inductive Form where
  | separator
  | plain
  | long (flag : Flag) (value : Option Text)
  | short (flag : Flag) (attached : Text)
  | unknown
deriving DecidableEq, Repr

def cutEquals : Text → Text × Option Text
  | [] => ([], none)
  | '=' :: rest => ([], some rest)
  | c :: rest => let (name, value) := cutEquals rest; (c :: name, value)

def isDigit (c : Char) : Bool := (Text.digitValue? c).isSome

def isNumber (text : Text) : Bool :=
  match text.dropWhile isDigit with
  | [] => !text.isEmpty
  | ['\n'] => text.length != 1
  | '.' :: fraction => fraction.any isDigit && (fraction.dropWhile isDigit).all (· == '\n') &&
      (fraction.dropWhile isDigit).length ≤ 1
  | _ => false

def formOfDashed (afterDash : Text) : Form :=
  if isNumber afterDash || afterDash.contains ' ' then .plain else .unknown

namespace Options

def matching (options : Options) (written : Text) : List Flag :=
  (options.filter fun option => Text.startsWith written option.1).map (·.2)

def form (options : Options) (argument : Text) : Except Refusal Form :=
  match argument with
  | ['-', '-'] => .ok .separator
  | '-' :: '-' :: rest =>
    let (name, value) := cutEquals ('-' :: '-' :: rest)
    match options.lookup name, options.matching name with
    | some flag, _ => .ok (.long flag value)
    | none, [flag] => .ok (.long flag value)
    | none, [] => .ok (formOfDashed ('-' :: rest))
    | none, _ => .error .usage
  | '-' :: letter :: rest =>
    match options.lookup ['-', letter] with
    | some flag => .ok (.short flag rest)
    | none => .ok (formOfDashed (letter :: rest))
  | _ => .ok .plain

end Options

structure Argument where
  text : Text
  form : Form
deriving DecidableEq, Repr

namespace Argument

def isOption (argument : Argument) : Bool :=
  match argument.form with
  | .separator | .plain => false
  | _ => true

def isPlain (argument : Argument) : Bool := argument.form = .plain

def isSeparator (argument : Argument) : Bool := argument.form = .separator

def classify (options : Options) : List Text → Except Refusal (List Argument)
  | [] => .ok []
  | text :: rest => do
    match ← options.form text with
    | .separator => return ⟨text, .separator⟩ :: rest.map fun other => ⟨other, .plain⟩
    | form => return ⟨text, form⟩ :: (← classify options rest)

end Argument

/-! ## What was chosen so far -/

/-- The choices so far. A log file, a host or a port may be chosen and yet have no value. -/
structure Choices where
  verbose : Bool
  logFile : Option (Option Path)
  output : Option Path
  strict : Bool
  scope : Option Text
  host : Option Text
  portNumber : Option Int
  symbol : Option Text
  path : Option Text
  refused : Bool
deriving DecidableEq, Repr

namespace Choices

def start : Choices :=
  { verbose := false
    logFile := none
    output := none
    strict := false
    scope := none
    host := some "127.0.0.1"
    portNumber := some 8000
    symbol := none
    path := none
    refused := false }

def refuse (choices : Choices) : Choices := { choices with refused := true }

def blankScope : Text := "[]"

def portOf (value : Text) : Except Refusal Int :=
  match Text.integer? value with
  | some portNumber => .ok portNumber
  | none => .error .usage

def set (choices : Choices) (flag : Flag) (value : Option Text) : Except Refusal Choices :=
  match flag with
  | .help => .error .help
  | .verbose => .ok { choices with verbose := true }
  | .logFile => .ok { choices with logFile := some (value.map .ofText) }
  | .output => .ok { choices with output := value.map .ofText }
  | .strict => .ok { choices with strict := true }
  | .scope => .ok { choices with scope := some (value.getD blankScope) }
  | .host => .ok { choices with host := value }
  | .portNumber => do return { choices with portNumber := ← value.mapM portOf }

def setAll (choices : Choices) (settings : List (Flag × Option Text)) :
    Except Refusal Choices :=
  settings.foldlM (fun choices setting => choices.set setting.1 setting.2) choices

end Choices

/-! ## Options -/

/-- What an option asks for: flags with their values, perhaps a last flag whose value is
the next argument, and perhaps something that is not known. -/
structure Request where
  settings : List (Flag × Option Text)
  waiting : Option Flag
  refused : Bool
deriving DecidableEq, Repr

namespace Request

def alone (flag : Flag) : Request :=
  if flag.takesValue then ⟨[], some flag, false⟩ else ⟨[(flag, none)], none, false⟩

/-- An attached value; two dashes are none. -/
def withValue (flag : Flag) (value : Text) : Except Refusal Request :=
  if flag.takesValue then
    .ok ⟨[(flag, if value = ['-', '-'] then none else some value)], none, false⟩
  else .error .usage

def before (flag : Flag) (request : Request) : Request :=
  { request with settings := (flag, none) :: request.settings }

def ofLetters (options : Options) : Flag → Text → Except Refusal Request
  | flag, [] => .ok (alone flag)
  | flag, c :: rest =>
    if flag.takesValue then withValue flag (c :: rest)
    else
      match options.lookup ['-', c] with
      | some next => (ofLetters options next rest).map (before flag)
      | none => .error .usage

/-- Right behind the first letter an equals sign may stand before what is attached. -/
def ofShort (options : Options) (flag : Flag) : Text → Except Refusal Request
  | ['='] => withValue flag []
  | '=' :: attached => ofLetters options flag attached
  | attached => ofLetters options flag attached

def ofForm (options : Options) : Form → Except Refusal Request
  | .long flag none => .ok (alone flag)
  | .long flag (some value) => withValue flag value
  | .short flag attached => ofShort options flag attached
  | _ => .ok ⟨[], none, true⟩

end Request

/-- Follows an option: its flags are set, one of them perhaps to the next argument. The
arguments behind it are left. -/
def takeOption (options : Options) (choices : Choices) (form : Form) (rest : List Argument) :
    Except Refusal (Choices × List Argument) := do
  let request ← Request.ofForm options form
  let choices := if request.refused then choices.refuse else choices
  match request.waiting, rest with
  | none, _ => return (← choices.setAll request.settings, rest)
  | some flag, next :: rest =>
    if next.isPlain then
      return (← choices.setAll (request.settings ++ [(flag, some next.text)]), rest)
    else throw .usage
  | some _, [] => throw .usage

/-! ## Plain arguments -/

def takePlain (arguments : List Argument) : List Argument × List Argument :=
  let before := arguments.takeWhile (·.isSeparator)
  match arguments.dropWhile (·.isSeparator) with
  | next :: rest =>
    if next.isPlain then
      (before ++ [next] ++ rest.takeWhile (·.isSeparator), rest.dropWhile (·.isSeparator))
    else (before, next :: rest)
  | [] => (before, [])

/-- The value that some taken arguments stand for; one pair of dashes says nothing. -/
def valueOf? (taken : List Argument) : Option Text :=
  ((taken.map (·.text)).erase ['-', '-']).head?

structure Expected where
  symbol : Bool
  path : Bool
deriving DecidableEq, Repr

/-- Takes the expected arguments that come next. The path may be left out, and then is
not expected any more; it is not looked for before the symbol is there. -/
def takePlains (choices : Choices) (expected : Expected) (arguments : List Argument) :
    Choices × Expected × List Argument :=
  let takePath (choices : Choices) (arguments : List Argument) :
      Choices × Expected × List Argument :=
    if expected.path then
      let (taken, rest) := takePlain arguments
      ({ choices with path := valueOf? taken }, ⟨false, false⟩, rest)
    else (choices, ⟨false, false⟩, arguments)
  if expected.symbol then
    let (taken, rest) := takePlain arguments
    if taken.any (·.isPlain) then takePath { choices with symbol := valueOf? taken } rest
    else (choices, expected, arguments)
  else takePath choices arguments

/-- Reads the arguments of a command. Plain arguments that nobody expects are refused at
the end, so that a request for help still counts. -/
def readArguments (options : Options) : Nat → Choices → Expected → List Argument →
    Except Refusal (Choices × Expected)
  | 0, choices, expected, _ => .ok (choices, expected)
  | _ + 1, choices, expected, [] =>
    let (choices, expected, _) := takePlains choices expected []
    .ok (choices, expected)
  | steps + 1, choices, expected, argument :: rest =>
    if argument.isOption then do
      let (choices, rest) ← takeOption options choices argument.form rest
      readArguments options steps choices expected rest
    else
      let (choices, expected, remaining) := takePlains choices expected (argument :: rest)
      if remaining.length < rest.length + 1 then
        readArguments options steps choices expected remaining
      else readArguments options steps choices.refuse expected (remaining.dropWhile (!·.isOption))

/-! ## Commands -/

inductive Command where
  | build (output : Option Path) (strict : Bool)
  | «show» (symbol : Text) (scope : Option Text)
  | serve (host : Option Text) (portNumber : Option Int)
deriving DecidableEq, Repr

def Command.name : Command → CommandName
  | build _ _ => .build
  | «show» _ _ => .show
  | serve _ _ => .serve

/-- What the arguments ask for. A log file may be asked for without saying which. -/
structure Invocation where
  verbose : Bool
  logFile : Option (Option Path)
  path : Path
  command : Command
deriving DecidableEq, Repr

namespace Invocation

def ofChoices (name : CommandName) (choices : Choices) : Except Refusal Invocation := do
  if choices.refused then throw .usage
  let command : Command ← match name, choices.symbol with
    | .build, _ => .ok (.build choices.output choices.strict)
    | .show, some symbol => .ok (.show symbol choices.scope)
    | .show, none => .error .usage
    | .serve, _ => .ok (.serve choices.host choices.portNumber)
  return ⟨choices.verbose, choices.logFile, .ofText (choices.path.getD ['.']), command⟩

def ofCommand (choices : Choices) (name : Text) (arguments : List Text) :
    Except Refusal Invocation := do
  match CommandName.ofLabel? name with
  | none => throw .usage
  | some name =>
    let arguments ← Argument.classify name.options arguments
    let (choices, _) ← readArguments name.options (arguments.length + 1) choices
      ⟨name.namesSymbol, true⟩ arguments
    ofChoices name choices

def readFrom : Nat → Choices → List Argument → Except Refusal Invocation
  | 0, _, _ => .error .usage
  | _ + 1, _, [] => .error .usage
  | steps + 1, choices, argument :: rest =>
    match argument.form with
    | .separator => .error .usage
    | .plain => ofCommand choices argument.text (rest.map (·.text))
    | form => do
      let (choices, rest) ← takeOption Options.program choices form rest
      readFrom steps choices rest

def ofArguments (arguments : List Text) : Except Refusal Invocation := do
  let arguments ← Argument.classify Options.program arguments
  readFrom (arguments.length + 1) .start arguments

end Invocation

end DocAtlas.CommandLine
