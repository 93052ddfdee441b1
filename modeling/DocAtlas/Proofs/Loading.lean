import DocAtlas.Proofs.FileTree
import DocAtlas.Proofs.Model.Outcome
import DocAtlas.Proofs.Value
import DocAtlas.Settings.File
import DocAtlas.Symbol.File
import DocAtlas.Yaml

/-!
# What loading a file can fail with

Settings and symbols are read from bytes in the same steps: the bytes have to be a text, the
text has to be a document, and its contents have to have the right form. Each of the two
readers declares one sort of error. Main statement, for any way to load a document: without a
settings file the defaults hold, a symbol file that cannot be read fails with a declared error,
and whatever the bytes of a file are, loading it gives a value or a declared error unless one of
three things happens: the bytes are no text, the document is refused though it is well formed, or
an integer that is too long to be written has to be written.
-/

namespace DocAtlas

variable {parse : Yaml.Loader}

theorem bind_eq_error_iff {ε α β : Type} {first : Except ε α} {next : α → Except ε β}
    {error : ε} {fails later : Prop}
    (here : ∀ {other}, first = .error other ↔ fails ∧ other = error)
    (after : ∀ value, next value = .error error ↔ later) :
    first >>= next = .error error ↔ fails ∨ later := by
  cases first with
  | error other =>
    have failed := here.mp rfl
    exact iff_of_true (congrArg Except.error failed.2) (.inl failed.1)
  | ok value =>
    have passes : ¬fails := fun fails => nomatch here.mpr ⟨fails, rfl⟩
    rw [or_iff_right passes]
    exact after value

/-! ## Reading bytes -/

inductive Foreseen {ε α : Type} (declared : ε → Failure) : Except Failure α → Prop
  | value (value : α) : Foreseen declared (.ok value)
  | error (error : ε) : Foreseen declared (.error (declared error))

/-- What the bytes of a file fail with although it is not declared. `isRead` tells which texts
are read as documents, and `holdsLong` in which contents an integer that is too long has to be
written. -/
inductive Unforeseen (parse : Yaml.Loader) (isRead : Text → Prop) (holdsLong : Value → Prop)
    (bytes : List UInt8) : Failure → Prop
  | encoding {fault : Utf8.Fault} : Utf8.decode bytes = .error fault →
      Unforeseen parse isRead holdsLong bytes (.encoding fault)
  | document {text : Text} {fault : Yaml.Fault} : Utf8.decode bytes = .ok text →
      isRead (Utf8.unifyLineEnds text) → parse (Utf8.unifyLineEnds text) = .error fault →
      fault ≠ .malformed → Unforeseen parse isRead holdsLong bytes (.document fault)
  | longInteger {text : Text} {contents : Value} : Utf8.decode bytes = .ok text →
      isRead (Utf8.unifyLineEnds text) → parse (Utf8.unifyLineEnds text) = .ok contents →
      holdsLong contents → Unforeseen parse isRead holdsLong bytes .longInteger

theorem not_unforeseen {isRead : Text → Prop} {holdsLong : Value → Prop} {bytes : List UInt8}
    {text : Text} (decoded : Utf8.decode bytes = .ok text)
    (right : isRead (Utf8.unifyLineEnds text) →
      ∃ contents, parse (Utf8.unifyLineEnds text) = .ok contents ∧ ¬holdsLong contents)
    (failure : Failure) : ¬Unforeseen parse isRead holdsLong bytes failure := by
  intro wrong
  cases wrong with
  | encoding undecoded =>
    rw [decoded] at undecoded
    cases undecoded
  | document same reads refused _ =>
    rw [decoded, Except.ok.injEq] at same
    subst same
    rcases right reads with ⟨contents, read, _⟩
    rw [read] at refused
    cases refused
  | longInteger same reads read long =>
    rw [decoded, Except.ok.injEq] at same
    subst same
    rcases right reads with ⟨contents, readToo, short⟩
    rw [read, Except.ok.injEq] at readToo
    subst readToo
    exact short long

def ofBytes {α : Type} (ofText : Text → Except Failure α) (bytes : List UInt8) :
    Except Failure α :=
  match Utf8.decode bytes with
  | .error fault => .error (.encoding fault)
  | .ok text => ofText (Utf8.unifyLineEnds text)

/-- A reader of texts that foresees all that a document can say, but not all that is wrong
with one. -/
structure ForeseesContents {ε α : Type} (parse : Yaml.Loader) (declared : ε → Failure)
    (isRead : Text → Prop) (holdsLong : Value → Prop) (ofText : Text → Except Failure α) :
    Prop where
  unread : ∀ text, ¬isRead text → Foreseen declared (ofText text)
  malformed : ∀ text, isRead text → parse text = .error .malformed →
    Foreseen declared (ofText text)
  document : ∀ text fault, isRead text → parse text = .error fault → fault ≠ .malformed →
    ofText text = .error (.document fault)
  long : ∀ text contents, isRead text → parse text = .ok contents → holdsLong contents →
    ofText text = .error .longInteger
  short : ∀ text contents, isRead text → parse text = .ok contents → ¬holdsLong contents →
    Foreseen declared (ofText text)

namespace ForeseesContents

variable {ε α : Type} {declared : ε → Failure} {isRead : Text → Prop} {holdsLong : Value → Prop}
  {ofText : Text → Except Failure α} {bytes : List UInt8}

theorem error_of_unforeseen (reader : ForeseesContents parse declared isRead holdsLong ofText)
    {failure : Failure} (unforeseen : Unforeseen parse isRead holdsLong bytes failure) :
    ofBytes ofText bytes = .error failure := by
  unfold ofBytes
  cases unforeseen with
  | encoding decoded => rw [decoded]
  | document decoded isRead read other =>
    rw [decoded]
    exact reader.document _ _ isRead read other
  | longInteger decoded isRead read holds =>
    rw [decoded]
    exact reader.long _ _ isRead read holds

theorem foreseen_of_none (reader : ForeseesContents parse declared isRead holdsLong ofText)
    (none : ∀ failure, ¬Unforeseen parse isRead holdsLong bytes failure) :
    Foreseen declared (ofBytes ofText bytes) := by
  unfold ofBytes
  cases decoded : Utf8.decode bytes with
  | error fault => exact absurd (.encoding decoded) (none _)
  | ok text =>
    by_cases reads : isRead (Utf8.unifyLineEnds text)
    · cases read : parse (Utf8.unifyLineEnds text) with
      | error fault =>
        by_cases malformed : fault = .malformed
        · subst malformed
          exact reader.malformed _ reads read
        · exact absurd (.document decoded reads read malformed) (none _)
      | ok contents =>
        refine reader.short _ contents reads read fun holds => ?_
        exact none _ (.longInteger decoded reads read holds)
    · exact reader.unread _ reads

/-- The bytes give a value or a declared error exactly if nothing unforeseen happens. -/
theorem foreseen_iff (reader : ForeseesContents parse declared isRead holdsLong ofText)
    (apart : ∀ error, ¬Unforeseen parse isRead holdsLong bytes (declared error)) :
    Foreseen declared (ofBytes ofText bytes) ↔
      ∀ failure, ¬Unforeseen parse isRead holdsLong bytes failure := by
  refine ⟨fun foreseen failure unforeseen => ?_, reader.foreseen_of_none⟩
  rw [reader.error_of_unforeseen unforeseen] at foreseen
  cases foreseen with
  | error error => exact apart error unforeseen

end ForeseesContents

/-! ## Settings -/

namespace Settings

def setting (contents : Value) (key : Text) : Value := (contents.field? key).getD .null

def HoldsLongItem (value : Value) : Prop :=
  ∃ item ∈ value.items?.getD [], item.isLongInteger = true

/-- An integer that is too long to be written is an item of a list of texts, or a path. The
path of the output is looked at last, after the number of workers. -/
def HoldsLongInteger (contents : Value) : Prop :=
  HoldsLongItem (setting contents "sources") ∨
    HoldsLongItem (setting contents "exclude_paths") ∨
    (setting contents "symbols").isLongInteger = true ∨
    HoldsLongItem (setting contents "comment_markers") ∨
    1 ≤ (asInteger? (setting contents "parse_workers")).getD 1 ∧
      (setting contents "output").isLongInteger = true

theorem asTexts_eq_error {value : Value} {error : SettingsError} :
    asTexts value = .error error ↔ HoldsLongItem value ∧ error = .longInteger := by
  unfold asTexts HoldsLongItem
  split
  · simp [Value.items?, Value.opened]
  · simp [Value.items?, Value.opened]
  · simp only [← List.any_eq_true]
    split
    · next long => simp [long, eq_comm]
    · next short => simp [short]

theorem asPath?_eq_error {root : Path} {value : Value} {error : SettingsError} :
    asPath? root value = .error error ↔ value.isLongInteger = true ∧ error = .longInteger := by
  unfold asPath?
  split
  · next long => simp [long, eq_comm]
  · next short =>
    simp only [short, false_and, iff_false, Bool.false_eq_true]
    split <;> nofun

theorem ofEntries_eq_longInteger {root : Path} {contents : Value}
    {entries : List (Value × Value)} (inside : contents.entries? = some entries) :
    ofEntries root entries = .error .longInteger ↔ HoldsLongInteger contents := by
  have said : ∀ key, (Value.lookup? key entries).getD .null = setting contents key := by
    intro key
    rw [setting, Value.field?_eq_lookup? inside]
  simp only [ofEntries, said, HoldsLongInteger]
  -- One step for each setting that is read; only the workers can stop them otherwise.
  refine bind_eq_error_iff asTexts_eq_error fun sources => ?_
  refine bind_eq_error_iff asTexts_eq_error fun exclusions => ?_
  refine bind_eq_error_iff asPath?_eq_error fun symbols => ?_
  refine bind_eq_error_iff asTexts_eq_error fun markers => ?_
  split
  · next few => exact iff_of_false nofun fun enough => absurd enough.1 (Int.not_le.mpr few)
  · next enough =>
    rw [and_iff_right (Int.not_lt.mp enough), ← or_false (Value.isLongInteger _ = true)]
    exact bind_eq_error_iff asPath?_eq_error fun output => iff_of_false nofun id

theorem field?_of_entries?_none {contents : Value} (scalar : contents.entries? = none)
    (key : Text) : contents.field? key = none := by
  rw [Value.field?, scalar, Option.bind_none]

theorem not_holdsLongInteger {contents : Value} (silent : ∀ key, contents.field? key = none) :
    ¬HoldsLongInteger contents := by
  have null : ∀ key, setting contents key = .null := fun key => by rw [setting, silent]; rfl
  have noItem : ¬HoldsLongItem .null := by
    rintro ⟨item, member, _⟩
    cases member
  simp [HoldsLongInteger, null, noItem, Value.isLongInteger]

theorem ofValue_eq_longInteger {root : Path} {contents : Value} :
    ofValue root contents = .error .longInteger ↔ HoldsLongInteger contents := by
  unfold ofValue
  split
  · next empty => exact iff_of_false nofun (not_holdsLongInteger (Value.field?_of_isEmpty empty))
  · cases inside : contents.entries? with
    | none => exact iff_of_false nofun (not_holdsLongInteger (field?_of_entries?_none inside))
    | some entries => exact ofEntries_eq_longInteger inside

/-- Of what is wrong with contents only a long integer is not declared. -/
theorem foreseen_of_ofValue {root : Path} {contents : Value}
    (short : ¬HoldsLongInteger contents) :
    Foreseen .settings ((ofValue root contents).mapError SettingsError.failure) := by
  cases outcome : ofValue root contents with
  | ok settings => exact .value settings
  | error error =>
    cases error with
    | longInteger => exact absurd (ofValue_eq_longInteger.mp outcome) short
    | _ => exact .error _

def IsRead (text : Text) : Prop := text.all Text.isBlank = false

theorem foreseesContents (parse : Yaml.Loader) (root : Path) :
    ForeseesContents parse .settings IsRead HoldsLongInteger (ofText parse root) where
  unread := by
    intro text blank
    rw [IsRead, Bool.not_eq_false] at blank
    rw [ofText, if_pos blank]
    exact .value _
  malformed := by
    intro text full read
    rw [ofText, if_neg (Bool.eq_false_iff.mp full), read]
    exact .error SettingsError.unparsable
  document := by
    intro text fault full read other
    simp only [ofText, if_neg (Bool.eq_false_iff.mp full), read]
  long := by
    intro text contents full read long
    simp only [ofText, if_neg (Bool.eq_false_iff.mp full), read,
      ofValue_eq_longInteger.mpr long]
    rfl
  short := by
    intro text contents full read short
    simp only [ofText, if_neg (Bool.eq_false_iff.mp full), read]
    exact foreseen_of_ofValue short

variable {tree : FileTree} {directory path file : Path}

theorem load_of_missing (found : fileFor tree directory path = .ok file)
    (missing : tree.find? file.parts = .ok none) :
    load parse tree directory path = .ok (defaults file.parent) := by
  simp only [load, found, Except.mapError, bind, Except.bind, missing]
  rfl

theorem load_of_read {bytes : List UInt8} (found : fileFor tree directory path = .ok file)
    (read : tree.read file.parts = .ok bytes) :
    load parse tree directory path = ofBytes (ofText parse file.parent) bytes := by
  rcases FileTree.find?_of_read read with ⟨place, there⟩
  simp only [load, found, Except.mapError, bind, Except.bind, there,
    FileTree.readText_of_read read, ofBytes]
  cases Utf8.decode bytes <;> rfl

end Settings

/-! ## Symbols -/

namespace Symbol

/-- A kind that no symbol has would have to be quoted, with an integer in it that is too
long to be written. -/
def HoldsLongInteger (fileName : Text) (contents : Value) : Prop :=
  ∃ name kind, ofContents fileName contents = .error (.unknownKind name kind) ∧
    kind.hasLongInteger = true

theorem foreseen_of_ofContents {fileName : Text} {contents : Value}
    (short : ¬HoldsLongInteger fileName contents) :
    Foreseen .symbols ((ofContents fileName contents).mapError SymbolTableError.failure) := by
  cases outcome : ofContents fileName contents with
  | ok symbols => exact .value symbols
  | error error =>
    cases error with
    | unknownKind name kind =>
      have written : ¬kind.hasLongInteger = true := fun long => short ⟨name, kind, outcome, long⟩
      simp only [Except.mapError, SymbolTableError.failure, if_neg written]
      exact .error _
    | _ => exact .error _

theorem foreseesContents (parse : Yaml.Loader) (fileName : Text) :
    ForeseesContents parse .symbols (fun _ => True) (HoldsLongInteger fileName)
      (ofText parse fileName) where
  unread := fun text unread => absurd trivial unread
  malformed := by
    intro text _ read
    rw [ofText, read]
    exact .error (SymbolTableError.unparsable fileName)
  document := by
    intro text fault _ read other
    simp only [ofText, read]
  long := by
    intro text contents _ read long
    rcases long with ⟨name, kind, refused, long⟩
    simp only [ofText, read, refused, Except.mapError, SymbolTableError.failure, if_pos long]
  short := by
    intro text contents _ read short
    simp only [ofText, read]
    exact foreseen_of_ofContents short

variable {tree : FileTree} {path : Path}

theorem load_of_error {fault : FileTree.Fault} (read : tree.read path.parts = .error fault)
    (other : fault ≠ .nullCharacter) :
    load parse tree path =
      .error (.symbols (.unreadable path.toText (fault.message path.toText))) := by
  rw [load, FileTree.readText_of_error read]
  cases fault with
  | nullCharacter => exact absurd rfl other
  | _ => rfl

theorem load_of_read {bytes : List UInt8} (read : tree.read path.parts = .ok bytes) :
    load parse tree path = ofBytes (ofText parse path.name) bytes := by
  rw [load, FileTree.readText_of_read read, ofBytes]
  cases Utf8.decode bytes <;> rfl

end Symbol

/-! ## Files -/

/-- A missing settings file gives the defaults, a symbol file that cannot be read fails with a
declared error, and so do the bytes of a file, if they give no value, unless something
unforeseen is in them. -/
theorem loading_fails_as_declared (parse : Yaml.Loader) (tree : FileTree)
    (directory path : Path) :
    (∀ file, Settings.fileFor tree directory path = .ok file →
      (tree.find? file.parts = .ok none →
        Settings.load parse tree directory path = .ok (Settings.defaults file.parent)) ∧
      ∀ bytes, tree.read file.parts = .ok bytes →
        let wrong := Unforeseen parse Settings.IsRead Settings.HoldsLongInteger bytes
        (Foreseen .settings (Settings.load parse tree directory path) ↔ ∀ failure, ¬wrong failure) ∧
          ∀ failure, wrong failure → Settings.load parse tree directory path = .error failure) ∧
      (∀ fault, tree.read path.parts = .error fault → fault ≠ .nullCharacter →
        Symbol.load parse tree path =
          .error (.symbols (.unreadable path.toText (fault.message path.toText)))) ∧
      ∀ bytes, tree.read path.parts = .ok bytes →
        let wrong := Unforeseen parse (fun _ => True) (Symbol.HoldsLongInteger path.name) bytes
        (Foreseen .symbols (Symbol.load parse tree path) ↔ ∀ failure, ¬wrong failure) ∧
          ∀ failure, wrong failure → Symbol.load parse tree path = .error failure := by
  refine ⟨fun file found => ⟨Settings.load_of_missing found, fun bytes read => ?_⟩,
    fun fault => Symbol.load_of_error, fun bytes read => ?_⟩
  · have reader := Settings.foreseesContents parse file.parent
    rw [Settings.load_of_read found read]
    exact ⟨reader.foreseen_iff nofun, fun failure => reader.error_of_unforeseen⟩
  · have reader := Symbol.foreseesContents parse path.name
    rw [Symbol.load_of_read read]
    exact ⟨reader.foreseen_iff nofun, fun failure => reader.error_of_unforeseen⟩

/-- The settings file is blank here, and the symbol file holds an empty list; in the folder
there is no settings file. -/
theorem loading_fails_as_declared_of_text :
    let tree : FileTree :=
      ⟨[([Settings.fileName], [0x20, 0x0a]), (["symbols.yml"], [0x5b, 0x5d])], [["kept"]]⟩
    let root : Path := ⟨"/", []⟩
    let folder : Path := ⟨"/", ["kept"]⟩
    let symbols : Path := ⟨"/", ["symbols.yml"]⟩
    Settings.fileFor tree root root = .ok ⟨"/", [Settings.fileName]⟩ ∧
      tree.read [Settings.fileName] = .ok [0x20, 0x0a] ∧
      Foreseen .settings (Settings.load Yaml.read tree root root) ∧
      Settings.fileFor tree root folder = .ok ⟨"/", ["kept", Settings.fileName]⟩ ∧
      tree.find? ["kept", Settings.fileName] = .ok none ∧
      Settings.load Yaml.read tree root folder = .ok (Settings.defaults folder) ∧
      tree.read ["kept"] = .error .isAFolder ∧
      (∃ error, Symbol.load Yaml.read tree folder = .error (.symbols error)) ∧
      tree.read ["symbols.yml"] = .ok [0x5b, 0x5d] ∧
      Foreseen .symbols (Symbol.load Yaml.read tree symbols) := by
  intro tree root folder symbols
  have found : Settings.fileFor tree root root = .ok ⟨"/", [Settings.fileName]⟩ := by
    decide +kernel
  have blank : tree.read [Settings.fileName] = .ok [0x20, 0x0a] := by decide +kernel
  have inFolder : Settings.fileFor tree root folder = .ok ⟨"/", ["kept", Settings.fileName]⟩ := by
    decide +kernel
  have missing : tree.find? ["kept", Settings.fileName] = .ok none := by decide +kernel
  have refused : tree.read ["kept"] = .error .isAFolder := by decide +kernel
  have listed : tree.read ["symbols.yml"] = .ok [0x5b, 0x5d] := by decide +kernel
  have settings := (loading_fails_as_declared Yaml.read tree root root).1 _ found
  have defaults := (loading_fails_as_declared Yaml.read tree root folder).1 _ inFolder
  have unread := (loading_fails_as_declared Yaml.read tree root folder).2.1 _ refused nofun
  have read := (loading_fails_as_declared Yaml.read tree root symbols).2.2 _ listed
  refine ⟨found, blank, (settings.2 _ blank).1.mpr ?_, inFolder, missing, defaults.1 missing,
    refused, ⟨_, unread⟩, listed, read.1.mpr ?_⟩
  · have text : Utf8.decode [0x20, 0x0a] = .ok " \n" := by decide +kernel
    have notRead : ¬Settings.IsRead (Utf8.unifyLineEnds " \n") := by
      rw [Settings.IsRead]
      decide
    exact not_unforeseen text fun isRead => absurd isRead notRead
  · have text : Utf8.decode [0x5b, 0x5d] = .ok "[]" := by decide +kernel
    have empty : (Yaml.read "[]").toOption.any Value.isEmpty = true := by decide +kernel
    cases contents : Yaml.read "[]" with
    | error fault =>
      rw [contents] at empty
      cases empty
    | ok value =>
      rw [contents] at empty
      have noRecords : Symbol.recordsOf? value = some [] := if_pos empty
      refine not_unforeseen text fun _ => ⟨value, contents, ?_⟩
      rintro ⟨name, kind, refused, _⟩
      rw [Symbol.ofContents, noRecords] at refused
      cases refused

/-- A byte that begins no character is an error that neither reader declares. -/
theorem undecodable_byte_is_not_foreseen :
    let tree : FileTree := ⟨[([Settings.fileName], [0xff]), (["symbols.yml"], [0xff])], []⟩
    let root : Path := ⟨"/", []⟩
    let symbols : Path := ⟨"/", ["symbols.yml"]⟩
    let fault : Utf8.Fault := ⟨.invalidStart, 0xff, 0, 1⟩
    Settings.fileFor tree root root = .ok ⟨"/", [Settings.fileName]⟩ ∧
      tree.read [Settings.fileName] = .ok [0xff] ∧
      Settings.load Yaml.read tree root root = .error (.encoding fault) ∧
      ¬Foreseen .settings (Settings.load Yaml.read tree root root) ∧
      tree.read ["symbols.yml"] = .ok [0xff] ∧
      Symbol.load Yaml.read tree symbols = .error (.encoding fault) ∧
      ¬Foreseen .symbols (Symbol.load Yaml.read tree symbols) := by
  intro tree root symbols fault
  have found : Settings.fileFor tree root root = .ok ⟨"/", [Settings.fileName]⟩ := by
    decide +kernel
  have settings : tree.read [Settings.fileName] = .ok [0xff] := by decide +kernel
  have listed : tree.read ["symbols.yml"] = .ok [0xff] := by decide +kernel
  have noSettings : Settings.load Yaml.read tree root root = .error (.encoding fault) := by
    rw [Settings.load_of_read found settings]
    rfl
  have noSymbols : Symbol.load Yaml.read tree symbols = .error (.encoding fault) := by
    rw [Symbol.load_of_read listed]
    rfl
  rw [noSettings, noSymbols]
  exact ⟨found, settings, rfl, nofun, listed, rfl, nofun⟩

end DocAtlas
