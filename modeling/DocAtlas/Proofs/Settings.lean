import DocAtlas.Proofs.Comment.Grammar
import DocAtlas.Proofs.Loading

/-!
# What settings say

Each setting is read from its own key, whatever stands under the others, and a setting that
has the wrong form counts as not given. So contents give settings unless one of two things is
wrong with them: the number of workers, or an integer that is too long to become a text. Main
statement: with the settings that a file gives a builder can always be set up, and where two
mappings differ under one key, their settings differ at most in the field of that key.
-/

namespace DocAtlas

theorem Builder.exists_ofSettings {markers : List Text} {linkPartners : Bool} {workers : Int}
    (marked : markers ≠ []) (positive : 1 ≤ workers) :
    ∃ builder, ofSettings markers linkPartners workers = .ok builder := by
  rcases Markers.exists_ofList? marked with ⟨given, made⟩
  simp only [ofSettings, made, dif_pos positive]
  exact ⟨_, rfl⟩

namespace Settings

variable {parse : Yaml.Loader}

/-! ## What a file holds -/

/-- The contents of a settings file's text. A blank text says as much as an empty mapping. -/
def IsContents (parse : Yaml.Loader) (text : Text) (contents : Value) : Prop :=
  ¬IsRead text ∧ contents = .mapping [] ∨ IsRead text ∧ parse text = .ok contents

def Holds (parse : Yaml.Loader) (tree : FileTree) (directory path root : Path)
    (contents : Value) : Prop :=
  ∃ file text, fileFor tree directory path = .ok file ∧ file.parent = root ∧
    tree.readText file.parts = .ok text ∧ IsContents parse text contents

instance (text : Text) : Decidable (IsRead text) := inferInstanceAs (Decidable (_ = false))

theorem ofText_of_isContents {root : Path} {text : Text} {contents : Value}
    (inside : IsContents parse text contents) :
    ofText parse root text = (ofValue root contents).mapError SettingsError.failure := by
  rcases inside with ⟨blank, rfl⟩ | ⟨full, read⟩
  · rw [IsRead, Bool.not_eq_false] at blank
    rw [ofText, if_pos blank]
    rfl
  · rw [ofText, if_neg (Bool.eq_false_iff.mp full), read]

theorem load_of_holds {tree : FileTree} {directory path root : Path} {contents : Value}
    (holds : Holds parse tree directory path root contents) :
    load parse tree directory path = (ofValue root contents).mapError SettingsError.failure := by
  rcases holds with ⟨file, text, found, rfl, known, inside⟩
  rcases FileTree.readText_eq_ok.mp known with ⟨bytes, decoded, read, decodes, rfl⟩
  rw [load_of_read found read, ofBytes, decodes]
  exact ofText_of_isContents inside

/-! ## One key for each setting -/

def ReadUnder {α : Type} (contents : Value) (key : Text)
    (read : Value → Except SettingsError α) (value : α) : Prop :=
  read (setting contents key) = .ok value

def textsOr (default : List Text) (value : Value) : Except SettingsError (List Text) :=
  (asTexts value).map fun given => orDefault given default

structure ReadFrom (root : Path) (contents : Value) (settings : Settings) : Prop where
  below : settings.root = root
  sources : ReadUnder contents "sources" (textsOr defaultSources) settings.sources
  exclusions : ReadUnder contents "exclude_paths" asTexts settings.exclusions
  symbols : ReadUnder contents "symbols" (asPath? root) settings.symbols
  markers : ReadUnder contents "comment_markers" (textsOr defaultMarkers) settings.markers
  linkPartners : ReadUnder contents "link_notify_signals"
    (fun value => .ok ((asTruth? value).getD false)) settings.linkPartners
  workers : ReadUnder contents "parse_workers"
    (fun value => .ok ((asInteger? value).getD 1)) settings.workers
  output : ReadUnder contents "output" (asPath? root) settings.output

def TooFewWorkers (contents : Value) : Prop :=
  ∃ count, asInteger? (setting contents "parse_workers") = some count ∧ count < 1

theorem tooFewWorkers_iff {contents : Value} :
    TooFewWorkers contents ↔ (asInteger? (setting contents "parse_workers")).getD 1 < 1 := by
  unfold TooFewWorkers
  cases asInteger? (setting contents "parse_workers") <;> simp

instance (contents : Value) : Decidable (TooFewWorkers contents) :=
  decidable_of_iff _ tooFewWorkers_iff.symm

instance (value : Value) : Decidable (HoldsLongItem value) :=
  inferInstanceAs (Decidable (∃ item ∈ value.items?.getD [], item.isLongInteger = true))

instance (contents : Value) : Decidable (HoldsLongInteger contents) :=
  inferInstanceAs (Decidable (_ ∨ _ ∨ _ ∨ _ ∨ _ ∧ _))

theorem exists_asTexts {value : Value} (short : ¬HoldsLongItem value) :
    ∃ texts, asTexts value = .ok texts := by
  cases outcome : asTexts value with
  | ok texts => exact ⟨texts, rfl⟩
  | error error => exact absurd (asTexts_eq_error.mp outcome).1 short

theorem exists_asPath? (root : Path) {value : Value} (short : ¬value.isLongInteger = true) :
    ∃ place, asPath? root value = .ok place := by
  cases outcome : asPath? root value with
  | ok place => exact ⟨place, rfl⟩
  | error error => exact absurd (asPath?_eq_error.mp outcome).1 short

theorem ofEntries_of_short (root : Path) {contents : Value} {entries : List (Value × Value)}
    (inside : contents.entries? = some entries) (short : ¬HoldsLongInteger contents) :
    TooFewWorkers contents ∧ ofEntries root entries = .error .noWorkers ∨
      ¬TooFewWorkers contents ∧
        ∃ settings, ofEntries root entries = .ok settings ∧ ReadFrom root contents settings := by
  have said : ∀ key, (Value.lookup? key entries).getD .null = setting contents key := by
    intro key
    rw [setting, Value.field?_eq_lookup? inside]
  simp only [HoldsLongInteger, not_or, not_and] at short
  rcases short with ⟨noSource, noExclusion, noSymbols, noMarker, noOutput⟩
  rcases exists_asTexts noSource with ⟨sources, sourcesRead⟩
  rcases exists_asTexts noExclusion with ⟨exclusions, exclusionsRead⟩
  rcases exists_asPath? root noSymbols with ⟨symbols, symbolsRead⟩
  rcases exists_asTexts noMarker with ⟨markers, markersRead⟩
  simp only [ofEntries, said, sourcesRead, exclusionsRead, symbolsRead, markersRead]
  by_cases few : TooFewWorkers contents
  · refine .inl ⟨few, ?_⟩
    simp only [bind, Except.bind, if_pos (tooFewWorkers_iff.mp few)]
    rfl
  · have enough := tooFewWorkers_iff.not.mp few
    rcases exists_asPath? root (noOutput (Int.not_lt.mp enough)) with
      ⟨output, outputRead⟩
    refine .inr ⟨few, ?_⟩
    simp only [bind, Except.bind, if_neg enough, outputRead]
    refine ⟨_, rfl, rfl, ?_, exclusionsRead, symbolsRead, ?_, rfl, rfl, outputRead⟩
    · rw [ReadUnder, textsOr, sourcesRead]
      rfl
    · rw [ReadUnder, textsOr, markersRead]
      rfl

theorem ofValue_of_entries {root : Path} {contents : Value} {entries : List (Value × Value)}
    (inside : contents.entries? = some entries) :
    ofValue root contents = ofEntries root entries := by
  by_cases empty : contents.isEmpty = true
  · rw [ofValue, if_pos empty, Value.entries_of_isEmpty empty inside]
    rfl
  · rw [ofValue, if_neg empty, inside]

theorem ofValue_of_short (root : Path) {contents : Value} (mapping : contents.IsMapping)
    (short : ¬HoldsLongInteger contents) :
    TooFewWorkers contents ∧ ofValue root contents = .error .noWorkers ∨
      ¬TooFewWorkers contents ∧
        ∃ settings, ofValue root contents = .ok settings ∧ ReadFrom root contents settings := by
  rcases mapping with ⟨entries, inside⟩
  rw [ofValue_of_entries inside]
  exact ofEntries_of_short root inside short

theorem readFrom_of_ofValue {root : Path} {contents : Value} {settings : Settings}
    (mapping : contents.IsMapping) (made : ofValue root contents = .ok settings) :
    ReadFrom root contents settings ∧ ¬TooFewWorkers contents := by
  have short : ¬HoldsLongInteger contents := by
    intro long
    rw [ofValue_eq_longInteger.mpr long] at made
    cases made
  rcases ofValue_of_short root mapping short with ⟨_, refused⟩ | ⟨enough, others, same, read⟩
  · rw [refused] at made
    cases made
  · rw [same] at made
    cases made
    exact ⟨read, enough⟩

/-! ## What settings are good for -/

structure Usable (settings : Settings) : Prop where
  sources : settings.sources ≠ []
  markers : settings.markers ≠ []
  workers : 1 ≤ settings.workers

theorem usable_defaults (root : Path) : (defaults root).Usable where
  sources := nofun
  markers := nofun
  workers := Int.le_refl 1

theorem textsOr_ne_nil {default texts : List Text} {value : Value} (nonempty : default ≠ [])
    (read : textsOr default value = .ok texts) : texts ≠ [] := by
  unfold textsOr at read
  cases given : asTexts value with
  | error error =>
    rw [given] at read
    cases read
  | ok known =>
    rw [given] at read
    cases Except.ok.inj read
    show orDefault known default ≠ []
    by_cases empty : known = []
    · rw [orDefault, if_pos empty]
      exact nonempty
    · rw [orDefault, if_neg empty]
      exact empty

theorem ReadFrom.usable {root : Path} {contents : Value} {settings : Settings}
    (read : ReadFrom root contents settings) (enough : ¬TooFewWorkers contents) :
    settings.Usable where
  sources := textsOr_ne_nil (List.cons_ne_nil _ _) read.sources
  markers := textsOr_ne_nil (List.cons_ne_nil _ _) read.markers
  workers := by
    have count := Except.ok.inj read.workers
    have positive := tooFewWorkers_iff.not.mp enough
    omega

theorem usable_of_ofValue {root : Path} {contents : Value} {settings : Settings}
    (made : ofValue root contents = .ok settings) : settings.Usable := by
  by_cases mapping : contents.IsMapping
  · rcases readFrom_of_ofValue mapping made with ⟨read, enough⟩
    exact read.usable enough
  · rw [Value.not_isMapping_iff] at mapping
    unfold ofValue at made
    split at made
    · cases made
      exact usable_defaults root
    · rw [mapping] at made
      cases made

theorem usable_of_ofText {root : Path} {text : Text} {settings : Settings}
    (made : ofText parse root text = .ok settings) : settings.Usable := by
  unfold ofText at made
  split at made
  · cases made
    exact usable_defaults root
  · split at made
    · cases made
    · cases made
    · exact usable_of_ofValue (mapError_eq_ok.mp made)

/-- Whatever the file is, the settings that are loaded from it are usable. -/
theorem usable_of_load {tree : FileTree} {directory path : Path} {settings : Settings}
    (loaded : load parse tree directory path = .ok settings) : settings.Usable := by
  rcases bind_eq_ok.mp loaded with ⟨file, _, next⟩
  rcases bind_eq_ok.mp next with ⟨place, _, last⟩
  split at last
  · rcases bind_eq_ok.mp last with ⟨text, _, made⟩
    exact usable_of_ofText made
  · cases last
    exact usable_defaults file.parent

/-! ## Contents that differ under one key -/

structure AgreeExcept (key : Text) (first second : Settings) : Prop where
  root : first.root = second.root
  sources : key ≠ "sources" → first.sources = second.sources
  exclusions : key ≠ "exclude_paths" → first.exclusions = second.exclusions
  symbols : key ≠ "symbols" → first.symbols = second.symbols
  markers : key ≠ "comment_markers" → first.markers = second.markers
  linkPartners : key ≠ "link_notify_signals" → first.linkPartners = second.linkPartners
  workers : key ≠ "parse_workers" → first.workers = second.workers
  output : key ≠ "output" → first.output = second.output

def SameExcept (key : Text) (first second : Value) : Prop :=
  ∀ other, other ≠ key → first.field? other = second.field? other

theorem sameExcept_record (key : Text) (first second : Value) :
    SameExcept key (.record [(key, first)]) (.record [(key, second)]) := by
  intro other different
  have unequal : (key == other) = false := beq_false_of_ne (Ne.symm different)
  simp only [Value.record, List.map_cons, List.map_nil, Value.field?, Value.entries?,
    Value.opened, Option.bind_some, Value.lookup?, List.reverse_singleton, List.find?_singleton,
    Value.isText, unequal, Bool.false_eq_true, if_false]

theorem SameExcept.readUnder_inj {α : Type} {key own : Text} {first second : Value}
    (same : SameExcept key first second) {read : Value → Except SettingsError α} {one two : α}
    (here : ReadUnder first own read one) (there : ReadUnder second own read two)
    (other : key ≠ own) : one = two := by
  have alike : setting first own = setting second own := by
    rw [setting, setting, same own (Ne.symm other)]
  rw [ReadUnder, alike] at here
  rw [ReadUnder, here] at there
  exact Except.ok.inj there

theorem ReadFrom.agreeExcept {root : Path} {key : Text} {first second : Value}
    {settings others : Settings} (here : ReadFrom root first settings)
    (there : ReadFrom root second others) (same : SameExcept key first second) :
    AgreeExcept key settings others where
  root := here.below.trans there.below.symm
  sources := same.readUnder_inj here.sources there.sources
  exclusions := same.readUnder_inj here.exclusions there.exclusions
  symbols := same.readUnder_inj here.symbols there.symbols
  markers := same.readUnder_inj here.markers there.markers
  linkPartners := same.readUnder_inj here.linkPartners there.linkPartners
  workers := same.readUnder_inj here.workers there.workers
  output := same.readUnder_inj here.output there.output

/-! ## Loading a mapping -/

section

variable {tree : FileTree} {directory path root : Path} {contents : Value}
  (holds : Holds parse tree directory path root contents)

include holds

theorem load_eq_longInteger :
    load parse tree directory path = .error .longInteger ↔ HoldsLongInteger contents := by
  rw [load_of_holds holds, mapError_eq_error, ← @ofValue_eq_longInteger root]
  constructor
  · rintro ⟨error, refused, same⟩
    cases error with
    | longInteger => exact refused
    | _ => cases same
  · intro refused
    exact ⟨_, refused, rfl⟩

theorem load_of_short (mapping : contents.IsMapping) (short : ¬HoldsLongInteger contents) :
    TooFewWorkers contents ∧ load parse tree directory path = .error (.settings .noWorkers) ∨
      ¬TooFewWorkers contents ∧
        ∃ settings, load parse tree directory path = .ok settings ∧
          ReadFrom root contents settings := by
  rw [load_of_holds holds]
  rcases ofValue_of_short root mapping short with
    ⟨few, refused⟩ | ⟨enough, settings, made, read⟩
  · refine .inl ⟨few, ?_⟩
    rw [refused]
    rfl
  · exact .inr ⟨enough, settings, mapError_eq_ok.mpr made, read⟩

theorem load_eq_settingsError (mapping : contents.IsMapping) :
    (∃ error, load parse tree directory path = .error (.settings error)) ↔
      TooFewWorkers contents ∧ ¬HoldsLongInteger contents := by
  constructor
  · rintro ⟨error, refused⟩
    have short : ¬HoldsLongInteger contents := by
      intro long
      rw [(load_eq_longInteger holds).mpr long] at refused
      cases refused
    rcases load_of_short holds mapping short with ⟨few, _⟩ | ⟨_, settings, loaded, _⟩
    · exact ⟨few, short⟩
    · rw [loaded] at refused
      cases refused
  · rintro ⟨few, short⟩
    rcases load_of_short holds mapping short with ⟨_, refused⟩ | ⟨enough, _⟩
    · exact ⟨_, refused⟩
    · exact absurd few enough

theorem readFrom_of_load (mapping : contents.IsMapping) {settings : Settings}
    (loaded : load parse tree directory path = .ok settings) : ReadFrom root contents settings := by
  rw [load_of_holds holds, mapError_eq_ok] at loaded
  exact (readFrom_of_ofValue mapping loaded).1

end

/-- With settings that are loaded a builder can be set up. A file that holds a mapping gives
settings, each read from its own key, unless the mapping asks for too few workers, which is the
one settings error, or an integer in it is too long to become a text. Of two mappings that are
the same except under one key the settings are the same except in the field of that key. -/
theorem loaded_settings_are_usable_and_independent (parse : Yaml.Loader) (tree : FileTree)
    (directory path : Path) :
    (∀ settings, load parse tree directory path = .ok settings → settings.Usable ∧
      ∃ builder, Builder.ofSettings settings.markers settings.linkPartners settings.workers =
        .ok builder) ∧
    ∀ root contents, Holds parse tree directory path root contents → contents.IsMapping →
      ((∃ error, load parse tree directory path = .error (.settings error)) ↔
        TooFewWorkers contents ∧ ¬HoldsLongInteger contents) ∧
      (load parse tree directory path = .error .longInteger ↔ HoldsLongInteger contents) ∧
      (¬TooFewWorkers contents → ¬HoldsLongInteger contents →
        ∃ settings, load parse tree directory path = .ok settings ∧
          ReadFrom root contents settings) ∧
      ∀ (changed : FileTree) (others : Value) (key : Text) (settings otherSettings : Settings),
        Holds parse changed directory path root others → others.IsMapping →
        SameExcept key contents others → load parse tree directory path = .ok settings →
        load parse changed directory path = .ok otherSettings →
          AgreeExcept key settings otherSettings := by
  refine ⟨fun settings loaded => ?_, fun root contents holds mapping => ⟨?_, ?_, ?_, ?_⟩⟩
  · have usable := usable_of_load loaded
    exact ⟨usable, Builder.exists_ofSettings usable.markers usable.workers⟩
  · exact load_eq_settingsError holds mapping
  · exact load_eq_longInteger holds
  · intro enough short
    rcases load_of_short holds mapping short with ⟨few, _⟩ | ⟨_, loads⟩
    · exact absurd few enough
    · exact loads
  · intro changed others key settings otherSettings there mappingToo same here loaded
    have read := readFrom_of_load holds mapping here
    exact read.agreeExcept (readFrom_of_load there mappingToo loaded) same

/-- Two settings files ask for two and for three workers. -/
theorem loaded_settings_are_usable_and_independent_of_workers :
    let file (text : Text) : FileTree :=
      ⟨[([fileName], text.map fun c => UInt8.ofNat c.toNat)], []⟩
    let two := file "parse_workers: 2"
    let three := file "parse_workers: 3"
    let root : Path := ⟨"/", []⟩
    let contents (count : Int) : Value := .record [("parse_workers", .integer count)]
    Holds Yaml.read two root root root (contents 2) ∧
      Holds Yaml.read three root root root (contents 3) ∧
      (contents 2).IsMapping ∧ (contents 3).IsMapping ∧
      SameExcept "parse_workers" (contents 2) (contents 3) ∧
      ∃ settings others, load Yaml.read two root root = .ok settings ∧ settings.Usable ∧
        load Yaml.read three root root = .ok others ∧
        AgreeExcept "parse_workers" settings others := by
  intro file two three root contents
  have mapping (count : Int) : (contents count).IsMapping := ⟨_, rfl⟩
  have same : SameExcept "parse_workers" (contents 2) (contents 3) := sameExcept_record _ _ _
  have holds {text : Text} {count : Int}
      (found : fileFor (file text) root root = .ok ⟨"/", [fileName]⟩)
      (known : (file text).readText [fileName] = .ok text) (full : IsRead text)
      (same : (Yaml.read text).toOption.any (contents count).isSame = true) :
      Holds Yaml.read (file text) root root root (contents count) :=
    ⟨_, text, found, rfl, known, .inr ⟨full, Value.eq_ok_of_isSame same⟩⟩
  have here : Holds Yaml.read two root root root (contents 2) := by
    apply holds <;> decide +kernel
  have there : Holds Yaml.read three root root root (contents 3) := by
    apply holds <;> decide +kernel
  have atTwo := loaded_settings_are_usable_and_independent Yaml.read two root root
  have atThree := loaded_settings_are_usable_and_independent Yaml.read three root root
  rcases atTwo.2 root _ here (mapping 2) with ⟨_, _, loads, agree⟩
  rcases atThree.2 root _ there (mapping 3) with ⟨_, _, loadsToo, _⟩
  rcases loads (by decide +kernel) (by decide +kernel) with ⟨settings, loaded, _⟩
  rcases loadsToo (by decide +kernel) (by decide +kernel) with ⟨others, loadedToo, _⟩
  refine ⟨here, there, mapping 2, mapping 3, same, settings, others, loaded,
    (atTwo.1 settings loaded).1, loadedToo, ?_⟩
  exact agree three _ _ settings others there (mapping 3) same loaded loadedToo

/-- A pattern that is an integer of one digit too many, in a mapping that leaves the number of
workers out, is refused with what is no settings error. -/
theorem long_pattern_is_refused :
    let contents : Value :=
      .record [("sources", .list [.integer (Int.ofNat (Nat.pow 10 Text.maxDigits))])]
    let root : Path := ⟨"/", []⟩
    contents.IsMapping ∧ ¬TooFewWorkers contents ∧
      (ofValue root contents).mapError SettingsError.failure = .error .longInteger := by
  intro contents root
  have enough : ¬TooFewWorkers contents := by
    rw [tooFewWorkers_iff]
    decide +kernel
  have tooLong : Text.isTooLong (Int.ofNat (Nat.pow 10 Text.maxDigits)) = true := by
    -- Without the number of digits the power cannot be evaluated.
    generalize digits : Text.maxDigits = most
    rw [Text.isTooLong, digits]
    exact decide_eq_true (Nat.le_refl _)
  have long : HoldsLongInteger contents := .inl ⟨_, List.mem_singleton_self _, tooLong⟩
  refine ⟨⟨_, rfl⟩, enough, ?_⟩
  rw [ofValue_eq_longInteger.mpr long]
  rfl

end Settings

end DocAtlas
