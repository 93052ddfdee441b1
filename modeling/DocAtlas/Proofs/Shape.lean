import DocAtlas.Proofs.Settings
import DocAtlas.Proofs.Symbol.Record
import DocAtlas.Proofs.Symbol.Table

/-!
# The shapes of files

A settings file holds a mapping, and a symbol file a list of records or a mapping with such a
list. Main statement: contents that are empty, of whatever form, are taken for none at all; other
contents of a wrong form are refused as a whole, and of a list of records each has to have the
form of a symbol.
-/

namespace DocAtlas

variable {parse : Yaml.Loader}

namespace Settings

theorem ofValue_eq_notAMapping (root : Path) {contents : Value} :
    ofValue root contents = .error .notAMapping ↔
      contents.isEmpty = false ∧ ¬contents.IsMapping := by
  by_cases mapping : contents.IsMapping
  · refine iff_of_false ?_ fun wrong => wrong.2 mapping
    intro wrong
    by_cases long : HoldsLongInteger contents
    · rw [ofValue_eq_longInteger.mpr long] at wrong
      cases wrong
    · rcases ofValue_of_short root mapping long with ⟨_, refused⟩ | ⟨_, settings, made, _⟩
      · rw [refused] at wrong
        cases wrong
      · rw [made] at wrong
        cases wrong
  · rw [and_iff_left mapping]
    cases empty : contents.isEmpty with
    | true =>
      rw [ofValue, if_pos empty]
      constructor
      · intro wrong
        cases wrong
      · intro full
        cases full
    | false =>
      rw [ofValue, if_neg (Bool.eq_false_iff.mp empty), Value.not_isMapping_iff.mp mapping]
      exact iff_of_true rfl rfl

variable {tree : FileTree} {directory path root : Path} {contents : Value}
  (holds : Holds parse tree directory path root contents)

include holds

theorem load_eq_notAMapping :
    load parse tree directory path = .error (.settings .notAMapping) ↔
      contents.isEmpty = false ∧ ¬contents.IsMapping := by
  rw [load_of_holds holds, mapError_eq_error, ← ofValue_eq_notAMapping root]
  constructor
  · rintro ⟨error, refused, same⟩
    cases error with
    | notAMapping => exact refused
    | _ => cases same
  · intro refused
    exact ⟨_, refused, rfl⟩

theorem load_of_isEmpty (empty : contents.isEmpty = true) :
    load parse tree directory path = .ok (defaults root) := by
  rw [load_of_holds holds, ofValue, if_pos empty]
  rfl

end Settings

namespace Symbol

def Holds (parse : Yaml.Loader) (tree : FileTree) (path : Path) (contents : Value) : Prop :=
  ∃ text, tree.readText path.parts = .ok text ∧ parse text = .ok contents

variable {tree : FileTree} {path : Path} {contents : Value} (holds : Holds parse tree path contents)

include holds

theorem load_of_holds :
    load parse tree path = (ofContents path.name contents).mapError SymbolTableError.failure := by
  rcases holds with ⟨text, known, parsed⟩
  simp only [load, known, ofText, parsed]

theorem load_eq_notAList :
    load parse tree path = .error (.symbols (.notAList path.name)) ↔
      contents.isEmpty = false ∧ ∀ records, ¬Lists contents records := by
  rw [load_of_holds holds, ← recordsOf?_eq_none, ofContents]
  cases found : recordsOf? contents with
  | none => exact iff_of_true rfl rfl
  | some records =>
    refine iff_of_false ?_ (Option.some_ne_none records)
    intro refused
    rcases mapError_eq_error.mp refused with ⟨error, wrong, same⟩
    cases error with
    | notAList fileName => exact ofRecords_ne_notAList wrong
    | unknownKind name kind =>
      simp only [SymbolTableError.failure] at same
      split at same <;> cases same
    | _ => cases same

theorem load_of_isEmpty (empty : contents.isEmpty = true) : load parse tree path = .ok [] := by
  have nothing : recordsOf? contents = some [] := recordsOf?_eq_some.mpr (.inr ⟨empty, rfl⟩)
  rw [load_of_holds holds, ofContents, nothing]
  rfl

theorem load_eq_ok {records : List Value} (listed : Lists contents records)
    (symbols : List Symbol) :
    load parse tree path = .ok symbols ↔ List.Forall₂ WrittenAs records symbols := by
  have found : recordsOf? contents = some records := recordsOf?_eq_some.mpr (.inl listed)
  rw [load_of_holds holds, mapError_eq_ok, ofContents, found]
  exact ofRecords_eq_ok

end Symbol

/-- Contents that are empty, a list or a text or zero as well as a mapping, give the default
settings and no symbols. Other contents give settings only as a mapping, and symbols only if they
list records, each of which has the form of a symbol; the symbols are what the records write, in
order, and their table has the first of each name. -/
theorem loading_goes_by_shape (parse : Yaml.Loader) (tree : FileTree) (contents : Value) :
    (∀ directory path root, Settings.Holds parse tree directory path root contents →
      (Settings.load parse tree directory path = .error (.settings .notAMapping) ↔
        contents.isEmpty = false ∧ ¬contents.IsMapping) ∧
      (contents.isEmpty = true →
        Settings.load parse tree directory path = .ok (Settings.defaults root))) ∧
    ∀ path, Symbol.Holds parse tree path contents →
      (Symbol.load parse tree path = .error (.symbols (.notAList path.name)) ↔
        contents.isEmpty = false ∧ ∀ records, ¬Symbol.Lists contents records) ∧
      (contents.isEmpty = true → Symbol.load parse tree path = .ok []) ∧
      ∀ records, Symbol.Lists contents records →
        ((∃ symbols, Symbol.load parse tree path = .ok symbols) ↔
          ∀ record ∈ records, Symbol.IsRecord record) ∧
        ∀ symbols,
          (Symbol.load parse tree path = .ok symbols ↔
            List.Forall₂ Symbol.WrittenAs records symbols) ∧
          (SymbolTable.ofList symbols).names = (symbols.map (·.name)).eraseDups ∧
          ∀ name, (SymbolTable.ofList symbols).get? name = symbols.find? (·.name == name) := by
  constructor
  · intro directory path root holds
    exact ⟨Settings.load_eq_notAMapping holds, Settings.load_of_isEmpty holds⟩
  · intro path holds
    refine ⟨Symbol.load_eq_notAList holds, Symbol.load_of_isEmpty holds, fun records listed => ?_⟩
    have loaded := Symbol.load_eq_ok holds listed
    refine ⟨?_, fun symbols => ⟨loaded symbols, ?_, ?_⟩⟩
    · rw [exists_congr loaded]
      exact Symbol.exists_written_iff
    · exact SymbolTable.names_ofList symbols
    · exact SymbolTable.get?_ofList symbols

/-- A mapping that lists one class is in both files. -/
theorem loading_goes_by_shape_of_listing :
    let text : Text := "symbols: [{kind: Class, name: Foo}]"
    let bytes : List UInt8 := text.map fun c => UInt8.ofNat c.toNat
    let tree : FileTree := ⟨[([Settings.fileName], bytes), (["symbols.yml"], bytes)], []⟩
    let root : Path := ⟨"/", []⟩
    let path : Path := ⟨"/", ["symbols.yml"]⟩
    let record : Value := .record [("kind", .text "Class"), ("name", .text "Foo")]
    let contents : Value := .record [("symbols", .list [record])]
    Settings.Holds Yaml.read tree root root root contents ∧ contents.IsMapping ∧
      Settings.load Yaml.read tree root root ≠ .error (.settings .notAMapping) ∧
      Symbol.Holds Yaml.read tree path contents ∧ Symbol.Lists contents [record] ∧
      Symbol.IsRecord record ∧
      ∃ symbols, Symbol.load Yaml.read tree path = .ok symbols ∧
        List.Forall₂ Symbol.WrittenAs [record] symbols := by
  intro text bytes tree root path record contents
  have parsed : Yaml.read text = .ok contents := Value.eq_ok_of_isSame (by decide +kernel)
  have found : Settings.fileFor tree root root = .ok ⟨"/", [Settings.fileName]⟩ := by
    decide +kernel
  have inSettings : tree.readText [Settings.fileName] = .ok text := by decide +kernel
  have inSymbols : tree.readText ["symbols.yml"] = .ok text := by decide +kernel
  have full : Settings.IsRead text := by decide +kernel
  have holds : Settings.Holds Yaml.read tree root root root contents :=
    ⟨_, text, found, rfl, inSettings, .inr ⟨full, parsed⟩⟩
  have holdsToo : Symbol.Holds Yaml.read tree path contents := ⟨text, inSymbols, parsed⟩
  have mapping : contents.IsMapping := ⟨_, rfl⟩
  have listed : Symbol.Lists contents [record] := .within rfl rfl
  have form : Symbol.IsRecord record :=
    { mapping := ⟨_, rfl⟩
      named := ⟨"Foo", rfl, nofun⟩
      kind := ⟨"Class", rfl, .classKind, by decide +kernel⟩
      metadata := nofun }
  have shape := loading_goes_by_shape Yaml.read tree contents
  have records := (shape.2 path holdsToo).2.2 [record] listed
  rcases records.1.mpr (List.forall_mem_singleton.mpr form) with ⟨symbols, loaded⟩
  refine ⟨holds, mapping, ?_, holdsToo, listed, form, symbols, loaded,
    (records.2 symbols).1.mp loaded⟩
  intro refused
  exact ((shape.1 root root root holds).1.mp refused).2 mapping

/-- An empty list is taken for settings here, and a zero for a list of symbols. -/
theorem empty_list_is_taken_for_settings :
    let bytes (text : Text) : List UInt8 := text.map fun c => UInt8.ofNat c.toNat
    let tree : FileTree :=
      ⟨[([Settings.fileName], bytes "[]"), (["symbols.yml"], bytes "0")], []⟩
    let root : Path := ⟨"/", []⟩
    let path : Path := ⟨"/", ["symbols.yml"]⟩
    Settings.Holds Yaml.read tree root root root (.list []) ∧ ¬(Value.list []).IsMapping ∧
      Settings.load Yaml.read tree root root = .ok (Settings.defaults root) ∧
      Symbol.Holds Yaml.read tree path (.integer 0) ∧
      (∀ records, ¬Symbol.Lists (.integer 0) records) ∧
      Symbol.load Yaml.read tree path = .ok [] := by
  intro bytes tree root path
  have found : Settings.fileFor tree root root = .ok ⟨"/", [Settings.fileName]⟩ := by
    decide +kernel
  have inSettings : tree.readText [Settings.fileName] = .ok "[]" := by decide +kernel
  have inSymbols : tree.readText ["symbols.yml"] = .ok "0" := by decide +kernel
  have full : Settings.IsRead "[]" := by decide +kernel
  have holds : Settings.Holds Yaml.read tree root root root (.list []) :=
    ⟨_, _, found, rfl, inSettings, .inr ⟨full, Value.eq_ok_of_isSame (by decide +kernel)⟩⟩
  have holdsToo : Symbol.Holds Yaml.read tree path (.integer 0) :=
    ⟨_, inSymbols, Value.eq_ok_of_isSame (by decide +kernel)⟩
  refine ⟨holds, nofun, Settings.load_of_isEmpty holds rfl, holdsToo, fun records listed => ?_,
    Symbol.load_of_isEmpty holdsToo rfl⟩
  cases listed with
  | list inside => cases inside
  | within inside => cases inside
  | without mapping => exact nomatch mapping

end DocAtlas
