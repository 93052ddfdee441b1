import DocAtlas.Symbol.Table
import DocAtlas.Value.Literal

/-!
# Symbol records

The form of a symbol in a file: a mapping with a kind and a name, perhaps with the
place of its declaration and of its definition and with further metadata. A file holds
a list of such records, either alone or under `symbols`.
-/

namespace DocAtlas

inductive SymbolTableError where
  | unreadable (path reason : Text)
  | unparsable (fileName : Text)
  | notAList (fileName : Text)
  | recordNotAMapping (index : Nat)
  | missingName (index : Nat)
  | unknownKind (name : Text) (kind : Value)
  | metadataNotAMapping (name : Text)

namespace SymbolTableError

def message : SymbolTableError → Text
  | unreadable path reason => Text.join ["Failed to read symbol table ", path, ": ", reason]
  | unparsable fileName => Text.join ["Failed to parse ", fileName]
  | notAList fileName => Text.join [fileName, " must contain a list of symbols"]
  | recordNotAMapping index =>
    Text.join ["Symbol #", Text.natText index, " must be a mapping"]
  | missingName index => Text.join ["Symbol #", Text.natText index, " is missing a name"]
  | unknownKind name kind => Text.join ["Symbol ", name, " has unknown kind ", kind.literal]
  | metadataNotAMapping name => Text.join ["Symbol ", name, " metadata must be a mapping"]

end SymbolTableError

namespace SourceLocation

/-- A mapping with a file and a line is a location; anything else is none. -/
def ofValue? (value : Value) : Option SourceLocation :=
  match value.field? "file", value.field? "line" with
  | some (.text file), some (.integer line) => some (ofPath file (.number line))
  | some (.text file), some (.truth line) => some (ofPath file (.truth line))
  | _, _ => none

end SourceLocation

namespace Symbol

def kindOf? (value : Option Value) : Option SymbolKind :=
  match value with
  | some (.text label) => SymbolKind.ofLabel? (Text.lower label)
  | _ => none

def metadataOf? (value : Option Value) : Option (List (Value × Value)) :=
  match value with
  | none => some []
  | some value => if value.isEmpty then some [] else value.entries?

def ofRecord (index : Nat) (record : Value) : Except SymbolTableError Symbol :=
  match record.entries? with
  | some fields =>
    match Value.lookup? "name" fields with
    | some (.text (c :: rest)) =>
      match kindOf? (Value.lookup? "kind" fields),
        metadataOf? (Value.lookup? "metadata" fields) with
      | none, _ =>
        .error (.unknownKind (c :: rest) ((Value.lookup? "kind" fields).getD .null))
      | some _, none => .error (.metadataNotAMapping (c :: rest))
      | some kind, some metadata =>
        .ok
          { kind := kind
            name := c :: rest
            declaration := SourceLocation.ofValue? record
            definition := (Value.lookup? "definition" fields).bind SourceLocation.ofValue?
            metadata := metadata }
    | _ => .error (.missingName index)
  | none => .error (.recordNotAMapping index)

def ofRecords (index : Nat) : List Value → Except SymbolTableError (List Symbol)
  | [] => .ok []
  | record :: rest => do
    let symbol ← ofRecord index record
    let others ← ofRecords (index + 1) rest
    return symbol :: others

/-- The records of a file's contents: anything empty counts as no records. -/
def recordsOf? (contents : Value) : Option (List Value) :=
  if contents.isEmpty then some []
  else
    match contents.entries? with
    | some fields =>
      match Value.lookup? "symbols" fields with
      | none => some []
      | some records => records.items?
    | none => contents.items?

def ofContents (fileName : Text) (contents : Value) : Except SymbolTableError (List Symbol) :=
  match recordsOf? contents with
  | none => .error (.notAList fileName)
  | some records => ofRecords 0 records

end Symbol

end DocAtlas
