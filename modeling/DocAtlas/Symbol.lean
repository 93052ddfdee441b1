import DocAtlas.Name
import DocAtlas.Value
import DocAtlas.Text.Lowercase

/-!
# Symbols

The declared entities that documentation can be about. A symbol's place in the
documentation is a page, shared by the members of one class or namespace, and an
anchor on it.
-/

namespace DocAtlas

inductive SymbolKind where
  | classKind
  | propertyKind
  | signalKind
  | methodKind
  | functionKind
  | enumKind
  | typedefKind
  | variableKind
  | namespaceKind
  | macroKind
deriving DecidableEq, Repr

namespace SymbolKind

def label : SymbolKind → Text
  | classKind => "class"
  | propertyKind => "property"
  | signalKind => "signal"
  | methodKind => "method"
  | functionKind => "function"
  | enumKind => "enum"
  | typedefKind => "typedef"
  | variableKind => "variable"
  | namespaceKind => "namespace"
  | macroKind => "macro"

def all : List SymbolKind :=
  [classKind, propertyKind, signalKind, methodKind, functionKind, enumKind, typedefKind,
    variableKind, namespaceKind, macroKind]

def ofLabel? (label : Text) : Option SymbolKind := all.find? fun kind => kind.label == label

theorem ofLabel?_label (kind : SymbolKind) : ofLabel? kind.label = some kind := by
  cases kind <;> rfl

def isScope : SymbolKind → Bool
  | classKind | namespaceKind => true
  | _ => false

/-- What an anchor of this kind ends in, so that two kinds of one leaf differ. -/
def anchorSuffix : SymbolKind → Text
  | propertyKind => "-prop"
  | enumKind => "-enum"
  | typedefKind => "-typedef"
  | variableKind => "-var"
  | _ => []

end SymbolKind

/-- The number of a line; a truth value stands for one or zero. -/
inductive LineNumber where
  | number (value : Int)
  | truth (value : Bool)
deriving DecidableEq, Repr

namespace LineNumber

def toInt : LineNumber → Int
  | number value => value
  | truth value => if value then 1 else 0

end LineNumber

structure SourceLocation where
  file : Text
  line : LineNumber
deriving DecidableEq, Repr

namespace SourceLocation

def ofPath (path : Text) (line : LineNumber) : SourceLocation := ⟨Text.slashed path, line⟩

end SourceLocation

structure Symbol where
  kind : SymbolKind
  name : Text
  declaration : Option SourceLocation
  definition : Option SourceLocation
  metadata : List (Value × Value)

namespace Symbol

def owner? (symbol : Symbol) : Option Text := Name.owner? symbol.name

def locations (symbol : Symbol) : List SourceLocation :=
  symbol.declaration.toList ++ symbol.definition.toList

def metadataText? (symbol : Symbol) (key : Text) : Option Text :=
  match Value.lookup? key symbol.metadata with
  | some (.text value) => if value = [] then none else some value
  | _ => none

def anchor (symbol : Symbol) : Text :=
  if symbol.kind.isScope then "details"
  else Name.leaf symbol.name ++ symbol.kind.anchorSuffix

def pageScope? (symbol : Symbol) : Option Text :=
  if symbol.kind.isScope then some symbol.name else symbol.owner?

def dashed : Text → Text
  | ':' :: ':' :: rest => '-' :: dashed rest
  | c :: rest => c :: dashed rest
  | [] => []

def pageOfScope (scope : Text) : Text := dashed (Text.lower scope) ++ ".html"

/-- The page of a symbol: the one its metadata names, or its scope's. -/
def page (symbol : Symbol) : Text :=
  match symbol.metadataText? "page", symbol.pageScope? with
  | some page, _ => page
  | none, some scope => pageOfScope scope
  | none, none => "index.html"

end Symbol

end DocAtlas
