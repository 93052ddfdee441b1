import DocAtlas.Resolution

/-!
# Documentation models

The finished documentation of a program: one entry per documented symbol, in the order
of the keys, and everything that was found wrong on the way.
-/

namespace DocAtlas

structure Model where
  entries : List Entry
  diagnostics : List Diagnostic
deriving DecidableEq, Repr

namespace Model

def keys (model : Model) : List Text := Resolution.keys model.entries

def size (model : Model) : Nat := model.entries.length

def get? (model : Model) (key : Text) : Option Entry := Resolution.find? model.entries key

def contains (model : Model) (key : Text) : Bool := (model.get? key).isSome

/-- The entry that a name means, written inside a scope, by the rules for references. -/
def lookup? (model : Model) (name : Text) (scope : Option Text) : Option Entry :=
  (Name.resolve? name model.keys scope).bind model.get?

def dangling (model : Model) : List CrossReference :=
  (model.entries.flatMap (·.references)).filter fun reference => reference.state = .dangling

def diagnosticsOf (model : Model) (kind : DiagnosticKind) : List Diagnostic :=
  model.diagnostics.filter fun diagnostic => diagnostic.kind = kind

end Model

end DocAtlas
