import DocAtlas.Model.Export

/-!
# The lookup service

Documentation is answered to requests. A request puts a question, which is answered from a
model, or is answered without one; which of the two is decided by a router. The model is
built when the first question needs it, and then kept: a build that fails is tried again with
the next question, and after one that succeeds there is no other.
-/

namespace DocAtlas.Service

structure Request where
  method : Text
  path : Text
  query : List (Text × Text)
deriving DecidableEq, Repr

namespace Request

def field (word : Text) : Text × Text :=
  (word.takeWhile (· != '='), (word.dropWhile (· != '=')).drop 1)

def ofWords (words : List Text) : Request :=
  ⟨words.headD [], (words.drop 1).headD [], (words.drop 2).map field⟩

/-- What a query says under a name; the last of several fields counts. -/
def value? (request : Request) (name : Text) : Option Text := request.query.reverse.lookup name

end Request

structure Response where
  status : Nat
  body : Option Value

structure State where
  model : Option Model
  builds : Nat

def State.start : State := ⟨none, 0⟩

namespace Response

def ofDetail (status : Nat) (detail : Text) : Response :=
  ⟨status, some (.record [("detail", .text detail)])⟩

def ok (body : Value) : Response := ⟨200, some body⟩

def missingEntry (name : Text) : Response :=
  ofDetail 404 (Text.join ["No documentation for ", name])

def ofEntry (name : Text) (entry : Option Entry) : Response :=
  match entry with
  | some entry => ok entry.toValue
  | none => missingEntry name

end Response

def entrySummary (entry : Entry) : Value :=
  .record
    [("key", .text entry.key),
     ("kind", .text entry.kind.label),
     ("summary", .text entry.summary),
     ("href", .text entry.href)]

inductive Question where
  | health
  | entries
  | entry (key : Text)
  | lookup (name : Text) (scope : Option Text)
  | diagnostics
deriving DecidableEq, Repr

namespace Question

def answer (model : Model) : Question → Response
  | health =>
    .ok (.record [("status", .text "ok"), ("entries", .integer model.size)])
  | entries => .ok (.list ((Resolution.sortedByKey model.entries).map entrySummary))
  | entry key => .ofEntry key (model.get? key)
  | lookup name scope => .ofEntry name (model.lookup? name scope)
  | diagnostics => .ok (.list (model.diagnostics.map (·.toValue)))

end Question

/-! ## Routes -/

/-- The requests that put a question, by the routes that the service declares. The key of an
entry is the rest of a path, which is a single line. -/
inductive Request.Asks : Request → Question → Prop
  | health (query : List (Text × Text)) : Asks ⟨"GET", "/health", query⟩ .health
  | entries (query : List (Text × Text)) : Asks ⟨"GET", "/entries", query⟩ .entries
  | entry {key : Text} (query : List (Text × Text)) : Text.newline ∉ key →
      Asks ⟨"GET", "/entries/" ++ key, query⟩ (.entry key)
  | lookup {request : Request} {name : Text} : request.method = "GET" →
      request.path = "/lookup" → request.value? "name" = some name →
      Asks request (.lookup name (request.value? "scope"))
  | diagnostics (query : List (Text × Text)) : Asks ⟨"GET", "/diagnostics", query⟩ .diagnostics

/-- Finds the question of a request, or the answer that needs no model. -/
abbrev Router := Request → Except Response Question

def Router.FollowsRoutes (route : Router) : Prop :=
  ∀ request question, request.Asks question → route request = .ok question

/-- Handles one request. `built` is what a build comes to if one is tried now. -/
def handle {Failure : Type} (route : Router) (built : Except Failure Model) (state : State)
    (request : Request) : Except Failure Response × State :=
  match route request with
  | .error response => (.ok response, state)
  | .ok question =>
    match state.model, built with
    | some model, _ => (.ok (question.answer model), state)
    | none, .ok model => (.ok (question.answer model), ⟨some model, state.builds + 1⟩)
    | none, .error failure => (.error failure, ⟨none, state.builds + 1⟩)

end DocAtlas.Service
