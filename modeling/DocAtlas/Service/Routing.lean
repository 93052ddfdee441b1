import DocAtlas.Service

/-!
# Routing by paths

The router of a web framework: the path of a request leads to a route, which answers to some
methods only and checks the fields of the query that it needs. Besides the routes of the
service there are those under which the framework documents it.
-/

namespace DocAtlas.Service

inductive Route where
  | health
  | entries
  | entry (key : Text)
  | lookup
  | diagnostics
  | documentation
deriving DecidableEq, Repr

namespace Route

def singleLine? (path : Text) : Option Text :=
  let line := if Text.endsWith [Text.newline] path then path.dropLast else path
  if line.contains Text.newline then none else some line

def documentationPaths : List Text :=
  ["/openapi.json", "/docs", "/docs/oauth2-redirect", "/redoc"]

def ofLine? (line : Text) : Option Route :=
  if documentationPaths.contains line then some documentation
  else if line = "/health".toList then some health
  else if line = "/entries".toList then some entries
  else if line = "/lookup".toList then some lookup
  else if line = "/diagnostics".toList then some diagnostics
  else (Text.dropStart? "/entries/" line).map entry

def ofWritten? (path : Text) : Option Route := (singleLine? path).bind ofLine?

def isSlash (c : Char) : Bool := c == '/'

/-- The route of a path. Slashes too many at the end redirect to the path without them. -/
def ofPath? (path : Text) : Option Route :=
  (ofWritten? path).or
    (if Text.endsWith ['/'] path && path != ['/'] then ofWritten? (Text.dropEndWhile isSlash path)
    else none)

def methods : Route → List Text
  | documentation => ["GET", "HEAD"]
  | _ => ["GET"]

/-- What a request asks of its route. The documentation and the complaint about a name that is
missing are the framework's own texts. -/
def question (request : Request) : Route → Except Response Question
  | health => .ok .health
  | entries => .ok .entries
  | entry key => .ok (.entry key)
  | diagnostics => .ok .diagnostics
  | documentation => .error ⟨200, none⟩
  | lookup =>
    match request.value? "name" with
    | some name => .ok (.lookup name (request.value? "scope"))
    | none => .error ⟨422, none⟩

end Route

def Router.byPath : Router := fun request =>
  match Route.ofPath? request.path with
  | none => .error (.ofDetail 404 "Not Found")
  | some route =>
    if route.methods.contains request.method then route.question request
    else .error (.ofDetail 405 "Method Not Allowed")

end DocAtlas.Service
