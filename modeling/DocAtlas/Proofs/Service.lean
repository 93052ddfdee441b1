import DocAtlas.Proofs.Model.Entries
import DocAtlas.Service.Routing

/-!
# The answers of a service

A service builds until a build succeeds, once for each question, and answers every question
from then on from that one model. What it answers does not depend on the way of asking: the
keys that are listed are those whose entries are answered, and a lookup of a key answers its
entry. All of this holds with any router that follows the routes of the service.
-/

namespace DocAtlas.Service

variable {Failure : Type} {route : Router} {builds : Nat → Except Failure Model}

/-! ## Requests one after the other -/

/-- The answers to some requests, and the state behind them. `builds` says what each build
comes to, counted from zero. -/
def serve (route : Router) (builds : Nat → Except Failure Model) (state : State) :
    List Request → List (Except Failure Response) × State
  | [] => ([], state)
  | request :: rest =>
    let (answer, next) := handle route (builds state.builds) state request
    let (answers, final) := serve route builds next rest
    (answer :: answers, final)

def questions (route : Router) (requests : List Request) : List Question :=
  requests.filterMap fun request => (route request).toOption

structure FirstSuccess (builds : Nat → Except Failure Model) (number : Nat) (model : Model) :
    Prop where
  succeeds : builds number = .ok model
  first : ∀ earlier < number, ∃ failure, builds earlier = .error failure

inductive Reached (builds : Nat → Except Failure Model) (asked : Nat) : State → Prop
  | waiting : (∀ number < asked, ∃ failure, builds number = .error failure) →
      Reached builds asked ⟨none, asked⟩
  | built {number : Nat} {model : Model} : number < asked → FirstSuccess builds number model →
      Reached builds asked ⟨some model, number + 1⟩

/-- The answer to a question, where so many were put before, and the number of builds before
and after it. -/
inductive Answered (builds : Nat → Except Failure Model) (asked : Nat) (question : Question) :
    Except Failure Response → Nat → Nat → Prop
  | failed {failure : Failure} :
      (∀ number < asked, ∃ earlier, builds number = .error earlier) →
      builds asked = .error failure →
      Answered builds asked question (.error failure) asked (asked + 1)
  | first {model : Model} : FirstSuccess builds asked model →
      Answered builds asked question (.ok (question.answer model)) asked (asked + 1)
  | later {number : Nat} {model : Model} : number < asked → FirstSuccess builds number model →
      Answered builds asked question (.ok (question.answer model)) (number + 1) (number + 1)

theorem handle_of_error {state : State} {request : Request} {response : Response}
    (built : Except Failure Model) (plain : route request = .error response) :
    handle route built state request = (.ok response, state) := by
  simp only [handle, plain]

/-- One question more: it is answered, and the state is one that is reached with it. -/
theorem handle_of_question {asked : Nat} {state : State} {request : Request}
    {question : Question} (reached : Reached builds asked state)
    (put : route request = .ok question) :
    Reached builds (asked + 1) (handle route (builds state.builds) state request).2 ∧
      Answered builds asked question (handle route (builds state.builds) state request).1
        state.builds (handle route (builds state.builds) state request).2.builds := by
  cases reached with
  | waiting failed =>
    cases outcome : builds asked with
    | error failure =>
      simp only [handle, put]
      refine ⟨.waiting ?_, .failed failed outcome⟩
      intro number below
      rcases Nat.lt_succ_iff_lt_or_eq.mp below with before | rfl
      · exact failed number before
      · exact ⟨failure, outcome⟩
    | ok model =>
      simp only [handle, put]
      have success : FirstSuccess builds asked model := ⟨outcome, failed⟩
      exact ⟨.built (Nat.lt_succ_self asked) success, .first success⟩
  | built before success =>
    simp only [handle, put]
    exact ⟨.built (Nat.lt_succ_of_lt before) success, .later before success⟩

theorem reached_serve {asked : Nat} {state : State} (reached : Reached builds asked state)
    (requests : List Request) :
    Reached builds (asked + (questions route requests).length)
      (serve route builds state requests).2 := by
  induction requests generalizing asked state with
  | nil => exact reached
  | cons request rest induction =>
    cases put : route request with
    | error response =>
      have same := induction reached
      simpa only [serve, handle_of_error _ put, questions, List.filterMap_cons, put,
        Except.toOption] using same
    | ok question =>
      have more := induction (handle_of_question reached put).1
      simp only [serve, questions, List.filterMap_cons, put, Except.toOption, List.length_cons]
      rwa [Nat.add_assoc, Nat.add_comm 1] at more

theorem serve_append (route : Router) (builds : Nat → Except Failure Model) (state : State)
    (before after : List Request) :
    serve route builds state (before ++ after) =
      ((serve route builds state before).1 ++
          (serve route builds (serve route builds state before).2 after).1,
        (serve route builds (serve route builds state before).2 after).2) := by
  induction before generalizing state with
  | nil => rfl
  | cons request rest induction => simp only [List.cons_append, serve, induction]

theorem length_serve (route : Router) (builds : Nat → Except Failure Model) (state : State)
    (requests : List Request) :
    (serve route builds state requests).1.length = requests.length := by
  induction requests generalizing state with
  | nil => rfl
  | cons request rest induction => simp only [serve, List.length_cons, induction]

/-! ## Answers from one model -/

def Response.keys (response : Response) : List Text :=
  ((response.body.bind Value.items?).getD []).filterMap fun item =>
    match item.field? "key" with
    | some (.text key) => some key
    | _ => none

/-- The ways of asking agree on a model. The keys that are listed are those that have an
entry, in ascending order and once each; a lookup of a key answers its entry in every scope,
and a lookup answers nothing where nothing is meant. -/
structure RoutesAgree (model : Model) : Prop where
  listed : ∀ key, key ∈ (Question.entries.answer model).keys ↔
    ((Question.entry key).answer model).status = 200
  ascending : (Question.entries.answer model).keys.Pairwise fun first second =>
    Text.le first second = true ∧ first ≠ second
  found : ∀ key scope, ((Question.entry key).answer model).status = 200 →
    (Question.lookup key scope).answer model = (Question.entry key).answer model
  missing : ∀ name scope, ((Question.lookup name scope).answer model).status = 404 ↔
    model.lookup? name scope = none

theorem keys_answer_entries (model : Model) :
    (Question.entries.answer model).keys =
      Resolution.keys (Resolution.sortedByKey model.entries) := by
  have items : ((Question.entries.answer model).body.bind Value.items?).getD [] =
      (Resolution.sortedByKey model.entries).map entrySummary := rfl
  rw [Response.keys, items, List.filterMap_map, Resolution.keys, ← List.filterMap_eq_map]
  rfl

theorem status_ofEntry (name : Text) (entry : Option Entry) :
    (Response.ofEntry name entry).status = if entry.isSome then 200 else 404 := by
  cases entry <;> rfl

theorem status_entry {model : Model} {key : Text} :
    ((Question.entry key).answer model).status = 200 ↔ key ∈ model.keys := by
  rw [Question.answer, status_ofEntry]
  cases found : model.get? key with
  | none => exact iff_of_false (by decide) (Resolution.find?_eq_none.mp found)
  | some entry =>
    refine iff_of_true rfl (Classical.byContradiction fun absent => ?_)
    rw [Model.get?, Resolution.find?_eq_none.mpr absent] at found
    cases found

theorem routesAgree {model : Model} (distinct : model.keys.Nodup) : RoutesAgree model where
  listed := by
    intro key
    rw [keys_answer_entries, status_entry]
    exact ((Resolution.sortedByKey_perm model.entries).map _).mem_iff
  ascending := by
    rw [keys_answer_entries]
    exact Resolution.keys_sortedByKey_pairwise distinct
  found := by
    intro key scope status
    have meant : Name.resolve? key model.keys scope = some key :=
      Name.resolve?_of_mem (status_entry.mp status)
    simp only [Question.answer, Model.lookup?, meant, Option.bind_some]
  missing := by
    intro name scope
    rw [Question.answer, status_ofEntry]
    cases model.lookup? name scope with
    | none => exact iff_of_true rfl rfl
    | some entry => exact iff_of_false (by decide : 200 ≠ 404) (Option.some_ne_none entry)

/-! ## Routing by paths -/

namespace Route

theorem singleLine?_of_line {path : Text} (line : Text.newline ∉ path) :
    singleLine? path = some path := by
  have whole : ¬Text.endsWith [Text.newline] path = true := by
    intro ends
    rw [Text.endsWith, List.isSuffixOf_iff_suffix] at ends
    exact line (ends.subset List.mem_cons_self)
  simp only [singleLine?, if_neg whole, List.contains_iff_mem, if_neg line]

theorem ofPath?_of_line {path : Text} {found : Route} (line : Text.newline ∉ path)
    (known : ofLine? path = some found) : ofPath? path = some found := by
  rw [ofPath?, ofWritten?, singleLine?_of_line line, Option.bind_some, known, Option.some_or]

theorem ofPath?_entry {key : Text} (line : Text.newline ∉ key) :
    ofPath? ("/entries/" ++ key) = some (entry key) := by
  apply ofPath?_of_line
  · rw [List.mem_append, not_or]
    exact ⟨by decide, line⟩
  · rfl

end Route

theorem Router.byPath_followsRoutes : byPath.FollowsRoutes := by
  intro request question asks
  cases asks with
  | health query => rfl
  | entries query => rfl
  | entry query line =>
    rw [byPath, Route.ofPath?_entry line]
    rfl
  | lookup method path named =>
    have found : Route.ofPath? request.path = some .lookup := by
      rw [path]
      rfl
    have allowed : Route.lookup.methods.contains request.method = true := by
      rw [method]
      rfl
    simp only [byPath, found, if_pos allowed, Route.question, named]
  | diagnostics query => rfl

/-! ## A service -/

/-- Every build before the first that succeeds is answered with its failure, and all that
comes later with that one model, on which the ways of asking agree. The requests that put a
question are those of the declared routes, and what else a router takes for one. -/
theorem one_model_answers (follows : route.FollowsRoutes)
    (distinct : ∀ number model, builds number = .ok model → model.keys.Nodup) :
    (∀ before request after,
      let asked := (questions route before).length
      let earlier := (serve route builds .start before).2
      let later := (serve route builds .start (before ++ [request])).2
      ∃ answer,
        (serve route builds .start (before ++ request :: after)).1[before.length]? = some answer ∧
        (∀ question, request.Asks question →
          Answered builds asked question answer earlier.builds later.builds) ∧
        match route request with
        | .error response => answer = .ok response ∧ later = earlier
        | .ok question => Answered builds asked question answer earlier.builds later.builds) ∧
      ∀ number model, FirstSuccess builds number model → RoutesAgree model := by
  constructor
  · intro before request after asked earlier later
    have start : Reached builds 0 .start := .waiting (by simp)
    have reached : Reached builds asked earlier := by
      have here : Reached builds (0 + asked) earlier := reached_serve start before
      rwa [Nat.zero_add] at here
    have next : later = (handle route (builds earlier.builds) earlier request).2 := by
      simp only [later, serve_append, serve]
      rfl
    refine ⟨(handle route (builds earlier.builds) earlier request).1, ?_, ?_, ?_⟩
    · have front := length_serve route builds .start before
      rw [serve_append, List.getElem?_append_right (Nat.le_of_eq front), front, Nat.sub_self]
      rfl
    · intro question asks
      rw [next]
      exact (handle_of_question reached (follows request question asks)).2
    · cases put : route request with
      | error response =>
        rw [next, handle_of_error _ put]
        exact ⟨rfl, rfl⟩
      | ok question =>
        rw [next]
        exact (handle_of_question reached put).2
  · intro number model success
    exact routesAgree (distinct number model success.succeeds)

/-- The second build succeeds here; the request for an unknown path needs none. -/
theorem one_model_answers_after_failure :
    let builder : Builder := ⟨⟨["/*!"], by decide⟩, true, 1, by decide⟩
    let sources : List Source := [⟨"a.h", "/*! \\class A */ /*! \\fn A::run() \n \\sa A */"⟩]
    let run := Run.ofSources builder sources
      (.ofList [⟨.classKind, "A", none, none, []⟩, ⟨.methodKind, "A::run", none, none, []⟩])
    let builds : Nat → Except BuildError Model := fun number =>
      if number = 0 then .error .sourcesNotIterable else run.model
    let health : Request := ⟨"GET", "/health", []⟩
    let unknown : Request := ⟨"GET", "/nowhere", []⟩
    let lookup : Request := ⟨"GET", "/lookup", [("name", "stop"), ("name", "run"), ("scope", "A")]⟩
    Router.byPath.FollowsRoutes ∧
      (∀ number model, builds number = .ok model → model.keys.Nodup) ∧
      lookup.Asks (.lookup "run" (some "A")) ∧
      (∃ answer earlier later,
        (serve .byPath builds .start [health, unknown, lookup, health]).1[2]? = some answer ∧
          Answered builds 1 (.lookup "run" (some "A")) answer earlier later) ∧
      ∃ model, FirstSuccess builds 1 model ∧ RoutesAgree model := by
  intro builder sources run builds health unknown lookup
  have distinct : ∀ number model, builds number = .ok model → model.keys.Nodup := by
    intro number model built
    by_cases failed : number = 0
    · simp only [builds, if_pos failed] at built
      cases built
    · simp only [builds, if_neg failed] at built
      exact Run.nodup_keys_model built
  have asks : lookup.Asks (.lookup "run" (some "A")) := .lookup rfl rfl rfl
  have answers := one_model_answers Router.byPath_followsRoutes distinct
  rcases answers.1 [health, unknown] lookup [health] with ⟨answer, given, answered, _⟩
  have success : FirstSuccess builds 1 _ :=
    ⟨Run.model_eq builder sources _, fun earlier below =>
      ⟨.sourcesNotIterable, if_pos (Nat.lt_one_iff.mp below)⟩⟩
  exact ⟨Router.byPath_followsRoutes, distinct, asks, ⟨answer, _, _, given, answered _ asks⟩, _,
    success, answers.2 1 _ success⟩

end DocAtlas.Service
