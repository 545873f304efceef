import Mathlib.Data.List.MinMax
import Cppws.Http.Request
import Cppws.Http.Response

/-!
# The router

`Router` of `http/router.hpp`.  A handler is any function of the request, the
response it is given and the state of the world it runs in; it is `none` where
it throws.
-/

namespace Cppws.Http

abbrev Handler (World : Type) :=
  World → HttpRequest → HttpResponse → Option HttpResponse

structure Route (World : Type) where
  method : Method
  path : Bytes
  handler : Handler World
  isPrefix : Bool := false

structure Router (World : Type) where
  routes : List (Route World) := []

namespace Router

variable {World : Type}

def addRoute (router : Router World) (method : Method) (path : Bytes)
    (handler : Handler World) : Router World :=
  { router with routes := router.routes ++ [{ method, path, handler }] }

def addPrefixRoute (router : Router World) (method : Method) (path : Bytes)
    (handler : Handler World) : Router World :=
  { router with
    routes := router.routes ++ [{ method, path, handler, isPrefix := true }] }

/-- The first exact route for the request. -/
def exact (router : Router World) (request : HttpRequest) :
    Option (Route World) :=
  router.routes.find? fun route =>
    !route.isPrefix && route.method = request.method &&
      route.path = request.path

/-- One round of the loop over the prefix routes. -/
def better (request : HttpRequest) (best : Option (Route World))
    (route : Route World) : Option (Route World) :=
  if route.isPrefix ∧ route.method = request.method ∧
      route.path <+: request.path then
    match best with
    | none => some route
    | some other =>
        if other.path.length < route.path.length then some route else best
  else
    best

/-- The longest prefix route for the request. -/
def longest (router : Router World) (request : HttpRequest) :
    Option (Route World) :=
  router.routes.foldl (better request) none

/-- What `dispatch` returns and makes of the response, unless it throws. -/
def dispatch (router : Router World) (world : World) (request : HttpRequest)
    (response : HttpResponse) : Option (Bool × HttpResponse) :=
  match router.exact request with
  | some route =>
      (route.handler world request response).map fun filled => (true, filled)
  | none =>
      match router.longest request with
      | some route =>
          (route.handler world request response).map fun filled =>
            (true, filled)
      | none => some (false, response)

/-- The route whose handler `dispatch` runs. -/
def selected (router : Router World) (request : HttpRequest) :
    Option (Route World) :=
  (router.exact request).or (router.longest request)

theorem dispatch_eq_none_iff {router : Router World} {world : World}
    {request : HttpRequest} {response : HttpResponse} :
    router.dispatch world request response = none ↔
      ∃ route, router.selected request = some route ∧
        route.handler world request response = none := by
  unfold dispatch selected
  cases router.exact request with
  | some route => simp
  | none =>
      cases router.longest request with
      | some route => simp
      | none => simp

end Router

/-! ## The priority of routes -/

namespace Route

variable {World : Type}

/-- An exact route with the method and the path of the request. -/
def MatchesExactly (request : HttpRequest) (route : Route World) : Prop :=
  route.isPrefix = false ∧ route.method = request.method ∧
    route.path = request.path

/-- A prefix route with the method of the request and a prefix of its path. -/
def MatchesPrefix (request : HttpRequest) (route : Route World) : Prop :=
  route.isPrefix = true ∧ route.method = request.method ∧
    route.path <+: request.path

instance (request : HttpRequest) (route : Route World) :
    Decidable (route.MatchesPrefix request) :=
  inferInstanceAs (Decidable (_ ∧ _ ∧ _))

/-- Kind, method and path. -/
def key (route : Route World) : Bool × Method × Bytes :=
  (route.isPrefix, route.method, route.path)

/-- Two prefixes of a path that are equally long are the same. -/
theorem MatchesPrefix.key_eq {request : HttpRequest} {route other : Route World}
    (matched : route.MatchesPrefix request)
    (matched' : other.MatchesPrefix request)
    (sameLength : route.path.length = other.path.length) :
    route.key = other.key := by
  rcases matched with ⟨isPrefix, method, begins⟩
  rcases matched' with ⟨isPrefix', method', begins'⟩
  have path : route.path = other.path := by
    rw [List.prefix_iff_eq_take.1 begins, List.prefix_iff_eq_take.1 begins',
      sameLength]
  rw [key, key, isPrefix, isPrefix', method, method', path]

theorem MatchesExactly.key_eq {request : HttpRequest}
    {route other : Route World} (matched : route.MatchesExactly request)
    (matched' : other.MatchesExactly request) : route.key = other.key := by
  rcases matched with ⟨isExact, method, path⟩
  rcases matched' with ⟨isExact', method', path'⟩
  rw [key, key, isExact, isExact', method, method', path, path']

end Route

/-- `List.argmax` is the first of the greatest elements. -/
theorem split_of_mem_argmax {α β : Type*} [LinearOrder β] {f : α → β}
    {greatest : α} {list : List α} (member : greatest ∈ list.argmax f) :
    ∃ before after, list = before ++ greatest :: after ∧
      (∀ other ∈ before, f other < f greatest) ∧
        ∀ other ∈ after, f other ≤ f greatest := by
  induction list with
  | nil => simp at member
  | cons first list ih =>
      rw [List.argmax_cons] at member
      cases found : list.argmax f with
      | none =>
          rw [List.argmax_eq_none] at found
          subst found
          cases member
          exact ⟨[], [], rfl, by simp, by simp⟩
      | some later =>
          simp only [found] at member
          split_ifs at member with less
          · cases member
            rcases ih found with ⟨before, after, rfl, smaller, atMost⟩
            refine ⟨first :: before, after, rfl, ?_, atMost⟩
            exact List.forall_mem_cons.2 ⟨less, smaller⟩
          · cases member
            refine ⟨[], list, rfl, by simp, ?_⟩
            intro other among
            exact (List.le_of_mem_argmax among found).trans (not_lt.1 less)

/--
The route that has priority for a request: the first exact route; without one,
the first of the longest prefix routes; no route if none matches.
-/
inductive Priority {World : Type} (routes : List (Route World))
    (request : HttpRequest) : Option (Route World) → Prop where
  | exact {before after : List (Route World)} {route : Route World}
      (split : routes = before ++ route :: after)
      (matched : route.MatchesExactly request)
      (first : ∀ other ∈ before, ¬ other.MatchesExactly request) :
      Priority routes request (some route)
  | longest {before after : List (Route World)} {route : Route World}
      (noExact : ∀ other ∈ routes, ¬ other.MatchesExactly request)
      (split : routes = before ++ route :: after)
      (matched : route.MatchesPrefix request)
      (earlier : ∀ other ∈ before, other.MatchesPrefix request →
        other.path.length < route.path.length)
      (later : ∀ other ∈ after, other.MatchesPrefix request →
        other.path.length ≤ route.path.length) :
      Priority routes request (some route)
  | nothing
      (noExact : ∀ route ∈ routes, ¬ route.MatchesExactly request)
      (noPrefix : ∀ route ∈ routes, ¬ route.MatchesPrefix request) :
      Priority routes request none

namespace Router

variable {World : Type}

theorem exact_test_iff {request : HttpRequest} {route : Route World} :
    (!route.isPrefix && route.method = request.method &&
        route.path = request.path) = true ↔
      route.MatchesExactly request := by
  simp [Route.MatchesExactly, and_assoc]

/-- The first exact route. -/
theorem exact_eq_some {router : Router World} {request : HttpRequest}
    {route : Route World} (found : router.exact request = some route) :
    route.MatchesExactly request ∧ ∃ before after,
      router.routes = before ++ route :: after ∧
        ∀ other ∈ before, ¬ other.MatchesExactly request := by
  rcases List.find?_eq_some_iff_append.1 found with
    ⟨matched, before, after, split, first⟩
  refine ⟨exact_test_iff.1 matched, before, after, split, ?_⟩
  intro other member matched'
  have passed := first other member
  rw [exact_test_iff.2 matched'] at passed
  cases passed

theorem exact_eq_none_iff {router : Router World} {request : HttpRequest} :
    router.exact request = none ↔
      ∀ route ∈ router.routes, ¬ route.MatchesExactly request := by
  rw [exact, List.find?_eq_none]
  simp only [exact_test_iff]

/-- The running maximum over the prefix routes that match. -/
theorem longest_eq_argmax (router : Router World) (request : HttpRequest) :
    router.longest request =
      (router.routes.filter fun route =>
        route.MatchesPrefix request).argmax fun route => route.path.length := by
  rw [longest, List.argmax, List.foldl_filter]
  congr 1
  funext best route
  cases best with
  | none => exact if_congr decide_eq_true_iff.symm rfl rfl
  | some other => exact if_congr decide_eq_true_iff.symm rfl rfl

theorem longest_eq_none_iff {router : Router World} {request : HttpRequest} :
    router.longest request = none ↔
      ∀ route ∈ router.routes, ¬ route.MatchesPrefix request := by
  rw [longest_eq_argmax, List.argmax_eq_none, List.filter_eq_nil_iff]
  simp only [decide_eq_true_eq]

/-- The first of the longest prefix routes. -/
theorem longest_eq_some {router : Router World} {request : HttpRequest}
    {route : Route World} (found : router.longest request = some route) :
    ∃ before after, router.routes = before ++ route :: after ∧
      route.MatchesPrefix request ∧
      (∀ other ∈ before, other.MatchesPrefix request →
        other.path.length < route.path.length) ∧
      ∀ other ∈ after, other.MatchesPrefix request →
        other.path.length ≤ route.path.length := by
  rw [longest_eq_argmax] at found
  rcases split_of_mem_argmax found with
    ⟨shorter, others, split, less, atMost⟩
  rcases List.filter_eq_append_iff.1 split with
    ⟨first, second, whole, rfl, tail⟩
  rcases List.filter_eq_cons_iff.1 tail with
    ⟨unmatched, after, rfl, without, matched, rfl⟩
  refine ⟨first ++ unmatched, after, ?_, of_decide_eq_true matched, ?_, ?_⟩
  · rw [whole, List.append_assoc]
  · intro other member matched'
    rcases List.mem_append.1 member with inFirst | inSecond
    · exact less other
        (List.mem_filter.2 ⟨inFirst, decide_eq_true matched'⟩)
    · exact absurd (decide_eq_true matched') (without other inSecond)
  · intro other member matched'
    exact atMost other (List.mem_filter.2 ⟨member, decide_eq_true matched'⟩)

/-- The route whose handler is run has priority. -/
theorem priority_selected (router : Router World) (request : HttpRequest) :
    Priority router.routes request (router.selected request) := by
  unfold selected
  cases first : router.exact request with
  | some route =>
      rcases exact_eq_some first with
        ⟨matched, before, after, split, earlier⟩
      exact .exact split matched earlier
  | none =>
      have noExact := exact_eq_none_iff.1 first
      cases second : router.longest request with
      | some route =>
          rcases longest_eq_some second with
            ⟨before, after, split, matched, earlier, later⟩
          exact .longest noExact split matched earlier later
      | none => exact .nothing noExact (longest_eq_none_iff.1 second)

end Router

/-- What does not depend on the order of the routes. -/
def Best {World : Type} (routes : List (Route World)) (request : HttpRequest) :
    Option (Route World) → Prop
  | some route =>
      route ∈ routes ∧
        (route.MatchesExactly request ∨
          (∀ other ∈ routes, ¬ other.MatchesExactly request) ∧
            route.MatchesPrefix request ∧
            ∀ other ∈ routes, other.MatchesPrefix request →
              other.path.length ≤ route.path.length)
  | none =>
      ∀ route ∈ routes,
        ¬ route.MatchesExactly request ∧ ¬ route.MatchesPrefix request

section

variable {World : Type} {routes permuted : List (Route World)}
  {request : HttpRequest} {choice other : Option (Route World)}

theorem Priority.best (chosen : Priority routes request choice) :
    Best routes request choice := by
  cases chosen with
  | exact split matched first =>
      rw [split]
      exact ⟨List.mem_append_right _ List.mem_cons_self, Or.inl matched⟩
  | longest noExact split matched earlier later =>
      refine ⟨?_, Or.inr ⟨noExact, matched, ?_⟩⟩
      · rw [split]
        exact List.mem_append_right _ List.mem_cons_self
      · intro other member matched'
        rw [split, List.mem_append, List.mem_cons] at member
        rcases member with among | rfl | among
        · exact (earlier other among matched').le
        · exact le_rfl
        · exact later other among matched'
  | nothing noExact noPrefix =>
      intro route member
      exact ⟨noExact route member, noPrefix route member⟩

theorem Best.of_perm (permutes : permuted.Perm routes)
    (best : Best permuted request choice) : Best routes request choice := by
  cases choice with
  | some route => simpa only [Best, permutes.mem_iff] using best
  | none => simpa only [Best, permutes.mem_iff] using best

theorem Best.matches {route : Route World}
    (best : Best routes request (some route)) :
    route.MatchesExactly request ∨ route.MatchesPrefix request :=
  best.2.imp_right fun longest => longest.2.1

/-- Routes of different kinds, methods or paths are told apart. -/
theorem Best.unique (distinct : (routes.map Route.key).Nodup)
    (best : Best routes request choice) (best' : Best routes request other) :
    choice = other := by
  cases choice with
  | none =>
      cases other with
      | none => rfl
      | some other =>
          rcases best other best'.1 with ⟨noExact, noPrefix⟩
          exact absurd best'.matches (not_or.2 ⟨noExact, noPrefix⟩)
  | some route =>
      cases other with
      | none =>
          rcases best' route best.1 with ⟨noExact, noPrefix⟩
          exact absurd best.matches (not_or.2 ⟨noExact, noPrefix⟩)
      | some other =>
          rcases best with
            ⟨member, isExact | ⟨noExact, begins, longest⟩⟩
          all_goals
            rcases best' with
              ⟨member', isExact' | ⟨noExact', begins', longest'⟩⟩
          · rw [List.inj_on_of_nodup_map distinct member member'
              (isExact.key_eq isExact')]
          · exact absurd isExact (noExact' route member)
          · exact absurd isExact' (noExact other member')
          · have sameLength := le_antisymm (longest' route member begins)
              (longest other member' begins')
            rw [List.inj_on_of_nodup_map distinct member member'
              (begins.key_eq begins' sameLength)]

end

namespace Router

variable {World : Type}

/--
The handler of the route that has priority is run, on the response as it was,
and if there is none the response stays as it is.  The order of routes that
differ in kind, method or path does not matter.
-/
theorem dispatch_by_priority (router : Router World) (request : HttpRequest) :
    Priority router.routes request (router.selected request) ∧
      (∀ world response,
        router.dispatch world request response =
          (router.selected request).elim (some (false, response)) fun route =>
            (route.handler world request response).map fun filled =>
              (true, filled)) ∧
      ((router.routes.map Route.key).Nodup →
        ∀ permuted : Router World, permuted.routes.Perm router.routes →
          permuted.selected request = router.selected request) := by
  refine ⟨priority_selected router request, ?_, ?_⟩
  · intro world response
    unfold dispatch selected
    cases router.exact request with
    | some route => rfl
    | none =>
        cases router.longest request with
        | some route => rfl
        | none => rfl
  · intro distinct permuted permutes
    have best := (priority_selected permuted request).best.of_perm permutes
    exact best.unique distinct (priority_selected router request).best

/-! ## Registering routes -/

/-- A call of `add_route` or of `add_prefix_route`. -/
inductive Registration (World : Type) where
  | addRoute (method : Method) (path : Bytes) (handler : Handler World)
  | addPrefixRoute (method : Method) (path : Bytes)
      (handler : Handler World)

namespace Registration

def apply (router : Router World) : Registration World → Router World
  | .addRoute method path handler => router.addRoute method path handler
  | .addPrefixRoute method path handler =>
      router.addPrefixRoute method path handler

/-- The route that is registered. -/
def route : Registration World → Route World
  | .addRoute method path handler => { method, path, handler }
  | .addPrefixRoute method path handler =>
      { method, path, handler, isPrefix := true }

end Registration

/-- The routes stand in the order of the calls. -/
theorem routes_registered (router : Router World)
    (calls : List (Registration World)) :
    (calls.foldl Registration.apply router).routes =
      router.routes ++ calls.map Registration.route := by
  induction calls generalizing router with
  | nil => exact (List.append_nil _).symm
  | cons call calls ih =>
      have one : (call.apply router).routes =
          router.routes ++ [call.route] := by
        cases call <;> rfl
      rw [List.foldl_cons, ih, one, List.append_assoc, List.map_cons,
        List.singleton_append]

/-- What is registered earlier comes first where two routes are as good. -/
theorem priority_registered (calls : List (Registration World))
    (request : HttpRequest) :
    Priority (calls.map Registration.route) request
      ((calls.foldl Registration.apply {}).selected request) := by
  have kept := routes_registered {} calls
  rw [List.nil_append] at kept
  exact kept ▸ priority_selected _ request

/-- Two prefix routes and an exact one, none of which does anything. -/
def threeRoutes : List (Route Unit) :=
  [ { method := .GET, path := text "/", isPrefix := true,
      handler := fun _ _ response => some response },
    { method := .GET, path := text "/api",
      handler := fun _ _ response => some response },
    { method := .GET, path := text "/api", isPrefix := true,
      handler := fun _ _ response => some response } ]

/-- The exact route is selected, whichever comes first. -/
theorem dispatch_by_priority_rotated :
    selected { routes := threeRoutes.rotate 1 }
        { method := .GET, path := text "/api" } =
      selected { routes := threeRoutes }
        { method := .GET, path := text "/api" } ∧
      (selected { routes := threeRoutes }
        { method := .GET, path := text "/api" }).map Route.key =
          some (false, .GET, text "/api") :=
  ⟨(dispatch_by_priority { routes := threeRoutes } _).2.2 (by decide)
    { routes := threeRoutes.rotate 1 } (List.rotate_perm threeRoutes 1),
    by decide⟩

end Router

end Cppws.Http
