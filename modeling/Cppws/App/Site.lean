import Cppws.App.Answering
import Cppws.Http.Serving

/-!
# The pages of the server

The responses of the router that `main.cpp` builds are of two shapes, whatever
is requested and whatever the file system is like: a text, or a file with its
size.  The files below `public` that no link leads to are all served.
-/

namespace Cppws.App

open Cppws.Http
open Posix

/-- The types `mime_type` returns. -/
def KnownType (type : Bytes) : Prop :=
  type ∈ mimeTable.map Prod.snd ∨ type = text "application/octet-stream"

/-- The shapes of the responses that are posted. -/
inductive Page (host : Host) : HttpResponse → Prop where
  | text (status : Status) (body : Bytes) (nonempty : body ≠ []) :
      Page host (({ status } : HttpResponse).setBody body (text "text/plain"))
  | file (fileFd : Nat) (fileSize : UInt64) (type : Bytes)
      (known : KnownType type)
      (sized : ∃ place, host.fstat place = some fileSize) :
      Page host ((({} : HttpResponse).setStatus .Ok).setSendfile fileFd fileSize
        type)

theorem mimeType_known (extension : Bytes) :
    KnownType (mimeType extension) := by
  unfold mimeType
  dsimp only
  split
  · rename_i entry found
    split_ifs
    · exact Or.inl (List.mem_map_of_mem (List.mem_of_getElem? found))
    · exact Or.inr rfl
  · exact Or.inr rfl

theorem makeError_body_ne_nil (code : Status) (detail : Bytes) :
    (HttpResponse.makeError code detail).body ≠ [] := by
  simp [HttpResponse.makeError, HttpResponse.setBody, text]

section

variable {host : Host}

theorem makeError_page (code : Status) (detail : Bytes) :
    Page host (.makeError code detail) :=
  .text code _ (makeError_body_ne_nil code detail)

theorem serveFile_page (absPath : Path) :
    Page host (serveFile host absPath {}) := by
  unfold serveFile
  split
  case h_1 place _ =>
    split
    case h_1 fileSize sized =>
      exact .file _ _ _ (mimeType_known _) ⟨place, sized⟩
    case h_2 => exact makeError_page _ _
  case h_2 => exact makeError_page _ _

theorem chooseFile_page {system : FileSystem} {target : Path}
    {response : HttpResponse}
    (chosen : chooseFile system target = some (.responds response)) :
    Page host response := by
  unfold chooseFile at chosen
  split at chosen
  · cases chosen
  · cases chosen
    exact makeError_page _ _
  · cases chosen

theorem choose_page {handler : StaticFileHandler} {system : FileSystem}
    {request : HttpRequest} {response : HttpResponse}
    (chosen : handler.choose system request = some (.responds response)) :
    Page host response := by
  unfold StaticFileHandler.choose at chosen
  dsimp only at chosen
  split_ifs at chosen
  · cases chosen
    exact makeError_page _ _
  split at chosen
  · cases chosen
  · cases chosen
    exact makeError_page _ _
  split at chosen
  · cases chosen
  · exact chooseFile_page chosen
  split at chosen
  · cases chosen
  · cases chosen
    exact makeError_page _ _
  · exact chooseFile_page chosen

theorem handle_page {handler : StaticFileHandler}
    {request : HttpRequest} {response : HttpResponse}
    (handled : handler.handle host request {} = some response) :
    Page host response := by
  unfold StaticFileHandler.handle at handled
  split at handled
  case h_1 error chosen =>
    cases handled
    exact choose_page chosen
  case h_2 target chosen =>
    cases handled
    exact serveFile_page target
  case h_3 => cases handled

/-- The handlers of the router that is built. -/
theorem route_page {system : FileSystem} {router : Router Host}
    (built : Answering.buildRouter system = some router) {route : Route Host}
    (member : route ∈ router.routes) {request : HttpRequest}
    {response : HttpResponse}
    (handled : route.handler host request {} = some response) :
    Page host response := by
  unfold Answering.buildRouter at built
  dsimp only at built
  split at built
  case h_1 =>
    rcases Option.map_eq_some_iff.1 built with ⟨handler, created, rfl⟩
    rcases List.mem_append.1 member with first | last
    · cases List.mem_singleton.1 first
      cases handled
      exact .text .Ok _ (by decide)
    · cases List.mem_singleton.1 last
      exact handle_page handled
  case h_2 =>
    cases built
    rcases List.mem_append.1 member with first | last
    · cases List.mem_singleton.1 first
      cases handled
      exact .text .Ok _ (by decide)
    · cases List.mem_singleton.1 last
      cases handled
      exact .text .Ok _ (by decide)
  case h_3 => cases built

/-- Every answer of the server is a page. -/
theorem handled_page {system : FileSystem} {router : Router Host}
    (built : Answering.buildRouter system = some router)
    {request : HttpRequest} {response : HttpResponse}
    (answered : handled router host request = some response) :
    Page host response := by
  rcases Option.map_eq_some_iff.1 answered with
    ⟨⟨found, filled⟩, ran, rfl⟩
  unfold Router.dispatch at ran
  split at ran
  case h_1 route exact =>
    rcases Option.map_eq_some_iff.1 ran with ⟨response, handled, same⟩
    cases same
    rcases (Router.exact_eq_some exact).2 with ⟨before, after, split, _⟩
    exact route_page built (split ▸ by simp) handled
  case h_2 =>
    split at ran
    case h_1 route longest =>
      rcases Option.map_eq_some_iff.1 ran with ⟨response, handled, same⟩
      cases same
      rcases Router.longest_eq_some longest with ⟨before, after, split, _⟩
      exact route_page built (split ▸ by simp) handled
    case h_2 =>
      cases ran
      exact makeError_page _ _

end

/-! ## The files below `public` -/

/-- `public_dir`. -/
def publicDir (system : FileSystem) : Path :=
  (Path.ofPlace system.cwd).append (.single (text "public"))

/-- Whatever is below the only prefix route and has no route of its own. -/
theorem handled_prefix {World : Type} {path before : Bytes}
    {health handler : Handler World} {request : HttpRequest}
    (get : request.method = .GET) (other : path ≠ request.path)
    (below : before <+: request.path) (world : World) :
    handled ((({} : Router World).addRoute .GET path health).addPrefixRoute .GET
        before handler) world request =
      handler world request {} := by
  have exact : Router.exact ((({} : Router World).addRoute .GET path
      health).addPrefixRoute .GET before handler) request = none := by
    simp [Router.exact, Router.addRoute, Router.addPrefixRoute, other]
  have longest : Router.longest ((({} : Router World).addRoute .GET path
      health).addPrefixRoute .GET before handler) request =
      some { method := .GET, path := before, handler, isPrefix := true } := by
    simp [Router.longest, Router.better, Router.addRoute,
      Router.addPrefixRoute, get, below]
  simp [handled, Router.dispatch, exact, longest, Function.comp_def]

/-- The router of a server that finds `public`. -/
theorem buildRouter_public {system : FileSystem} {root : Place}
    (found : system.stat (publicDir system) = .ok root) :
    ∃ router, ∃ handler : StaticFileHandler,
      Answering.buildRouter system = some router ∧
      handler.root = root ∧ handler.stripPrefix = text "/" ∧
      ∀ request : HttpRequest, request.method = .GET →
        text "/health" ≠ request.path → text "/" <+: request.path →
          ∀ host, handled router host request =
            handler.handle host request {} := by
  have absolute : (publicDir system).absolute = true := by
    simp [publicDir, Path.ofPlace]
  have real : system.canonical (publicDir system) = .ok (.ofPlace root) := by
    rw [FileSystem.canonical_absolute absolute, found]
  have present := FileSystem.pathExists_of_stat absolute found
  rcases StaticFileHandler.create_found real (text "/") with
    ⟨handler, created, root_eq, strips⟩
  have built : ∃ health, Answering.buildRouter system =
      some ((({} : Router Host).addRoute .GET (text "/health")
        health).addPrefixRoute .GET (text "/") handler.handle) := by
    rw [publicDir] at present created
    unfold Answering.buildRouter
    simp only [present, created, Option.map_some]
    exact ⟨_, rfl⟩
  rcases built with ⟨health, built⟩
  exact ⟨_, handler, built, root_eq, strips,
    fun request get other below host =>
    handled_prefix get other below host⟩

/-- A file of this size that can be read at its own place. -/
structure ReadableAt (host : Host) (place : Place) (fileSize : UInt64) :
    Prop where
  canonical : Canonical host.system.root place
  regular : host.system.typeAt place = .regular
  opens : host.refuses place = false
  sized : host.fstat place = some fileSize

/--
A server that finds `public` answers a request for any file below it that no
link leads to, under the URL of its names and, if it is an `index.html`, under
the two URLs of its directory.  The files may have changed since the start; only
`/health` is never one of them.
-/
theorem file_served {system : FileSystem} {root : Place}
    (found : system.stat (publicDir system) = .ok root) :
    ∃ router, Answering.buildRouter system = some router ∧
      ∀ (host : Host) (names file : List Name) (slashed : Bool)
        (fileSize : UInt64) (request : HttpRequest),
        ReadableAt host (root ++ file) fileSize → Leads names slashed file →
        request.method = .GET → request.path = url names slashed →
        request.path ≠ text "/health" →
          handled router host request =
            some ((({} : HttpResponse).setStatus .Ok).setSendfile host.fileFd
              fileSize (mimeType (Path.ofPlace file).extension)) := by
  rcases buildRouter_public found with
    ⟨router, handler, built, rfl, strips, dispatched⟩
  refine ⟨router, built, ?_⟩
  intro host names file slashed fileSize request readable leads get asks other
  have below : text "/" <+: request.path := asks ▸ List.prefix_append _ _
  rw [dispatched request get other.symm below host]
  exact StaticFileHandler.handle_leads strips leads readable.canonical
    readable.regular readable.opens readable.sized asks {}

/-- The `index.html` of `public` under `/`. -/
theorem file_served_index :
    ∃ router,
      Answering.buildRouter (Answering.hosting .regular).system =
        some router ∧
      handled router (Answering.hosting .regular)
          { method := .GET, path := text "/" } =
        some ((({} : HttpResponse).setStatus .Ok).setSendfile 7 1
          (text "text/html; charset=utf-8")) := by
  have found : (Answering.hosting .regular).system.stat
      (publicDir (Answering.hosting .regular).system) =
        .ok [text "srv", text "public"] := by
    decide
  rcases file_served found with ⟨router, built, serves⟩
  refine ⟨router, built, ?_⟩
  have readable : ReadableAt (Answering.hosting .regular)
      [text "srv", text "public", text "index.html"] 1 :=
    ⟨.child (.child (.child .root rfl) rfl) rfl, by decide, rfl, rfl⟩
  exact serves _ [] _ false 1 _ readable (.index [] false) rfl rfl (by decide)

end Cppws.App
