import Cppws.Foundation.FileStatus
import Cppws.Http.Mime
import Cppws.Http.Router

/-!
# The static file handler

`StaticFileHandler` of `http/static_handler.hpp`.  The path that a URL is
resolved to is canonical and is checked to lie in the root directory.  For a
directory the handler then opens its `index.html`, a path that was not checked:
the file served lies outside the root exactly where that is a link out of it.
-/

namespace Cppws.Http

open Posix

structure StaticFileHandler where
  /-- The names of `root_dir_`, a canonical path. -/
  root : Place
  stripPrefix : Bytes := text "/"
  proper : ∀ name ∈ root, Proper name

/-- What a request meets outside of the program. -/
structure Host where
  system : FileSystem
  /-- The files that `open` fails on although they are there.  A path that is
  longer than the system allows is refused here too, while `resolve` does not
  notice it: only the status of the error differs. -/
  refuses : Place → Bool
  /-- The `st_size` of an open file, unless `fstat` fails. -/
  fstat : Place → Option UInt64
  /-- The descriptor that `open` returns. -/
  fileFd : Nat

/-- The file that `open` reaches. -/
def Host.opened (host : Host) (path : Path) : Option Place :=
  match host.system.stat path with
  | .ok place => if host.refuses place then none else some place
  | .error _ => none

/-- What `operator()` comes to, unless it throws. -/
inductive Choice where
  | responds (response : HttpResponse)
  /-- `serve_file` is called. -/
  | serves (target : Path)

/-- The last test before a file is served. -/
def chooseFile (system : FileSystem) (target : Path) : Option Choice :=
  match system.isRegularFile target with
  | some true => some (.serves target)
  | some false =>
      some (.responds (.makeError .Forbidden (text "not a regular file")))
  | none => none

/-- `serve_file`, with the response after it. -/
def serveFile (host : Host) (absPath : Path) (response : HttpResponse) :
    HttpResponse :=
  match host.opened absPath with
  | some place =>
      match host.fstat place with
      | some fileSize =>
          (response.setStatus .Ok).setSendfile host.fileFd fileSize
            (mimeType absPath.extension)
      | none => .makeError .InternalServerError []
  | none => .makeError .InternalServerError []

namespace StaticFileHandler

/-- The constructor, which throws where there is no root directory. -/
def create (system : FileSystem) (rootDir : Path) (stripPrefix : Bytes) :
    Option StaticFileHandler :=
  match found : system.canonical rootDir with
  | .ok real =>
      some
        { root := real.names
          stripPrefix := stripPrefix
          proper := FileSystem.canonical_proper found }
  | .error _ => none

variable (handler : StaticFileHandler)

def rootDir : Path :=
  .ofPlace handler.root

/-- The path of a URL before any link in it is followed. -/
def candidate (urlPath : Bytes) : Path :=
  let rel :=
    if handler.stripPrefix <+: urlPath then
      urlPath.drop handler.stripPrefix.length
    else
      urlPath
  (handler.rootDir.append (.ofBytes rel)).lexicallyNormal

/-- The path a URL is resolved to, empty where it is refused. -/
def resolve (system : FileSystem) (urlPath : Bytes) : Path :=
  match system.weaklyCanonical (handler.candidate urlPath) with
  | .ok real =>
      if handler.rootDir.elements <+: real.elements then real else {}
  | .error _ => {}

/-- `operator()` up to the call of `serve_file`. -/
def choose (system : FileSystem) (request : HttpRequest) : Option Choice :=
  let absPath := handler.resolve system request.path
  if absPath.isEmpty then
    some (.responds (.makeError .Forbidden (text "access denied")))
  else
    match system.pathExists absPath with
    | none => none
    | some false => some (.responds (.makeError .NotFound []))
    | some true =>
        match system.isDirectory absPath with
        | none => none
        | some false => chooseFile system absPath
        | some true =>
            let target := absPath.append (.single (text "index.html"))
            match system.pathExists target with
            | none => none
            | some false =>
                some (.responds (.makeError .NotFound (text "no index.html")))
            | some true => chooseFile system target

/-- `operator()`. -/
def handle : Handler Host := fun host request response =>
  match handler.choose host.system request with
  | some (.responds error) => some error
  | some (.serves target) => some (serveFile host target response)
  | none => none

/-- The URL names a directory in the root, and the `index.html` of it is a link
to a file outside that can be opened. -/
inductive IndexOutside (host : Host) (urlPath : Bytes) : Prop where
  | leads {directory file : Place} {link : Path}
      (found : host.system.stat (handler.candidate urlPath) = .ok directory)
      (inside : handler.root <+: directory)
      (entry : host.system.root.enter directory (text "index.html") =
        .ok (.linked link))
      (target : host.system.root.walk (symloopMax - 1) (link.start directory)
        link.steps = .ok file)
      (regular : host.system.typeAt file = .regular)
      (opens : host.refuses file = false)
      (outside : ¬handler.root <+: file)

variable {handler} {system : FileSystem}

theorem candidate_normal (handler : StaticFileHandler) (urlPath : Bytes) :
    (handler.candidate urlPath).Normal := by
  apply Path.lexicallyNormal_normal
  · simp [rootDir, Path.ofPlace]
  · intro name member
    rcases Path.mem_append member with root | rel
    · exact (handler.proper name root).nonempty
    · exact Path.ofBytes_nonempty _ name rel

/-- The test of the components is one of the places. -/
theorem elements_prefix {place : Place} :
    handler.rootDir.elements <+: (Path.ofPlace place).elements ↔
      handler.root <+: place := by
  simp [rootDir, Path.elements, Path.ofPlace, Path.steps,
    List.cons_prefix_cons]

/-- A URL that leads into the root is resolved to the place it leads to. -/
theorem resolve_found {urlPath : Bytes} {place : Place}
    (found : system.stat (handler.candidate urlPath) = .ok place)
    (inside : handler.root <+: place) :
    handler.resolve system urlPath = .ofPlace place := by
  have absolute := (candidate_normal handler urlPath).absolute
  have weakly : system.weaklyCanonical (handler.candidate urlPath) =
      .ok (.ofPlace place) := by
    simp only [FileSystem.weaklyCanonical, found,
      FileSystem.canonical_absolute absolute]
  simp only [resolve, weakly, elements_prefix.2 inside, if_true]

/-- A path that is resolved and exists is canonical and in the root. -/
theorem resolve_cases {urlPath : Bytes} {place : Place}
    (accepted : (handler.resolve system urlPath).isEmpty = false)
    (present : system.stat (handler.resolve system urlPath) = .ok place) :
    system.stat (handler.candidate urlPath) = .ok place ∧
      handler.root <+: place ∧
      handler.resolve system urlPath = .ofPlace place := by
  have normal := candidate_normal handler urlPath
  unfold resolve at accepted present ⊢
  split at accepted
  next real resolved =>
    simp only [resolved] at present ⊢
    split at accepted
    next checked =>
      simp only [checked, if_true] at present ⊢
      rcases FileSystem.weaklyCanonical_cases normal resolved with
        ⟨found, found_eq, rfl⟩ | ⟨_, absent⟩
      · have canonical := FileSystem.stat_canonical normal.absolute found_eq
        cases present.symm.trans (FileSystem.stat_ofPlace canonical)
        exact ⟨found_eq, elements_prefix.1 checked, rfl⟩
      · exact absurd present (absent place)
    next => simp [Path.isEmpty] at accepted
  next => simp [Path.isEmpty] at accepted

theorem chooseFile_serves {target served : Path} :
    chooseFile system target = some (.serves served) ↔
      served = target ∧ system.status target = some .regular := by
  unfold chooseFile FileSystem.isRegularFile
  cases system.status target with
  | none => simp
  | some type =>
      by_cases regular : type = .regular
      · simp [regular, eq_comm]
      · simp [regular]

/-- That a path exists need not be tested before whether it is a file. -/
theorem chooseExisting_serves {target served : Path} (error : HttpResponse) :
    (match system.pathExists target with
      | none => none
      | some false => some (.responds error)
      | some true => chooseFile system target) = some (.serves served) ↔
      served = target ∧ system.status target = some .regular := by
  rw [← chooseFile_serves]
  unfold chooseFile FileSystem.pathExists FileSystem.isRegularFile
  cases system.status target with
  | none => rfl
  | some type => cases type <;> simp

/-- The two ways in which a file comes to be served. -/
theorem choose_serves {request : HttpRequest} {target : Path} :
    handler.choose system request = some (.serves target) ↔
      ∃ absPath, absPath = handler.resolve system request.path ∧
        absPath.isEmpty = false ∧
        (target = absPath ∧ system.status absPath = some .regular ∨
          system.status absPath = some .directory ∧
            target = absPath.append (.single (text "index.html")) ∧
            system.status (absPath.append (.single (text "index.html"))) =
              some .regular) := by
  rw [exists_eq_left]
  unfold choose
  generalize handler.resolve system request.path = absPath
  by_cases empty : absPath.isEmpty = true
  · simp [empty]
  · simp only [empty, Bool.false_eq_true, if_false, true_and]
    unfold FileSystem.isDirectory
    cases status_eq : system.status absPath with
    | none => simp [FileSystem.pathExists, status_eq]
    | some type =>
        cases type with
        | notFound => simp [FileSystem.pathExists, status_eq]
        | regular | unknown =>
            simp [FileSystem.pathExists, chooseFile_serves, status_eq]
        | directory =>
            rw [FileSystem.pathExists, status_eq]
            simpa using chooseExisting_serves _

theorem opened_eq_some {host : Host} {path : Path} {place : Place} :
    host.opened path = some place ↔
      host.system.stat path = .ok place ∧ host.refuses place = false := by
  unfold Host.opened
  split
  next found stat_eq =>
    cases refused : host.refuses found with
    | true =>
        simp only [if_true, reduceCtorEq, false_iff, not_and]
        intro found_eq
        cases stat_eq.symm.trans found_eq
        simp [refused]
    | false =>
        simp only [Bool.false_eq_true, if_false, Option.some.injEq]
        constructor
        · rintro rfl
          exact ⟨stat_eq, refused⟩
        · rintro ⟨found_eq, _⟩
          cases stat_eq.symm.trans found_eq
          rfl
  next errno stat_eq => simp [stat_eq]

/-- Every file that is served lies in the root, unless it is the index of a
directory and a link out of the root. -/
theorem served_inside_iff (handler : StaticFileHandler) (host : Host)
    (request : HttpRequest) :
    (∀ target file,
      handler.choose host.system request = some (.serves target) →
      host.opened target = some file →
      handler.root <+: file) ↔
      ¬handler.IndexOutside host request.path := by
  constructor
  · rintro all_inside
      ⟨found, inside, entry, target, regular, opens, outside⟩
    apply outside
    have absolute := (candidate_normal handler request.path).absolute
    have canonical := FileSystem.stat_canonical absolute found
    have resolved := resolve_found found inside
    have present := FileSystem.stat_ofPlace canonical
    have is_directory := FileSystem.typeAt_directory entry
    have index := (FileSystem.stat_linked canonical (by decide) entry).trans
      target
    refine all_inside _ _ (choose_serves.2 ⟨_, resolved.symm, ?_⟩)
      (opened_eq_some.2 ⟨index, opens⟩)
    refine ⟨by simp [Path.isEmpty, Path.ofPlace], Or.inr ⟨?_, rfl, ?_⟩⟩
    · exact (FileSystem.status_eq_some (by decide)).2
        ⟨_, present, is_directory⟩
    · exact (FileSystem.status_eq_some (by decide)).2 ⟨_, index, regular⟩
  · intro excluded target file serves opened
    obtain ⟨_, rfl, accepted,
        (⟨rfl, regular⟩ | ⟨is_directory, rfl, regular⟩)⟩ :=
      choose_serves.1 serves
    · -- The path that is opened is the one that was checked.
      obtain ⟨present, _⟩ := opened_eq_some.1 opened
      exact (resolve_cases accepted present).2.1
    · obtain ⟨directory, present, _⟩ :=
        (FileSystem.status_eq_some (by decide)).1 is_directory
      obtain ⟨found, inside, resolved⟩ := resolve_cases accepted present
      obtain ⟨index, opens⟩ := opened_eq_some.1 opened
      obtain ⟨place, index', file_type⟩ :=
        (FileSystem.status_eq_some (by decide)).1 regular
      cases index.symm.trans index'
      rw [resolved] at index
      have absolute := (candidate_normal handler request.path).absolute
      have canonical := FileSystem.stat_canonical absolute found
      by_contra outside
      obtain ⟨link, entry⟩ :=
        FileSystem.stat_away canonical (by decide) index fun here =>
          outside (here ▸ inside.trans (List.prefix_append _ _))
      have target := (FileSystem.stat_linked canonical (by decide) entry).symm
      exact excluded ⟨found, inside, entry, target.trans index, file_type,
        opens, outside⟩

/-- A tree whose root directory `/srv` has the link `index.html` to the file
`/secret`. -/
def linkedIndex : Host where
  system :=
    { root := .directory true
        [(text "srv", .directory true
          [(text "index.html", .link (.ofBytes (text "/secret")))]),
        (text "secret", .regular)] }
  refuses := fun _ => false
  fstat := fun _ => some 1
  fileFd := 3

/-- The handler for `/srv`. -/
def serving : StaticFileHandler where
  root := [text "srv"]
  proper := by decide

theorem served_inside_linkedIndex :
    ∃ target file,
      serving.choose linkedIndex.system { path := text "/" } =
        some (.serves target) ∧
      linkedIndex.opened target = some file ∧
      ¬serving.root <+: file := by
  refine ⟨.ofBytes (text "/srv/index.html"), [text "secret"], ?_, ?_, ?_⟩
  · rfl
  · decide
  · decide

end StaticFileHandler

end Cppws.Http
