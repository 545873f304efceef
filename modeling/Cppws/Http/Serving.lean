import Cppws.Foundation.Delimiter
import Cppws.Http.StaticHandler

/-!
# The files that are served

Whatever links there are elsewhere, a regular file that its own names lead to
from the root directory is served under the URL of these names, and the
`index.html` of a directory under the URL of the directory, with or without a
slash at the end.
-/

namespace Posix

namespace Path

/-- The bytes of some names, with one separator between two of them. -/
def joined (names : List Name) : List UInt8 :=
  [slash].intercalate names

/-- Names that stand between separators. -/
def Whole (names : List Name) : Prop :=
  ∀ name ∈ names, name ≠ [] ∧ slash ∉ name

/-- What is joined does not begin with a separator. -/
theorem joined_relative {name : Name} (rest : List Name)
    (nonempty : name ≠ [])
    (free : slash ∉ name) : (joined (name :: rest)).head? ≠ some slash := by
  cases name with
  | nil => exact absurd rfl nonempty
  | cons first others =>
      rcases Delimiter.prefix_intercalate [slash] (first :: others) rest with
        ⟨later, begins⟩
      rw [joined, ← begins]
      intro same
      cases same
      exact free List.mem_cons_self

/-- The separator behind the last name. -/
theorem joined_slashed {names : List Name} (nonempty : names ≠ []) :
    (joined (names ++ [[]])).getLast? = some slash := by
  rw [joined, Delimiter.intercalate_concat,
    Delimiter.flatMap_append_delimiter _ nonempty]
  simp

/-- What is joined does not end with a separator either. -/
theorem joined_closed {names : List Name} {last : Name} (nonempty : last ≠ [])
    (free : slash ∉ last) :
    (joined (names ++ [last])).getLast? ≠ some slash := by
  rw [joined, Delimiter.intercalate_concat, List.getLast?_append]
  cases ends : last.getLast? with
  | none => exact absurd (List.getLast?_eq_none_iff.1 ends) nonempty
  | some byte =>
      intro same
      cases same
      exact free (List.mem_of_getLast? ends)

theorem Whole.filter_eq {names : List Name} (whole : Whole names) :
    names.filter (fun name => name ≠ []) = names :=
  List.filter_eq_self.2 fun name member =>
    decide_eq_true (whole name member).1

/-- Names are read back. -/
theorem ofBytes_joined {names : List Name} (nonempty : names ≠ [])
    (whole : Whole names) : ofBytes (joined names) = { names := names } := by
  have split : (joined names).splitOn slash = names :=
    List.splitOn_intercalate slash (fun name member => (whole name member).2)
      nonempty
  have relative : (joined names).head? ≠ some slash := by
    cases names with
    | nil => exact absurd rfl nonempty
    | cons name rest =>
        have first := whole name List.mem_cons_self
        exact joined_relative rest first.1 first.2
  have closed : (joined names).getLast? ≠ some slash := by
    rcases List.eq_nil_or_concat names with empty | ⟨front, last, rfl⟩
    · exact absurd empty nonempty
    · have final := whole last (by simp)
      rw [List.concat_eq_append]
      exact joined_closed final.1 final.2
  rw [ofBytes, split, whole.filter_eq]
  simp [relative, closed]

/-- Names are read back, and the separator behind them. -/
theorem ofBytes_slashed {names : List Name} (nonempty : names ≠ [])
    (whole : Whole names) :
    ofBytes (joined (names ++ [[]])) =
      { names := names, trailing := true } := by
  have split : (joined (names ++ [[]])).splitOn slash = names ++ [[]] := by
    refine List.splitOn_intercalate slash ?_ (by simp)
    intro name member
    rcases List.mem_append.1 member with among | last
    · exact (whole name among).2
    · simp [List.mem_singleton.1 last]
  have relative : (joined (names ++ [[]])).head? ≠ some slash := by
    cases names with
    | nil => exact absurd rfl nonempty
    | cons name rest =>
        have first := whole name List.mem_cons_self
        exact joined_relative (rest ++ [[]]) first.1 first.2
  have kept : (names ++ [[]]).filter (fun name => name ≠ []) = names := by
    rw [List.filter_append, whole.filter_eq]
    simp
  rw [ofBytes, split, kept]
  simp [relative, joined_slashed nonempty, nonempty]

end Path

/-- The extension of a file does not depend on the directory it is in. -/
theorem Path.extension_ofPlace (place : Place) {file : Place}
    (nonempty : file ≠ []) :
    (Path.ofPlace (place ++ file)).extension =
      (Path.ofPlace file).extension := by
  have filename : (Path.ofPlace (place ++ file)).filename =
      (Path.ofPlace file).filename := by
    simp [Path.filename, Path.ofPlace, List.getLast?_append,
      List.getLast?_eq_some_getLast nonempty]
  rw [Path.extension, filename, Path.extension]

/-- The last name of a canonical place leads to it. -/
theorem Canonical.last {root : Node} {place : Place} {name : Name}
    (canonical : Canonical root (place ++ [name])) :
    Canonical root place ∧
      root.enter place name = .ok (.reached (place ++ [name])) := by
  generalize whole : place ++ [name] = all at canonical
  cases canonical with
  | root => simp at whole
  | child parent entry =>
      rcases List.append_inj' whole rfl with ⟨rfl, same⟩
      cases same
      exact ⟨parent, entry⟩

/-- There is something at a canonical place. -/
theorem Canonical.find {root : Node} {place : Place}
    (canonical : Canonical root place) : root.find place ≠ none := by
  cases canonical with
  | root => exact Option.some_ne_none root
  | @child place name parent entry =>
      have shorter : place ++ [name] ≠ place.dropLast := fun same => by
        have lengths := congrArg List.length same
        simp at lengths
        omega
      unfold Node.enter at entry
      split at entry
      · split_ifs at entry
        · simp at entry
        · simp at entry
        · exact absurd (by simpa using entry) shorter.symm
        · split at entry
          · cases entry
          next there =>
            rw [there]
            exact Option.some_ne_none _
          · cases entry
      · cases entry
      · cases entry

/-- What is found exists. -/
theorem FileSystem.pathExists_of_stat {system : FileSystem} {path : Path}
    (absolute : path.absolute = true) {place : Place}
    (found : system.stat path = .ok place) :
    system.pathExists path = some true := by
  have there := (stat_canonical absolute found).find
  have known : system.typeAt place ≠ .notFound := by
    unfold typeAt
    split
    · exact nofun
    · exact nofun
    · exact nofun
    next missing => exact absurd missing there
  simp [pathExists, status, found, known]

/-- A canonical place is found with a separator behind it as well. -/
theorem FileSystem.stat_canonical_path {system : FileSystem} {place : Place}
    (canonical : Canonical system.root place) {slashed : Bool}
    (directory : slashed = true →
      system.root.enter place [] = .ok (.reached place)) :
    system.stat { absolute := true, names := place, trailing := slashed } =
      .ok place := by
  cases slashed with
  | false => exact stat_ofPlace canonical
  | true =>
      have clean : ∀ name ∈ place, nul ∉ name := fun name member =>
        (canonical.proper name member).no_nul
      have steps : cut (place ++ [[]]) = place ++ [[]] := by
        rw [cut_append_clean clean]
        rfl
      have walked : system.root.walk symloopMax place [[]] = .ok place :=
        (Node.walk_reached (directory rfl)).trans (by unfold Node.walk; rfl)
      rw [stat_absolute rfl]
      exact steps ▸ (canonical.walk_append symloopMax [[]]).trans walked

end Posix

namespace Cppws.Http

open Posix

/-- The URL of the names behind the root directory. -/
def url (names : List Name) (slashed : Bool) : Bytes :=
  text "/" ++ Path.joined (if slashed then names ++ [[]] else names)

/-- What the URL of some names leads to, as names behind the root directory. -/
inductive Leads : List Name → Bool → List Name → Prop where
  | file (names : List Name) (nonempty : names ≠ []) : Leads names false names
  | index (names : List Name) (slashed : Bool) :
      Leads names slashed (names ++ [text "index.html"])

theorem Leads.nonempty {names file : List Name} {slashed : Bool}
    (leads : Leads names slashed file) : file ≠ [] := by
  cases leads with
  | file nonempty => exact nonempty
  | index names => simp

namespace StaticFileHandler

variable {handler : StaticFileHandler}

/-- The constructor where there is a root directory. -/
theorem create_found {system : FileSystem} {rootDir real : Path}
    (found : system.canonical rootDir = .ok real) (stripPrefix : Bytes) :
    ∃ handler, create system rootDir stripPrefix = some handler ∧
      handler.root = real.names ∧ handler.stripPrefix = stripPrefix := by
  unfold create
  split
  next other same =>
    cases found.symm.trans same
    exact ⟨_, rfl, rfl, rfl⟩
  next errno missing => cases found.symm.trans missing

/-- The part of a URL behind the slash it begins with. -/
theorem ofBytes_url {names : List Name}
    (proper : ∀ name ∈ names, Proper name) (slashed : Bool) :
    Path.ofBytes (Path.joined (if slashed then names ++ [[]] else names)) =
      { names := names, trailing := slashed && names ≠ [] } := by
  have whole : Path.Whole names := fun name member =>
    ⟨(proper name member).nonempty, (proper name member).no_slash⟩
  by_cases empty : names = []
  · subst empty
    cases slashed <;> decide
  · cases slashed with
    | false => simpa using Path.ofBytes_joined empty whole
    | true => simpa [empty] using Path.ofBytes_slashed empty whole

/-- The names of a URL behind those of the root directory. -/
theorem rootDir_append (handler : StaticFileHandler) (names : List Name)
    (slashed : Bool) :
    ∃ trailing : Bool,
      (trailing = true → slashed = true ∨ names = []) ∧
      (trailing = true → handler.root ++ names ≠ []) ∧
      handler.rootDir.append
          { names := names, trailing := slashed && names ≠ [] } =
        { absolute := true
          names := handler.root ++ names
          trailing := trailing } := by
  by_cases empty : names = []
  · refine ⟨!handler.root.isEmpty, fun _ => Or.inr empty, ?_, ?_⟩
    · simp [empty]
    · rw [rootDir, empty]
      cases handler.root with
      | nil => rfl
      | cons first rest => simp [Path.append, Path.ofPlace]
  · refine ⟨slashed, Or.inl, ?_, ?_⟩
    · simp [empty]
    · simp [Path.append, rootDir, Path.ofPlace, empty]

/-- The candidate of a URL lies in the root directory under its names. -/
theorem candidate_url (strips : handler.stripPrefix = text "/")
    {names : List Name} (proper : ∀ name ∈ names, Proper name)
    (slashed : Bool) :
    ∃ trailing : Bool, (trailing = true → slashed = true ∨ names = []) ∧
      handler.candidate (url names slashed) =
        { absolute := true
          names := handler.root ++ names
          trailing := trailing } := by
  rcases rootDir_append handler names slashed with
    ⟨trailing, closed, nonempty, joined⟩
  refine ⟨trailing, closed, ?_⟩
  have normal : ({ absolute := true
                   names := handler.root ++ names
                   trailing := trailing } : Path).Normal := by
    refine ⟨rfl, ?_, nonempty⟩
    intro name member
    have named : Proper name := by
      rcases List.mem_append.1 member with old | new
      · exact handler.proper name old
      · exact proper name new
    exact ⟨named.nonempty, named.not_dot, named.not_dotdot⟩
  rw [candidate, strips, url, if_pos (List.prefix_append _ _),
    List.drop_left, ofBytes_url proper slashed, joined]
  exact normal.lexicallyNormal_eq

/-- A URL finds the place of its names. -/
theorem resolve_url {system : FileSystem}
    (strips : handler.stripPrefix = text "/") {names : List Name}
    {slashed : Bool} (canonical : Canonical system.root (handler.root ++ names))
    (directory : slashed = true ∨ names = [] →
      system.root.enter (handler.root ++ names) [] =
        .ok (.reached (handler.root ++ names))) :
    handler.resolve system (url names slashed) =
      .ofPlace (handler.root ++ names) := by
  have proper : ∀ name ∈ names, Proper name := fun name member =>
    canonical.proper name (List.mem_append_right _ member)
  rcases candidate_url strips proper slashed with
    ⟨trailing, closed, candidate_eq⟩
  have found := FileSystem.stat_canonical_path canonical fun open_end =>
    directory (closed open_end)
  exact resolve_found (candidate_eq ▸ found) (List.prefix_append _ _)

/-- The target that is served. -/
theorem choose_leads {system : FileSystem}
    (strips : handler.stripPrefix = text "/") {names file : List Name}
    {slashed : Bool} (leads : Leads names slashed file)
    (canonical : Canonical system.root (handler.root ++ file))
    (regular : system.typeAt (handler.root ++ file) = .regular)
    {request : HttpRequest} (asks : request.path = url names slashed) :
    handler.choose system request =
      some (.serves (.ofPlace (handler.root ++ file))) := by
  rw [choose_serves, asks]
  refine ⟨_, rfl, ?_⟩
  have there : system.status (.ofPlace (handler.root ++ file)) =
      some .regular :=
    (FileSystem.status_eq_some (by decide)).2
      ⟨_, FileSystem.stat_ofPlace canonical, regular⟩
  cases leads with
  | file nonempty =>
      rw [resolve_url strips canonical (by simp [nonempty])]
      exact ⟨rfl, Or.inl ⟨rfl, there⟩⟩
  | index names =>
      rw [← List.append_assoc] at canonical there ⊢
      rcases canonical.last with ⟨parent, entry⟩
      have directory := Node.enter_directory entry
      have target : (Path.ofPlace (handler.root ++ names)).append
            (.single (text "index.html")) =
          .ofPlace (handler.root ++ names ++ [text "index.html"]) := by
        rfl
      rw [resolve_url strips parent fun _ => directory, target]
      refine ⟨rfl, Or.inr ⟨?_, rfl, there⟩⟩
      exact (FileSystem.status_eq_some (by decide)).2
        ⟨_, FileSystem.stat_ofPlace parent,
          FileSystem.typeAt_directory directory⟩

/-- A file that its own names lead to is served under its URLs. -/
theorem handle_leads {host : Host} (strips : handler.stripPrefix = text "/")
    {names file : List Name} {slashed : Bool}
    (leads : Leads names slashed file)
    (canonical : Canonical host.system.root (handler.root ++ file))
    (regular : host.system.typeAt (handler.root ++ file) = .regular)
    (opens : host.refuses (handler.root ++ file) = false) {fileSize : UInt64}
    (sized : host.fstat (handler.root ++ file) = some fileSize)
    {request : HttpRequest} (asks : request.path = url names slashed)
    (response : HttpResponse) :
    handler.handle host request response =
      some ((response.setStatus .Ok).setSendfile host.fileFd fileSize
        (mimeType (Path.ofPlace file).extension)) := by
  have opened := opened_eq_some.2 ⟨FileSystem.stat_ofPlace canonical, opens⟩
  rw [handle, choose_leads strips leads canonical regular asks]
  simp only [serveFile, opened, sized, Path.extension_ofPlace _ leads.nonempty]

end StaticFileHandler

end Cppws.Http
