import Cppws.Foundation.FileTree

/-!
# File queries

The functions of `std::filesystem` that ask the system about a path.  A path
goes to the system as a C string, so a zero byte in it ends it early.  The main
result is about `weaklyCanonical`: it finds where a path leads, and a path that
leads nowhere it makes into another one that leads nowhere.
-/

namespace Posix

/-- The names of a path that are left of it as a C string. -/
def cut : List Name → List Name
  | [] => []
  | name :: rest =>
      if nul ∈ name then
        [name.takeWhile fun byte => byte ≠ nul]
      else
        name :: cut rest

theorem cut_append_clean {names : List Name}
    (clean : ∀ name ∈ names, nul ∉ name) (others : List Name) :
    cut (names ++ others) = names ++ cut others := by
  induction names with
  | nil => rfl
  | cons name rest inductionHypothesis =>
      have head : nul ∉ name := clean name List.mem_cons_self
      have tail := inductionHypothesis fun other member =>
        clean other (List.mem_cons_of_mem _ member)
      simp only [List.cons_append, cut, head, if_false, tail]

theorem cut_append_ended {names : List Name} {name : Name}
    (member : name ∈ names) (ended : nul ∈ name) (others : List Name) :
    cut (names ++ others) = cut names := by
  induction names with
  | nil => cases member
  | cons first rest inductionHypothesis =>
      simp only [List.cons_append, cut]
      split
      · rfl
      next goes_on =>
        rcases List.mem_cons.1 member with rfl | later
        · exact absurd ended goes_on
        · rw [inductionHypothesis later]

theorem cut_clean {names : List Name}
    (clean : ∀ name ∈ names, nul ∉ name) :
    cut names = names := by
  simpa [cut] using cut_append_clean clean []

/-- The first name is cut the same, whatever follows it. -/
theorem cut_cons (name : Name) (rest : List Name) :
    ∃ first tail, cut (name :: rest) = first :: tail ∧
      cut [name] = [first] := by
  unfold cut
  split
  · exact ⟨_, [], rfl, rfl⟩
  · exact ⟨name, cut rest, rfl, rfl⟩

/-- The path that a canonical place has. -/
def Path.ofPlace (place : Place) : Path :=
  { absolute := true, names := place }

@[simp]
theorem Path.ofPlace_steps (place : Place) :
    (Path.ofPlace place).steps = place := by
  simp [Path.ofPlace, Path.steps]

/-- The names of a normal path stay normal behind a canonical one. -/
theorem Path.Normal.extended_ofPlace {root : Node} {place : Place} {path : Path}
    {names : List Name}
    (normal : path.Normal) (canonical : Canonical root place)
    (subset : names ⊆ path.steps) :
    ((Path.ofPlace place).extended names).Normal := by
  constructor
  · simp [Path.extended_absolute, Path.ofPlace]
  · intro name member
    rcases Path.mem_extended member with old | ⟨new, nonempty⟩
    · have proper := canonical.proper name old
      exact ⟨proper.nonempty, proper.not_dot, proper.not_dotdot⟩
    · apply normal.plain
      have stepped := subset new
      unfold Path.steps at stepped
      rcases List.mem_append.1 stepped with first | last
      · exact first
      · split at last
        · exact absurd (List.mem_singleton.1 last) nonempty
        · cases last
  · apply Path.extended_trailing
    intro never
    cases never

/-- `ENOENT` and `ENOTDIR` say that a file is not there. -/
def Errno.notFound : Errno → Bool
  | .ENOENT => true
  | .ENOTDIR => true
  | .EACCES => false
  | .ELOOP => false

inductive FileType where
  | notFound
  | regular
  | directory
  | unknown
deriving DecidableEq

/-- The number of links the system follows for one path. -/
def symloopMax : Nat :=
  40

structure FileSystem where
  root : Node
  /-- The working directory. -/
  cwd : Place := []

namespace FileSystem

variable (system : FileSystem)

/-- Where the system finds a path. -/
def stat (path : Path) : Except Errno Place :=
  let names := cut path.steps
  if path.absolute = false ∧ (names = [] ∨ names = [[]]) then
    .error .ENOENT
  else
    system.root.walk symloopMax (path.start system.cwd) names

def typeAt (place : Place) : FileType :=
  match system.root.find place with
  | some .regular => .regular
  | some (.directory _ _) => .directory
  | some _ => .unknown
  | none => .notFound

/-- `status(p)`, `none` where it throws. -/
def status (path : Path) : Option FileType :=
  match system.stat path with
  | .ok place => some (system.typeAt place)
  | .error errno => if errno.notFound then some .notFound else none

/-- `exists(p)`. -/
def pathExists (path : Path) : Option Bool :=
  (system.status path).map fun type => type ≠ .notFound

/-- `is_directory(p)`. -/
def isDirectory (path : Path) : Option Bool :=
  (system.status path).map fun type => type = .directory

/-- `is_regular_file(p)`. -/
def isRegularFile (path : Path) : Option Bool :=
  (system.status path).map fun type => type = .regular

/-- `canonical(p, ec)`. -/
def canonical (path : Path) : Except Errno Path :=
  if path.isEmpty then
    .error .ENOENT
  else
    match system.stat (if path.absolute then path
        else (Path.ofPlace system.cwd).append path) with
    | .ok place => .ok (.ofPlace place)
    | .error errno => .error errno

/-- The leading elements of a path that exist, and the others. -/
def existing (result : Path) : List Name → Except Errno (Path × List Name)
  | [] => .ok (result, [])
  | name :: rest =>
      match system.stat (result.append (.single name)) with
      | .ok _ => existing (result.append (.single name)) rest
      | .error errno =>
          if errno.notFound then .ok (result, name :: rest) else .error errno

/-- `weakly_canonical(p, ec)`. -/
def weaklyCanonical (path : Path) : Except Errno Path :=
  match system.stat path with
  | .ok _ => system.canonical path
  | .error errno =>
      if errno.notFound then
        match system.existing { absolute := path.absolute } path.steps with
        | .ok (result, rest) =>
            if result.isEmpty then
              .ok (result.extended rest).lexicallyNormal
            else
              match system.canonical result with
              | .ok found => .ok (found.extended rest).lexicallyNormal
              | .error errno => .error errno
        | .error errno => .error errno
      else
        .error errno

variable {system} {path : Path} {place : Place}

theorem stat_absolute (absolute : path.absolute = true) :
    system.stat path = system.root.walk symloopMax [] (cut path.steps) := by
  simp [stat, absolute, Path.start]

theorem stat_resolves (absolute : path.absolute = true)
    (found : system.stat path = .ok place) :
    Resolves system.root [] (cut path.steps) place := by
  rw [stat_absolute absolute] at found
  exact Node.walk_resolves found

theorem stat_canonical (absolute : path.absolute = true)
    (found : system.stat path = .ok place) :
    Canonical system.root place :=
  (stat_resolves absolute found).canonical .root

/-- A canonical path leads to its own place. -/
theorem stat_ofPlace (canonical : Canonical system.root place) :
    system.stat (.ofPlace place) = .ok place := by
  have clean : cut place = place :=
    cut_clean fun name member => (canonical.proper name member).no_nul
  have walked := canonical.walk_append symloopMax []
  rw [List.append_nil] at walked
  rw [stat_absolute rfl, Path.ofPlace_steps, clean, walked]
  unfold Node.walk
  rfl

/-- Only a directory has names to follow. -/
theorem typeAt_directory {name : Name} {turn : Turn}
    (entry : system.root.enter place name = .ok turn) :
    system.typeAt place = .directory := by
  unfold Node.enter at entry
  split at entry
  next found => simp only [typeAt, found]
  · cases entry
  · cases entry

theorem stat_append_single {name : Name}
    (canonical : Canonical system.root place) (proper : Proper name) :
    system.stat ((Path.ofPlace place).append (.single name)) =
      system.root.walk symloopMax place [name] := by
  have steps_eq : ((Path.ofPlace place).append (.single name)).steps =
      place ++ [name] := by
    simp [Path.append, Path.single, Path.steps, Path.ofPlace, proper.nonempty]
  have clean : ∀ other ∈ place ++ [name], nul ∉ other := by
    intro other member
    rcases List.mem_append.1 member with old | new
    · exact (canonical.proper other old).no_nul
    · cases List.mem_singleton.1 new
      exact proper.no_nul
  rw [stat_absolute (by simp [Path.ofPlace]), steps_eq, cut_clean clean,
    canonical.walk_append]

/-- An entry that is a link leads where its target does. -/
theorem stat_linked {name : Name} {link : Path}
    (canonical : Canonical system.root place) (proper : Proper name)
    (entry : system.root.enter place name = .ok (.linked link)) :
    system.stat ((Path.ofPlace place).append (.single name)) =
      system.root.walk (symloopMax - 1) (link.start place) link.steps := by
  have walked := @Node.walk_linked _ _ [] (symloopMax - 1) _ _ entry
  rw [List.append_nil] at walked
  rw [stat_append_single canonical proper]
  exact walked

/-- The entry of a canonical directory is a link if it leads elsewhere. -/
theorem stat_away {name : Name} {target : Place}
    (canonical : Canonical system.root place) (proper : Proper name)
    (found : system.stat ((Path.ofPlace place).append (.single name)) =
      .ok target)
    (away : target ≠ place ++ [name]) :
    ∃ link, system.root.enter place name = .ok (.linked link) := by
  rw [stat_append_single canonical proper] at found
  cases Node.walk_resolves found with
  | followed entry onward => exact ⟨_, entry⟩
  | entered entry onward =>
      cases onward
      rcases Node.enter_reached entry with
        ⟨_, empty | stay⟩ | ⟨_, up⟩ | ⟨here, _⟩
      · exact absurd empty proper.nonempty
      · exact absurd stay proper.not_dot
      · exact absurd up proper.not_dotdot
      · exact absurd here away

theorem canonical_absolute (absolute : path.absolute = true) :
    system.canonical path =
      match system.stat path with
      | .ok place => .ok (.ofPlace place)
      | .error errno => .error errno := by
  simp [canonical, Path.isEmpty, absolute]

theorem canonical_proper {real : Path}
    (found : system.canonical path = .ok real) :
    ∀ name ∈ real.names, Proper name := by
  unfold canonical at found
  split at found
  next => cases found
  next =>
    split at found
    next place stat_eq =>
      cases found
      apply (stat_canonical ?_ stat_eq).proper
      split
      · assumption
      · simp [Path.ofPlace]
    next => cases found

theorem status_eq_some {type : FileType} (there : type ≠ .notFound) :
    system.status path = some type ↔
      ∃ place, system.stat path = .ok place ∧
        system.typeAt place = type := by
  unfold status
  split
  next place stat_eq => simp [stat_eq]
  next errno stat_eq =>
    simp only [stat_eq, reduceCtorEq, false_and, exists_false, iff_false]
    split_ifs
    · intro missing
      exact there (Option.some.inj missing).symm
    · intro thrown
      cases thrown

/-- What follows the elements that exist does not exist. -/
structure Ends (system : FileSystem) (found : Path) (left : List Name) :
    Prop where
  absolute : found.absolute = true
  present : ∃ place, system.stat found = .ok place
  absent : ∀ name rest, left = name :: rest →
    ∃ errno, system.stat (found.append (.single name)) = .error errno ∧
      errno.notFound = true

theorem existing_ends {result found : Path} {names left : List Name}
    (searched : system.existing result names = .ok (found, left))
    (absolute : result.absolute = true)
    (present : ∃ place, system.stat result = .ok place)
    (ordered : Path.Ordered (result.steps ++ names)) :
    Ends system found left ∧ found.steps ++ left = result.steps ++ names := by
  induction names generalizing result with
  | nil =>
      cases searched
      refine ⟨⟨absolute, present, ?_⟩, rfl⟩
      intro name rest never
      cases never
  | cons name rest inductionHypothesis =>
      unfold existing at searched
      split at searched
      next place stat_eq =>
        have steps_eq := ordered.append_single
        have joined : (result.append (.single name)).steps ++ rest =
            result.steps ++ name :: rest := by
          simp [steps_eq]
        obtain ⟨ends, all⟩ := inductionHypothesis searched
          (by simp [absolute]) ⟨place, stat_eq⟩ (joined ▸ ordered)
        exact ⟨ends, all.trans joined⟩
      next errno stat_eq =>
        split at searched
        next missing =>
          cases searched
          refine ⟨⟨absolute, present, ?_⟩, rfl⟩
          intro other more left_eq
          cases left_eq
          exact ⟨errno, stat_eq, missing⟩
        next => cases searched

open Posix.Path

namespace Ends

variable {found : Path} {name : Name} {rest : List Name}

/-- What is there of the path has no zero byte: it would end the longer path
there as well, which then would exist too. -/
theorem clean (ends : Ends system found (name :: rest))
    (ordered : Path.Ordered (found.steps ++ name :: rest)) :
    ∀ other ∈ found.steps, nul ∉ other := by
  intro other member ended
  obtain ⟨place, start⟩ := ends.present
  obtain ⟨errno, missing, not_found⟩ := ends.absent name rest rfl
  have same := cut_append_ended member ended [name]
  rw [stat_absolute (by simp [ends.absolute]), ordered.append_single, same,
    ← stat_absolute ends.absolute, start] at missing
  cases missing

/-- From where they end, the next name leads nowhere. -/
theorem no_step (ends : Ends system found (name :: rest))
    (ordered : Path.Ordered (found.steps ++ name :: rest))
    (start : system.stat found = .ok place) (target : Place) :
    ¬Resolves system.root place (cut [name]) target := by
  intro step
  obtain ⟨errno, missing, not_found⟩ := ends.absent name rest rfl
  have clean := ends.clean ordered
  have before := stat_resolves ends.absolute start
  rw [cut_clean clean] at before
  rw [stat_absolute (by simp [ends.absolute]), ordered.append_single,
    cut_append_clean clean] at missing
  rcases (before.append step).walk symloopMax with arrived | looped
  · cases missing.symm.trans arrived
  · cases missing.symm.trans looped
    cases not_found

/-- The names still to come keep their order behind the canonical path. -/
theorem ordered_place (ends : Ends system found (name :: rest))
    (ordered : Path.Ordered (found.steps ++ name :: rest))
    (start : system.stat found = .ok place) :
    Path.Ordered (place ++ name :: rest) := by
  have canonical := stat_canonical ends.absolute start
  have place_nonempty : ∀ other ∈ place, other ≠ [] := fun other member =>
    (canonical.proper other member).nonempty
  constructor
  · intro head_eq
    cases place with
    | cons first more =>
        simp only [List.cons_append, List.head?_cons,
          Option.some.injEq] at head_eq
        exact place_nonempty first List.mem_cons_self head_eq
    | nil =>
        simp only [List.nil_append, List.head?_cons,
          Option.some.injEq] at head_eq
        -- The root is a directory if something led back to it.
        cases steps_eq : found.steps with
        | nil =>
            apply ordered.head
            simp [steps_eq, head_eq]
        | cons first more =>
            have resolved := stat_resolves ends.absolute start
            rw [cut_clean (ends.clean ordered), steps_eq] at resolved
            apply ends.no_step ordered start []
            simpa [head_eq, cut] using resolved.directory
  · intro other member
    rw [List.dropLast_append_of_ne_nil (List.cons_ne_nil _ _)] at member
    rcases List.mem_append.1 member with old | new
    · exact place_nonempty other old
    · apply ordered.front
      rw [List.dropLast_append_of_ne_nil (List.cons_ne_nil _ _)]
      exact List.mem_append_right _ new

theorem absent_extended (ends : Ends system found (name :: rest))
    (ordered : Path.Ordered (found.steps ++ name :: rest))
    (start : system.stat found = .ok place) (target : Place) :
    system.stat ((Path.ofPlace place).extended (name :: rest)) ≠
      .ok target := by
  intro reached
  have canonical := stat_canonical ends.absolute start
  have place_clean : ∀ other ∈ place, nul ∉ other := fun other member =>
    (canonical.proper other member).no_nul
  have place_ordered : Path.Ordered
      ((Path.ofPlace place).steps ++ name :: rest) := by
    simpa using ends.ordered_place ordered start
  obtain ⟨first, tail, cut_eq, cut_single⟩ := cut_cons name rest
  rw [stat_absolute (by simp [extended_absolute, Path.ofPlace]),
    extended_steps place_ordered, Path.ofPlace_steps,
    cut_append_clean place_clean, canonical.walk_append, cut_eq] at reached
  obtain ⟨middle, step, _⟩ :=
    @Resolves.split _ _ _ [first] _ (Node.walk_resolves reached) tail rfl
  exact ends.no_step ordered start middle (cut_single ▸ step)

end Ends

/-- A path that leads somewhere becomes the canonical path of that place; one
that leads nowhere still leads nowhere. -/
theorem weaklyCanonical_cases {real : Path} (normal : path.Normal)
    (resolved : system.weaklyCanonical path = .ok real) :
    (∃ place, system.stat path = .ok place ∧ real = .ofPlace place) ∨
      (∀ place, system.stat path ≠ .ok place) ∧
        ∀ place, system.stat real ≠ .ok place := by
  unfold weaklyCanonical at resolved
  split at resolved
  next place stat_eq =>
    rw [canonical_absolute normal.absolute, stat_eq] at resolved
    cases resolved
    exact Or.inl ⟨place, stat_eq, rfl⟩
  next errno stat_eq =>
    right
    split at resolved
    next not_found =>
      refine ⟨by simp [stat_eq], ?_⟩
      split at resolved
      next found left searched =>
        have root_present : ∃ place,
            system.stat { absolute := true } = .ok place :=
          ⟨[], stat_ofPlace .root⟩
        rw [normal.absolute] at searched
        have all_ordered : Path.Ordered
            (({ absolute := true } : Path).steps ++ path.steps) := by
          simpa [Path.steps] using normal.ordered
        obtain ⟨ends, steps_eq⟩ :=
          existing_ends searched rfl root_present all_ordered
        obtain ⟨place, start⟩ := ends.present
        have rooted : found.isEmpty = false := by
          simp [Path.isEmpty, ends.absolute]
        simp only [rooted, Bool.false_eq_true, if_false,
          canonical_absolute ends.absolute, start] at resolved
        cases resolved
        cases left with
        | nil =>
            -- Then the whole path exists.
            have same : found.steps = path.steps := by
              simpa [Path.steps] using steps_eq
            rw [stat_absolute normal.absolute, ← same,
              ← stat_absolute ends.absolute, start] at stat_eq
            cases stat_eq
        | cons name rest =>
            have joined : found.steps ++ name :: rest = path.steps := by
              simpa [Path.steps] using steps_eq
            have ordered : Path.Ordered (found.steps ++ name :: rest) :=
              joined ▸ normal.ordered
            have rest_normal := normal.extended_ofPlace
              (stat_canonical ends.absolute start)
              (joined ▸ List.subset_append_right _ _)
            rw [rest_normal.lexicallyNormal_eq]
            exact ends.absent_extended ordered start
      next => cases resolved
    next => cases resolved

end FileSystem

end Posix
