import Cppws.Foundation.Path

/-!
# Following a path through a file tree

A tree of directories, files and symbolic links, and what a path reaches in it.
`Resolves` is the meaning of a path, whatever number of links it leads through.
`Node.walk` computes it as the system calls do, which give up after a number of
links.
-/

namespace Posix

inductive Node where
  | regular
  | directory (searchable : Bool) (entries : List (Name × Node))
  | link (target : Path)
  /-- A device, a pipe or a socket. -/
  | other

/-- The names that lead from the root of a tree to a node. -/
abbrev Place := List Name

inductive Errno where
  | ENOENT
  | ENOTDIR
  | EACCES
  | ELOOP
deriving DecidableEq

/-- What one name of a path leads to. -/
inductive Turn where
  | reached (place : Place)
  | linked (target : Path)

namespace Node

/-- The entry of a directory with the name. -/
def child (node : Node) (name : Name) : Option Node :=
  match node with
  | .directory _ entries => if Proper name then entries.lookup name else none
  | _ => none

/-- The node at a place, links not followed. -/
def find (node : Node) : Place → Option Node
  | [] => some node
  | name :: rest =>
      match node.child name with
      | some next => next.find rest
      | none => none

/-- Follow one name from a place. -/
def enter (root : Node) (place : Place) (name : Name) : Except Errno Turn :=
  match root.find place with
  | some (.directory searchable _) =>
      if name = [] then
        .ok (.reached place)
      else if searchable = false then
        .error .EACCES
      else if name = dot then
        .ok (.reached place)
      else if name = dotdot then
        .ok (.reached place.dropLast)
      else
        match root.find (place ++ [name]) with
        | some (.link target) => .ok (.linked target)
        | some _ => .ok (.reached (place ++ [name]))
        | none => .error .ENOENT
  | some _ => .error .ENOTDIR
  | none => .error .ENOENT

end Node

/-- Where a path begins that is found at a place. -/
def Path.start (path : Path) (place : Place) : Place :=
  if path.absolute then [] else place

namespace Node

/-- Follow names up to the first link among them. -/
def pursue (root : Node) :
    Place → List Name → Except Errno (Place × Option (Path × List Name))
  | place, [] => .ok (place, none)
  | place, name :: rest =>
      match root.enter place name with
      | .ok (.reached next) => root.pursue next rest
      | .ok (.linked target) => .ok (place, some (target, rest))
      | .error errno => .error errno

/-- Follow names and at most `budget` links. -/
def walk (root : Node) : Nat → Place → List Name → Except Errno Place
  | budget, place, names =>
      match root.pursue place names, budget with
      | .ok (final, none), _ => .ok final
      | .ok (_, some _), 0 => .error .ELOOP
      | .ok (reached, some (target, rest)), budget + 1 =>
          root.walk budget (target.start reached) (target.steps ++ rest)
      | .error errno, _ => .error errno

end Node

/-- Following the names from a place, links and all, ends at another. -/
inductive Resolves (root : Node) : Place → List Name → Place → Prop where
  | arrived (place : Place) : Resolves root place [] place
  | entered {place next final : Place} {name : Name} {rest : List Name}
      (entry : root.enter place name = .ok (.reached next))
      (onward : Resolves root next rest final) :
      Resolves root place (name :: rest) final
  | followed {place final : Place} {name : Name} {rest : List Name}
      {target : Path} (entry : root.enter place name = .ok (.linked target))
      (onward : Resolves root (target.start place) (target.steps ++ rest)
        final) :
      Resolves root place (name :: rest) final

section Walking

variable {root : Node} {place final : Place} {names : List Name}

theorem Node.find_concat (node : Node) (place : Place) (name : Name) :
    node.find (place ++ [name]) =
      (node.find place).bind fun found => found.child name := by
  induction place generalizing node with
  | nil =>
      simp only [List.nil_append, Node.find, Option.bind_some]
      cases node.child name <;> rfl
  | cons first rest inductionHypothesis =>
      simp only [List.cons_append, Node.find]
      cases node.child first with
      | none => rfl
      | some next => exact inductionHypothesis next

/-- Where one name leads, unless it is a link. -/
theorem Node.enter_reached {name : Name} {next : Place}
    (entry : root.enter place name = .ok (.reached next)) :
    next = place ∧ (name = [] ∨ name = dot) ∨
      next = place.dropLast ∧ name = dotdot ∨
      next = place ++ [name] ∧ Proper name := by
  unfold Node.enter at entry
  split at entry
  next searchable entries found =>
    split_ifs at entry with empty _ stay up
    · cases entry
      exact Or.inl ⟨rfl, Or.inl empty⟩
    · cases entry
      exact Or.inl ⟨rfl, Or.inr stay⟩
    · cases entry
      exact Or.inr (Or.inl ⟨rfl, up⟩)
    · split at entry
      · cases entry
      next node not_link child =>
        cases entry
        refine Or.inr (Or.inr ⟨rfl, ?_⟩)
        by_contra improper
        rw [Node.find_concat, found, Option.bind_some, Node.child,
          if_neg improper] at child
        cases child
      · cases entry
  · cases entry
  · cases entry

/-- Only in a directory can a name be followed. -/
theorem Node.enter_directory {name : Name} {turn : Turn}
    (entry : root.enter place name = .ok turn) :
    root.enter place [] = .ok (.reached place) := by
  unfold Node.enter at entry ⊢
  split at entry
  next => simp only [if_true]
  · cases entry
  · cases entry

namespace Resolves

/-- A place that a name leads from is a directory. -/
theorem directory {name : Name} {rest : List Name}
    (resolves : Resolves root place (name :: rest) final) :
    Resolves root place [[]] place := by
  cases resolves with
  | entered entry onward =>
      exact .entered (Node.enter_directory entry) (.arrived place)
  | followed entry onward =>
      exact .entered (Node.enter_directory entry) (.arrived place)

theorem append {middle : Place} {others : List Name}
    (first : Resolves root place names middle)
    (second : Resolves root middle others final) :
    Resolves root place (names ++ others) final := by
  induction first with
  | arrived place => exact second
  | entered entry onward inductionHypothesis =>
      exact .entered entry (inductionHypothesis second)
  | followed entry onward inductionHypothesis =>
      apply Resolves.followed entry
      rw [List.append_eq, ← List.append_assoc]
      exact inductionHypothesis second

/-- The first part of a path reaches some place itself. -/
theorem split {all : List Name} (resolves : Resolves root place all final)
    {others : List Name} (cut : all = names ++ others) :
    ∃ middle, Resolves root place names middle ∧
      Resolves root middle others final := by
  induction resolves generalizing names with
  | arrived place =>
      obtain ⟨rfl, rfl⟩ := List.append_eq_nil_iff.1 cut.symm
      exact ⟨place, .arrived place, .arrived place⟩
  | @entered place next final name rest entry onward inductionHypothesis =>
      cases names with
      | nil =>
          cases cut
          exact ⟨place, .arrived place, .entered entry onward⟩
      | cons first more =>
          cases cut
          obtain ⟨middle, before, after⟩ := inductionHypothesis rfl
          exact ⟨middle, .entered entry before, after⟩
  | @followed place final name rest target entry onward inductionHypothesis =>
      cases names with
      | nil =>
          cases cut
          exact ⟨place, .arrived place, .followed entry onward⟩
      | cons first more =>
          cases cut
          obtain ⟨middle, before, after⟩ :=
            inductionHypothesis (List.append_assoc _ _ _).symm
          exact ⟨middle, .followed entry before, after⟩

end Resolves

theorem Node.pursue_arrived
    (pursued : root.pursue place names = .ok (final, none)) :
    Resolves root place names final := by
  induction names generalizing place with
  | nil =>
      cases pursued
      exact .arrived final
  | cons name rest inductionHypothesis =>
      unfold Node.pursue at pursued
      split at pursued
      next entry => exact .entered entry (inductionHypothesis pursued)
      next entry => cases pursued
      next entry => cases pursued

theorem Node.pursue_linked {reached : Place} {target : Path}
    {rest : List Name}
    (pursued : root.pursue place names = .ok (reached, some (target, rest)))
    (onward : Resolves root (target.start reached) (target.steps ++ rest)
      final) :
    Resolves root place names final := by
  induction names generalizing place with
  | nil => cases pursued
  | cons name more inductionHypothesis =>
      unfold Node.pursue at pursued
      split at pursued
      next entry => exact .entered entry (inductionHypothesis pursued)
      next entry =>
        cases pursued
        exact .followed entry onward
      next entry => cases pursued

/-- What a walk reaches is where the path leads. -/
theorem Node.walk_resolves {budget : Nat}
    (walked : root.walk budget place names = .ok final) :
    Resolves root place names final := by
  induction budget generalizing place names with
  | zero =>
      unfold Node.walk at walked
      split at walked
      next pursued =>
        cases walked
        exact Node.pursue_arrived pursued
      next => cases walked
      next budget_eq => cases budget_eq
      next => cases walked
  | succ budget inductionHypothesis =>
      unfold Node.walk at walked
      split at walked
      next pursued =>
        cases walked
        exact Node.pursue_arrived pursued
      next => cases walked
      next pursued budget_eq =>
        cases budget_eq
        exact Node.pursue_linked pursued (inductionHypothesis walked)
      next => cases walked

theorem Node.walk_reached {budget : Nat} {name : Name} {next : Place}
    (entry : root.enter place name = .ok (.reached next)) :
    root.walk budget place (name :: names) = root.walk budget next names := by
  conv_lhs => unfold Node.walk
  conv_rhs => unfold Node.walk
  simp only [Node.pursue, entry]

theorem Node.walk_linked {budget : Nat} {name : Name} {target : Path}
    (entry : root.enter place name = .ok (.linked target)) :
    root.walk (budget + 1) place (name :: names) =
      root.walk budget (target.start place) (target.steps ++ names) := by
  conv_lhs => unfold Node.walk
  simp only [Node.pursue, entry]

/-- Where a path leads is what a walk reaches, if it reaches the end. -/
theorem Resolves.walk (resolves : Resolves root place names final)
    (budget : Nat) :
    root.walk budget place names = .ok final ∨
      root.walk budget place names = .error .ELOOP := by
  induction resolves generalizing budget with
  | arrived place =>
      left
      unfold Node.walk
      rfl
  | entered entry onward inductionHypothesis =>
      rw [Node.walk_reached entry]
      exact inductionHypothesis budget
  | followed entry onward inductionHypothesis =>
      cases budget with
      | zero =>
          right
          unfold Node.walk
          simp only [Node.pursue, entry]
      | succ budget =>
          rw [Node.walk_linked entry]
          exact inductionHypothesis budget

/-- A place that its own names lead to. -/
inductive Canonical (root : Node) : Place → Prop where
  | root : Canonical root []
  | child {place : Place} {name : Name} (parent : Canonical root place)
      (entry : root.enter place name = .ok (.reached (place ++ [name]))) :
      Canonical root (place ++ [name])

namespace Canonical

theorem parent {place : Place} (canonical : Canonical root place) :
    Canonical root place.dropLast := by
  cases canonical with
  | root => exact .root
  | child parent entry => simpa using parent

theorem proper {place : Place} (canonical : Canonical root place) :
    ∀ name ∈ place, Proper name := by
  induction canonical with
  | root =>
      intro name member
      cases member
  | @child place name parent entry inductionHypothesis =>
      have name_proper : Proper name := by
        rcases Node.enter_reached entry with
          ⟨same, _⟩ | ⟨up, _⟩ | ⟨_, proper⟩
        · simp at same
        · have lengths := congrArg List.length up
          simp at lengths
          omega
        · exact proper
      intro other member
      rcases List.mem_append.1 member with old | new
      · exact inductionHypothesis other old
      · cases List.mem_singleton.1 new
        exact name_proper

/-- No link is on the way. -/
theorem walk_append {place : Place} (canonical : Canonical root place)
    (budget : Nat) (names : List Name) :
    root.walk budget [] (place ++ names) = root.walk budget place names := by
  induction canonical generalizing names with
  | root => rfl
  | child parent entry inductionHypothesis =>
      rw [List.append_assoc, inductionHypothesis]
      exact Node.walk_reached entry

theorem resolves {place : Place} (canonical : Canonical root place) :
    Resolves root [] place place := by
  induction canonical with
  | root => exact .arrived []
  | child parent entry inductionHypothesis =>
      exact inductionHypothesis.append (.entered entry (.arrived _))

theorem enter {place next : Place} {name : Name}
    (canonical : Canonical root place)
    (entry : root.enter place name = .ok (.reached next)) :
    Canonical root next := by
  rcases Node.enter_reached entry with
    ⟨rfl, _⟩ | ⟨rfl, _⟩ | ⟨rfl, _⟩
  · exact canonical
  · exact canonical.parent
  · exact .child canonical entry

end Canonical

/-- What any path leads to from the root is reached without links as well. -/
theorem Resolves.canonical (resolves : Resolves root place names final)
    (canonical : Canonical root place) :
    Canonical root final := by
  induction resolves with
  | arrived place => exact canonical
  | entered entry onward inductionHypothesis =>
      exact inductionHypothesis (canonical.enter entry)
  | @followed place final name rest target entry onward inductionHypothesis =>
      apply inductionHypothesis
      unfold Path.start
      split
      · exact .root
      · exact canonical

end Walking

end Posix
