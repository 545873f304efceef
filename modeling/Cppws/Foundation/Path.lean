import Mathlib.Data.List.Basic

/-!
# Paths

Path names as a POSIX `std::filesystem::path` reads them.  A path is kept as its
names, since the number of separators between two names makes no difference to
any of the functions here; only whether one stands at either end does.
-/

namespace Posix

/-- One component of a path. -/
abbrev Name := List UInt8

def nul : UInt8 := 0

def slash : UInt8 := 47

def dot : Name := [46]

def dotdot : Name := [46, 46]

/-- A name that an entry of a directory can have. -/
structure Proper (name : Name) : Prop where
  nonempty : name ≠ []
  not_dot : name ≠ dot
  not_dotdot : name ≠ dotdot
  no_slash : slash ∉ name
  no_nul : nul ∉ name

instance (name : Name) : Decidable (Proper name) :=
  decidable_of_iff
    (name ≠ [] ∧ name ≠ dot ∧ name ≠ dotdot ∧ slash ∉ name ∧
      nul ∉ name)
    ⟨fun ⟨nonempty, not_dot, not_dotdot, no_slash, no_nul⟩ =>
      ⟨nonempty, not_dot, not_dotdot, no_slash, no_nul⟩,
    fun proper => ⟨proper.nonempty, proper.not_dot, proper.not_dotdot,
      proper.no_slash, proper.no_nul⟩⟩

structure Path where
  /-- Whether the path has a root directory. -/
  absolute : Bool := false
  names : List Name := []
  /-- Whether a separator follows the last name. -/
  trailing : Bool := false
deriving DecidableEq

namespace Path

/-- The path that a string denotes. -/
def ofBytes (bytes : List UInt8) : Path :=
  let names := (bytes.splitOn slash).filter fun name => name ≠ []
  { absolute := bytes.head? = some slash
    names := names
    trailing := names ≠ [] && bytes.getLast? = some slash }

def isEmpty (path : Path) : Bool :=
  !path.absolute && path.names.isEmpty

/-- What is left to follow once the root directory is found. -/
def steps (path : Path) : List Name :=
  path.names ++ if path.trailing then [[]] else []

/-- What the iterators of the path run over. -/
def elements (path : Path) : List Name :=
  (if path.absolute then [[slash]] else []) ++ path.steps

/-- The `/` of two paths. -/
def append (path other : Path) : Path :=
  if other.absolute then
    other
  else if other.names = [] then
    { path with trailing := path.names ≠ [] }
  else
    { path with
      names := path.names ++ other.names
      trailing := other.trailing }

/-- The path with a single element. -/
def single (name : Name) : Path :=
  { names := if name = [] then [] else [name] }

/-- `result /= name` for each name. -/
def extended (result : Path) (names : List Name) : Path :=
  names.foldl (fun path name => path.append (.single name)) result

/-- One name of a path that is being normalised. -/
def normalStep (absolute : Bool) (names : List Name) (name : Name) :
    List Name :=
  if name = dot then
    names
  else if name = dotdot then
    match names.getLast? with
    | none => if absolute then names else names ++ [name]
    | some last => if last = dotdot then names ++ [name] else names.dropLast
  else
    names ++ [name]

def lexicallyNormal (path : Path) : Path :=
  if path.isEmpty then
    path
  else
    let names := path.names.foldl (normalStep path.absolute) []
    if names = [] then
      { path with
        names := if path.absolute then [] else [dot]
        trailing := false }
    else
      { path with
        names := names
        trailing := names.getLast? ≠ some dotdot &&
          (path.trailing || path.names.getLast? = some dot ||
            path.names.getLast? = some dotdot) }

/-- The name of the file a path ends in. -/
def filename (path : Path) : Name :=
  if path.trailing then [] else path.names.getLast?.getD []

/-- The end of the file name from its last dot on, unless that is all of it. -/
def extension (path : Path) : Name :=
  let name := path.filename
  let stem :=
    name.length - (name.reverse.takeWhile fun c => c ≠ 46).length - 1
  if name.length ≤ 2 ∧ name.head? = some 46 ∨
      46 ∉ name ∨ stem = 0 then
    []
  else
    name.drop stem

@[simp]
theorem append_absolute (path other : Path) :
    (path.append other).absolute = (other.absolute || path.absolute) := by
  unfold append
  split
  next absolute => simp [absolute]
  next relative =>
    split <;> simp [relative]

theorem mem_append {path other : Path} {name : Name}
    (member : name ∈ (path.append other).names) :
    name ∈ path.names ∨ name ∈ other.names := by
  unfold append at member
  split_ifs at member
  · exact Or.inr member
  · exact Or.inl member
  · exact List.mem_append.1 member

theorem ofBytes_nonempty (bytes : List UInt8) :
    ∀ name ∈ (ofBytes bytes).names, name ≠ [] := by
  intro name member
  simpa using (List.mem_filter.1 member).2

@[simp]
theorem lexicallyNormal_absolute (path : Path) :
    path.lexicallyNormal.absolute = path.absolute := by
  unfold lexicallyNormal
  split
  · rfl
  · dsimp only
    split <;> rfl

/-- Names that normalising a path does not take out. -/
def Plain (names : List Name) : Prop :=
  ∀ name ∈ names, name ≠ [] ∧ name ≠ dot ∧ name ≠ dotdot

theorem Plain.append {names others : List Name} (plain : Plain names)
    (others_plain : Plain others) :
    Plain (names ++ others) := by
  intro name member
  rcases List.mem_append.1 member with first | second
  · exact plain name first
  · exact others_plain name second

theorem Plain.normalStep {names : List Name} {name : Name}
    (plain : Plain names) (nonempty : name ≠ []) :
    Plain (normalStep true names name) := by
  unfold Path.normalStep
  split
  · exact plain
  next is_dot =>
  split
  · cases last_eq : names.getLast? with
    | none => exact plain
    | some last =>
        have last_plain := plain last (List.mem_of_getLast? last_eq)
        simp only [last_plain.2.2, if_false]
        intro other member
        exact plain other (List.dropLast_subset _ member)
  next is_dotdot =>
    apply plain.append
    intro other member
    cases List.mem_singleton.1 member
    exact ⟨nonempty, is_dot, is_dotdot⟩

theorem Plain.foldl_normalStep {names : List Name}
    (nonempty : ∀ name ∈ names, name ≠ []) {before : List Name}
    (plain : Plain before) :
    Plain (names.foldl (Path.normalStep true) before) := by
  induction names generalizing before with
  | nil => exact plain
  | cons name rest inductionHypothesis =>
      apply inductionHypothesis
      · intro other member
        exact nonempty other (List.mem_cons_of_mem _ member)
      · exact plain.normalStep (nonempty name List.mem_cons_self)

theorem foldl_normalStep_eq {names : List Name} (plain : Plain names)
    (absolute : Bool) (before : List Name) :
    names.foldl (normalStep absolute) before = before ++ names := by
  induction names generalizing before with
  | nil => simp
  | cons name rest inductionHypothesis =>
      have head := plain name List.mem_cons_self
      have step : normalStep absolute before name = before ++ [name] := by
        simp [normalStep, head.2.1, head.2.2]
      have tail : Plain rest := fun other member =>
        plain other (List.mem_cons_of_mem _ member)
      rw [List.foldl_cons, step, inductionHypothesis tail]
      simp

/-- An absolute path in its normal form. -/
structure Normal (path : Path) : Prop where
  absolute : path.absolute = true
  plain : Plain path.names
  trailing : path.trailing = true → path.names ≠ []

theorem lexicallyNormal_normal {path : Path} (absolute : path.absolute = true)
    (nonempty : ∀ name ∈ path.names, name ≠ []) :
    path.lexicallyNormal.Normal := by
  have rooted : path.isEmpty = false := by simp [isEmpty, absolute]
  have plain : Plain (path.names.foldl (normalStep true) []) :=
    Plain.foldl_normalStep nonempty (fun _ member => by cases member)
  refine ⟨by simp [absolute], ?_, ?_⟩
  · unfold lexicallyNormal
    simp only [rooted, absolute, Bool.false_eq_true, if_false]
    split_ifs with empty
    · intro name member
      cases member
    · exact plain
  · unfold lexicallyNormal
    simp only [rooted, absolute, Bool.false_eq_true, if_false]
    split_ifs with empty
    · intro never
      cases never
    · intro _
      exact empty

/-- A normal form is left as it is. -/
theorem Normal.lexicallyNormal_eq {path : Path} (normal : path.Normal) :
    path.lexicallyNormal = path := by
  have rooted : path.isEmpty = false := by simp [isEmpty, normal.absolute]
  have folded := foldl_normalStep_eq normal.plain path.absolute []
  rw [List.nil_append] at folded
  unfold lexicallyNormal
  simp only [rooted, Bool.false_eq_true, if_false, folded]
  split_ifs with empty absolute
  · have closed : path.trailing = false := by
      by_contra open_end
      exact normal.trailing (by simpa using open_end) empty
    cases path
    simp_all
  · exact absurd normal.absolute absolute
  · have last_plain : ∀ name, path.names.getLast? = some name →
        name ≠ dot ∧ name ≠ dotdot := fun name last_eq =>
      (normal.plain name (List.mem_of_getLast? last_eq)).2
    have not_dot : path.names.getLast? ≠ some dot := fun last_eq =>
      (last_plain dot last_eq).1 rfl
    have not_dotdot : path.names.getLast? ≠ some dotdot := fun last_eq =>
      (last_plain dotdot last_eq).2 rfl
    simp [not_dot, not_dotdot]

variable {path : Path}

/-- The names of a path as the loop over its elements meets them. -/
structure Ordered (steps : List Name) : Prop where
  head : steps.head? ≠ some []
  front : ∀ name ∈ steps.dropLast, name ≠ []

theorem Ordered.open_end {others : List Name} {name : Name}
    (ordered : Ordered (path.steps ++ name :: others)) :
    path.trailing = false := by
  by_contra not_open
  have closed : path.trailing = true := by simpa using not_open
  have member : [] ∈ (path.steps ++ name :: others).dropLast := by
    rw [List.dropLast_append_of_ne_nil (List.cons_ne_nil _ _)]
    apply List.mem_append_left
    simp [steps, closed]
  exact ordered.front [] member rfl

theorem Ordered.append_single {others : List Name} {name : Name}
    (ordered : Ordered (path.steps ++ name :: others)) :
    (path.append (.single name)).steps = path.steps ++ [name] := by
  have opened := ordered.open_end
  by_cases empty : name = []
  · have names_ne : path.names ≠ [] := by
      intro names_eq
      apply ordered.head
      simp [steps, names_eq, opened, empty]
    simp [append, single, Path.steps, empty, opened, names_ne]
  · simp [append, single, Path.steps, empty, opened]

@[simp]
theorem append_single_absolute (path : Path) (name : Name) :
    (path.append (.single name)).absolute = path.absolute := by
  simp [single]

theorem Normal.ordered (normal : path.Normal) : Ordered path.steps := by
  have nonempty : ∀ name ∈ path.names, name ≠ [] := fun name member =>
    (normal.plain name member).1
  constructor
  · intro head_eq
    cases names_eq : path.names with
    | nil =>
        have opened : path.trailing = false := by
          by_contra closed
          exact normal.trailing (by simpa using closed) names_eq
        simp [steps, names_eq, opened] at head_eq
    | cons first rest =>
        simp only [steps, names_eq, List.cons_append, List.head?_cons,
          Option.some.injEq] at head_eq
        exact nonempty first (by simp [names_eq]) head_eq
  · intro name member
    apply nonempty
    unfold steps at member
    split at member
    · simpa using member
    · exact List.dropLast_subset _ (by simpa using member)

theorem extended_absolute (path : Path) (names : List Name) :
    (path.extended names).absolute = path.absolute := by
  induction names generalizing path with
  | nil => rfl
  | cons name rest inductionHypothesis =>
      exact (inductionHypothesis _).trans (append_single_absolute path name)

theorem extended_steps {names : List Name}
    (ordered : Ordered (path.steps ++ names)) :
    (path.extended names).steps = path.steps ++ names := by
  induction names generalizing path with
  | nil => simp [extended]
  | cons name rest inductionHypothesis =>
      have steps_eq := ordered.append_single
      have joined : (path.append (.single name)).steps ++ rest =
          path.steps ++ name :: rest := by
        simp [steps_eq]
      exact (inductionHypothesis (joined ▸ ordered)).trans joined

theorem mem_extended {names : List Name} {name : Name}
    (member : name ∈ (path.extended names).names) :
    name ∈ path.names ∨ name ∈ names ∧ name ≠ [] := by
  induction names generalizing path with
  | nil => exact Or.inl member
  | cons first rest inductionHypothesis =>
      rcases inductionHypothesis member with old | ⟨later, nonempty⟩
      · rcases mem_append old with before | now
        · exact Or.inl before
        · unfold single at now
          split at now
          · cases now
          next nonempty =>
            cases List.mem_singleton.1 now
            exact Or.inr ⟨List.mem_cons_self, nonempty⟩
      · exact Or.inr ⟨List.mem_cons_of_mem _ later, nonempty⟩

theorem extended_trailing {names : List Name}
    (base : path.trailing = true → path.names ≠ []) :
    (path.extended names).trailing = true →
      (path.extended names).names ≠ [] := by
  induction names generalizing path with
  | nil => exact base
  | cons name rest inductionHypothesis =>
      apply inductionHypothesis
      by_cases empty : name = []
      · simp [append, single, empty]
      · simp [append, single, empty]

end Path

end Posix
