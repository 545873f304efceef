import Mathlib.Data.List.Basic

/-!
# The bounded queue

`TaskQueue` of `core/task_queue.hpp`.  Every function is one section of the
source that holds the mutex: a `push` or `pop` that would wait on its condition
variable is not enabled (`none`), and is tried again when the state has
changed.
-/

namespace Cppws.Core

def defaultCapacity : Nat := 4096

structure TaskQueue (T : Type) where
  queue : List T := []
  capacity : Nat := defaultCapacity
  closed : Bool := false
  bounded : queue.length ≤ capacity := by exact Nat.zero_le _

namespace TaskQueue

variable {T : Type}

/-- Nothing can be pushed before something is popped. -/
def Full (tasks : TaskQueue T) : Prop :=
  tasks.capacity ≤ tasks.queue.length ∧ tasks.closed = false

instance (tasks : TaskQueue T) : Decidable tasks.Full :=
  inferInstanceAs (Decidable (_ ∧ _))

/-- `push` once its wait is over, with what it returns. -/
def push (tasks : TaskQueue T) (item : T) : Option (TaskQueue T × Bool) :=
  if tasks.closed then
    some (tasks, false)
  else if room : tasks.queue.length < tasks.capacity then
    some
      ({ tasks with
          queue := tasks.queue ++ [item]
          bounded := by
            rw [List.length_append]
            exact room }, true)
  else
    none

/-- `try_push`. -/
def tryPush (tasks : TaskQueue T) (item : T) : TaskQueue T × Bool :=
  if full : tasks.closed = true ∨ tasks.capacity ≤ tasks.queue.length then
    (tasks, false)
  else
    ({ tasks with
        queue := tasks.queue ++ [item]
        bounded := by
          rw [List.length_append]
          exact Nat.lt_of_not_le fun le => full (Or.inr le) }, true)

/-- `pop` once its wait is over, with what it returns. -/
def pop (tasks : TaskQueue T) : Option (TaskQueue T × Option T) :=
  match equal : tasks.queue with
  | item :: rest =>
      some
        ({ tasks with
            queue := rest
            bounded := by
              have := tasks.bounded
              rw [equal, List.length_cons] at this
              omega }, some item)
  | [] => if tasks.closed then some (tasks, none) else none

/-- `try_pop`. -/
def tryPop (tasks : TaskQueue T) : TaskQueue T × Option T :=
  match equal : tasks.queue with
  | item :: rest =>
      ({ tasks with
          queue := rest
          bounded := by
            have := tasks.bounded
            rw [equal, List.length_cons] at this
            omega }, some item)
  | [] => (tasks, none)

def close (tasks : TaskQueue T) : TaskQueue T :=
  { tasks with closed := true }

/-! ## What each section does -/

theorem push_eq_some {tasks after : TaskQueue T} {item : T} {accepted : Bool}
    (pushed : tasks.push item = some (after, accepted)) :
    (tasks.closed = true ∧ accepted = false ∧ after = tasks) ∨
      (tasks.closed = false ∧ accepted = true ∧
        tasks.queue.length < tasks.capacity ∧
        after.queue = tasks.queue ++ [item] ∧
        after.capacity = tasks.capacity ∧ after.closed = tasks.closed) := by
  unfold push at pushed
  split_ifs at pushed with shut room
  · simp only [Option.some.injEq, Prod.mk.injEq] at pushed
    exact Or.inl ⟨shut, pushed.2.symm, pushed.1.symm⟩
  · simp only [Option.some.injEq, Prod.mk.injEq] at pushed
    rcases pushed with ⟨rfl, rfl⟩
    exact Or.inr ⟨by simpa using shut, rfl, room, rfl, rfl, rfl⟩

theorem push_capacity {tasks : TaskQueue T} {item : T}
    {pushed : TaskQueue T × Bool} (done : tasks.push item = some pushed) :
    pushed.1.capacity = tasks.capacity := by
  rcases push_eq_some done with ⟨_, _, same⟩ | ⟨_, _, _, _, same, _⟩
  · rw [same]
  · exact same

theorem push_closed {tasks : TaskQueue T} {item : T}
    {pushed : TaskQueue T × Bool} (done : tasks.push item = some pushed) :
    pushed.1.closed = tasks.closed := by
  rcases push_eq_some done with ⟨_, _, same⟩ | ⟨_, _, _, _, _, same⟩
  · rw [same]
  · exact same

theorem push_of_room {tasks : TaskQueue T} (item : T)
    (opened : tasks.closed = false)
    (room : tasks.queue.length < tasks.capacity) :
    ∃ after, tasks.push item = some (after, true) ∧
      after.queue = tasks.queue ++ [item] ∧
      after.capacity = tasks.capacity ∧ after.closed = false := by
  have fits : (tasks.queue ++ [item]).length ≤ tasks.capacity := by
    rw [List.length_append]
    exact room
  refine ⟨{ tasks with queue := tasks.queue ++ [item], bounded := fits },
    ?_, rfl, rfl, opened⟩
  simp [push, opened, room]

theorem push_eq_none_iff {tasks : TaskQueue T} {item : T} :
    tasks.push item = none ↔ tasks.Full := by
  unfold push Full
  split_ifs with shut room
  · simp [shut]
  · simp only [false_iff, not_and]
    intro full
    omega
  · simp only [true_iff]
    exact ⟨by omega, by simpa using shut⟩

theorem tryPush_eq {tasks after : TaskQueue T} {item : T} {accepted : Bool}
    (pushed : tasks.tryPush item = (after, accepted)) :
    (accepted = false ∧ after = tasks) ∨
      (tasks.closed = false ∧ accepted = true ∧
        after.queue = tasks.queue ++ [item] ∧
        after.capacity = tasks.capacity ∧ after.closed = tasks.closed) := by
  unfold tryPush at pushed
  split_ifs at pushed with full
  · cases pushed
    exact Or.inl ⟨rfl, rfl⟩
  · cases pushed
    rw [not_or, Bool.not_eq_true] at full
    exact Or.inr ⟨full.1, rfl, rfl, rfl, rfl⟩

theorem tryPush_closed (tasks : TaskQueue T) (item : T) :
    (tasks.tryPush item).1.closed = tasks.closed := by
  unfold tryPush
  split <;> rfl

theorem pop_eq_some {tasks after : TaskQueue T} {popped : Option T}
    (took : tasks.pop = some (after, popped)) :
    (∃ item, popped = some item ∧ tasks.queue = item :: after.queue ∧
        after.capacity = tasks.capacity ∧ after.closed = tasks.closed) ∨
      (popped = none ∧ tasks.queue = [] ∧ tasks.closed = true ∧
        after = tasks) := by
  unfold pop at took
  split at took
  case h_1 item rest equal =>
    simp only [Option.some.injEq, Prod.mk.injEq] at took
    rcases took with ⟨rfl, rfl⟩
    exact Or.inl ⟨item, rfl, equal, rfl, rfl⟩
  case h_2 equal =>
    split_ifs at took with shut
    simp only [Option.some.injEq, Prod.mk.injEq] at took
    exact Or.inr ⟨took.2.symm, equal, shut, took.1.symm⟩

theorem pop_closed {tasks : TaskQueue T} {popped : TaskQueue T × Option T}
    (took : tasks.pop = some popped) : popped.1.closed = tasks.closed := by
  rcases pop_eq_some took with ⟨_, _, _, _, same⟩ | ⟨_, _, _, same⟩
  · exact same
  · rw [same]

theorem pop_capacity {tasks : TaskQueue T} {popped : TaskQueue T × Option T}
    (took : tasks.pop = some popped) :
    popped.1.capacity = tasks.capacity := by
  rcases pop_eq_some took with ⟨_, _, _, same, _⟩ | ⟨_, _, _, same⟩
  · exact same
  · rw [same]

theorem pop_eq_none_iff {tasks : TaskQueue T} :
    tasks.pop = none ↔ tasks.queue = [] ∧ tasks.closed = false := by
  unfold pop
  split
  case h_1 item rest equal => simp [equal]
  case h_2 equal => simp [equal]

theorem tryPop_eq {tasks after : TaskQueue T} {popped : Option T}
    (took : tasks.tryPop = (after, popped)) :
    tasks.queue = popped.toList ++ after.queue ∧
      (popped = none → tasks.queue = []) := by
  unfold tryPop at took
  split at took
  case h_1 item rest equal =>
    cases took
    exact ⟨equal, nofun⟩
  case h_2 equal =>
    cases took
    exact ⟨rfl, fun _ => equal⟩

theorem tryPop_of_nil {tasks : TaskQueue T} (empty : tasks.queue = []) :
    tasks.tryPop = (tasks, none) := by
  unfold tryPop
  split
  case h_1 item rest equal =>
    rw [empty] at equal
    cases equal
  case h_2 => rfl

theorem tryPop_of_cons {tasks : TaskQueue T} {item : T} {rest : List T}
    (queued : tasks.queue = item :: rest) :
    ∃ after, tasks.tryPop = (after, some item) ∧ after.queue = rest := by
  unfold tryPop
  split
  case h_1 first others equal =>
    rw [queued] at equal
    cases equal
    exact ⟨_, rfl, rfl⟩
  case h_2 equal =>
    rw [queued] at equal
    cases equal

theorem tryPop_length (tasks : TaskQueue T) :
    tasks.tryPop.1.queue.length ≤ tasks.queue.length := by
  unfold tryPop
  split
  case h_1 item rest equal => simp [equal]
  case h_2 => exact Nat.le_refl _

theorem tryPop_capacity (tasks : TaskQueue T) :
    tasks.tryPop.1.capacity = tasks.capacity := by
  unfold tryPop
  split <;> rfl

theorem tryPop_closed (tasks : TaskQueue T) :
    tasks.tryPop.1.closed = tasks.closed := by
  unfold tryPop
  split <;> rfl

end TaskQueue

end Cppws.Core
