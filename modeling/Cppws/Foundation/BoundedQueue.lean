import Mathlib.Algebra.BigOperators.Group.List.Basic
import Mathlib.Algebra.GroupWithZero.Nat
import Mathlib.Data.List.DropRight
import Cppws.Foundation.Machine

/-!
# Bounded queues of symbols

A queue that holds at most as many symbols as its capacity.  Several symbols
are appended or removed at once, the queue is cleared as a whole, and its
capacity can grow.  After any run the contents are the symbols that came in
since the queue was cleared, without those that went out.
-/

universe u

structure BoundedQueue (α : Type u) where
  capacity : Nat
  contents : List α
  bounded : contents.length ≤ capacity

namespace BoundedQueue

variable {α : Type u}

@[ext]
theorem ext {queue other : BoundedQueue α}
    (capacity : queue.capacity = other.capacity)
    (contents : queue.contents = other.contents) : queue = other := by
  cases queue
  cases other
  cases capacity
  cases contents
  rfl

def empty (capacity : Nat) : BoundedQueue α where
  capacity := capacity
  contents := []
  bounded := Nat.zero_le capacity

inductive Action (α : Type u) where
  | enqueue (symbols : List α)
  | dequeue (count : Nat)
  | clear
  /-- The capacity becomes at least this. -/
  | grow (capacity : Nat)

def step (queue : BoundedQueue α) : Action α → Option (BoundedQueue α)
  | .enqueue symbols =>
      if fits : (queue.contents ++ symbols).length ≤ queue.capacity then
        some
          { queue with
            contents := queue.contents ++ symbols
            bounded := fits }
      else
        none
  | .dequeue count =>
      if count ≤ queue.contents.length then
        some
          { queue with
            contents := queue.contents.drop count
            bounded :=
              Nat.le_trans (List.drop_sublist _ _).length_le queue.bounded }
      else
        none
  | .clear => some (empty queue.capacity)
  | .grow capacity =>
      some
        { queue with
          capacity := max queue.capacity capacity
          bounded := Nat.le_trans queue.bounded (Nat.le_max_left _ _) }

def machine : Machine (BoundedQueue α) (Action α) where
  step := step

namespace Action

def symbols : Action α → List α
  | .enqueue symbols => symbols
  | _ => []

def count : Action α → Nat
  | .dequeue count => count
  | _ => 0

def clears : Action α → Bool
  | .clear => true
  | _ => false

/-- The actions since the last one that clears the queue. -/
def recent (actions : List (Action α)) : List (Action α) :=
  actions.rtakeWhile fun action => !action.clears

/-- The symbols that came in since the queue was cleared. -/
def entered (actions : List (Action α)) : List α :=
  (recent actions).flatMap symbols

/-- How many of them went out. -/
def left (actions : List (Action α)) : Nat :=
  ((recent actions).map count).sum

theorem recent_concat (actions : List (Action α)) (action : Action α) :
    recent (actions ++ [action]) =
      if action.clears then [] else recent actions ++ [action] := by
  rw [recent, List.rtakeWhile_concat]
  cases action.clears <;> rfl

theorem entered_concat (actions : List (Action α)) (action : Action α) :
    entered (actions ++ [action]) =
      if action.clears then [] else entered actions ++ action.symbols := by
  rw [entered, recent_concat]
  split_ifs
  · rfl
  · rw [List.flatMap_append, List.flatMap_singleton]
    rfl

theorem left_concat (actions : List (Action α)) (action : Action α) :
    left (actions ++ [action]) =
      if action.clears then 0 else left actions + action.count := by
  rw [left, recent_concat]
  split_ifs
  · rfl
  · rw [List.map_append, List.sum_append, List.map_singleton,
      List.sum_singleton]
    rfl

end Action

open BoundedQueue.Action

/-- What is in the queue came in last and has not gone out. -/
theorem contents_of_run {capacity : Nat} {actions : List (Action α)}
    {queue : BoundedQueue α}
    (ran : machine.run (empty capacity) actions = some queue) :
    left actions ≤ (entered actions).length ∧
      queue.contents = (entered actions).drop (left actions) := by
  induction actions using List.reverseRecOn generalizing queue with
  | nil =>
      cases ran
      exact ⟨Nat.le_refl 0, rfl⟩
  | append_singleton actions action ih =>
      rw [Machine.run_append] at ran
      rcases Option.bind_eq_some_iff.1 ran with ⟨before, ran, last⟩
      rcases ih ran with ⟨fewer, contents⟩
      rcases Machine.run_cons_eq_some.1 last with ⟨after, stepped, last⟩
      cases last
      rw [entered_concat, left_concat]
      have stepped : step before action = some queue := stepped
      cases action with
      | enqueue symbols =>
          rw [step] at stepped
          split_ifs at stepped
          cases stepped
          constructor
          · show left actions + 0 ≤ (entered actions ++ symbols).length
            rw [List.length_append]
            exact Nat.le_add_right_of_le fewer
          · show before.contents ++ symbols =
              (entered actions ++ symbols).drop (left actions)
            rw [contents, List.drop_append_of_le_length fewer]
      | dequeue n =>
          rw [step] at stepped
          split_ifs at stepped with available
          cases stepped
          rw [contents, List.length_drop] at available
          constructor
          · show left actions + n ≤ (entered actions ++ []).length
            rw [List.append_nil]
            exact Nat.add_le_of_le_sub' fewer available
          · show before.contents.drop n =
              (entered actions ++ []).drop (left actions + n)
            rw [contents, List.drop_drop, List.append_nil]
      | clear =>
          cases stepped
          exact ⟨Nat.le_refl 0, rfl⟩
      | grow capacity =>
          cases stepped
          constructor
          · show left actions + 0 ≤ (entered actions ++ []).length
            rw [List.append_nil]
            exact fewer
          · show before.contents =
              (entered actions ++ []).drop (left actions + 0)
            rw [contents, List.append_nil]
            rfl

end BoundedQueue
