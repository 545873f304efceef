import Cppws.Core.TaskQueue

/-!
# What a queue has returned

The sections of `TaskQueue` with the record of all calls that have returned, in
the order in which they held the mutex.
-/

namespace Cppws.Core

/-- A call that has returned, and what it returned. -/
inductive Returned (T : Type) where
  | push (item : T) (accepted : Bool)
  | tryPush (item : T) (accepted : Bool)
  | pop (popped : Option T)
  | tryPop (popped : Option T)
  | close
deriving DecidableEq

namespace Returned

variable {T : Type}

/-- The item the queue has taken from the caller. -/
def accepted : Returned T → Option T
  | .push item true => some item
  | .tryPush item true => some item
  | _ => none

/-- The item the caller has taken from the queue. -/
def popped : Returned T → Option T
  | .pop item => item
  | .tryPop item => item
  | _ => none

end Returned

structure RecordedQueue (T : Type) where
  tasks : TaskQueue T := {}
  history : List (Returned T) := []

namespace RecordedQueue

variable {T : Type}

def accepted (recorded : RecordedQueue T) : List T :=
  recorded.history.filterMap Returned.accepted

def popped (recorded : RecordedQueue T) : List T :=
  recorded.history.filterMap Returned.popped

def record (recorded : RecordedQueue T) (tasks : TaskQueue T)
    (call : Returned T) : RecordedQueue T where
  tasks := tasks
  history := recorded.history ++ [call]

def push (recorded : RecordedQueue T) (item : T) :
    Option (RecordedQueue T × Bool) :=
  (recorded.tasks.push item).map fun pushed =>
    (recorded.record pushed.1 (.push item pushed.2), pushed.2)

def tryPush (recorded : RecordedQueue T) (item : T) : RecordedQueue T × Bool :=
  let pushed := recorded.tasks.tryPush item
  (recorded.record pushed.1 (.tryPush item pushed.2), pushed.2)

def pop (recorded : RecordedQueue T) : Option (RecordedQueue T × Option T) :=
  recorded.tasks.pop.map fun popped =>
    (recorded.record popped.1 (.pop popped.2), popped.2)

def tryPop (recorded : RecordedQueue T) : RecordedQueue T × Option T :=
  let popped := recorded.tasks.tryPop
  (recorded.record popped.1 (.tryPop popped.2), popped.2)

def close (recorded : RecordedQueue T) : RecordedQueue T :=
  recorded.record recorded.tasks.close .close

theorem push_tasks {recorded after : RecordedQueue T} {item : T}
    {accepted : Bool} (pushed : recorded.push item = some (after, accepted)) :
    recorded.tasks.push item = some (after.tasks, accepted) := by
  rcases Option.map_eq_some_iff.1 pushed with
    ⟨⟨tasks, taken⟩, done, same⟩
  cases same
  exact done

theorem push_eq_none_iff {recorded : RecordedQueue T} {item : T} :
    recorded.push item = none ↔ recorded.tasks.Full :=
  Option.map_eq_none_iff.trans TaskQueue.push_eq_none_iff

theorem tryPush_tasks {recorded after : RecordedQueue T} {item : T}
    {accepted : Bool} (pushed : recorded.tryPush item = (after, accepted)) :
    recorded.tasks.tryPush item = (after.tasks, accepted) := by
  cases pushed
  rfl

theorem pop_tasks {recorded after : RecordedQueue T} {popped : Option T}
    (took : recorded.pop = some (after, popped)) :
    recorded.tasks.pop = some (after.tasks, popped) := by
  rcases Option.map_eq_some_iff.1 took with ⟨⟨tasks, taken⟩, done, same⟩
  cases same
  exact done

theorem pop_eq_none_iff {recorded : RecordedQueue T} :
    recorded.pop = none ↔
      recorded.tasks.queue = [] ∧ recorded.tasks.closed = false :=
  Option.map_eq_none_iff.trans TaskQueue.pop_eq_none_iff

theorem tryPop_tasks {recorded after : RecordedQueue T} {popped : Option T}
    (took : recorded.tryPop = (after, popped)) :
    recorded.tasks.tryPop = (after.tasks, popped) := by
  cases took
  rfl

/-- What one section, or none, makes of the queue. -/
inductive Section (before after : RecordedQueue T) : Prop where
  | none (same : after = before)
  | push (item : T) (accepted : Bool)
      (done : before.push item = some (after, accepted))
  | tryPush (item : T) (accepted : Bool)
      (done : before.tryPush item = (after, accepted))
  | pop (item : Option T) (done : before.pop = some (after, item))
  | tryPop (item : Option T) (done : before.tryPop = (after, item))
  | close (done : before.close = after)

/-- What the record says about the queue. -/
structure Consistent (recorded : RecordedQueue T) : Prop where
  /-- First in, first out; nothing is lost and nothing comes twice. -/
  balanced : recorded.popped ++ recorded.tasks.queue = recorded.accepted
  shut : recorded.tasks.closed = true ↔ .close ∈ recorded.history
  /-- No item is accepted after `close`. -/
  sealed : ∀ earlier call, earlier ++ [call] <+: recorded.history →
    call.accepted ≠ none → .close ∉ earlier
  /-- `pop` gives up when the queue is closed and has returned everything. -/
  drained : ∀ earlier, earlier ++ [.pop none] <+: recorded.history →
    .close ∈ earlier ∧
      earlier.filterMap Returned.popped = earlier.filterMap Returned.accepted

theorem Consistent.record {recorded : RecordedQueue T}
    (consistent : recorded.Consistent) {tasks : TaskQueue T} {call : Returned T}
    (moved : call.popped.toList ++ tasks.queue =
      recorded.tasks.queue ++ call.accepted.toList)
    (shut : tasks.closed = true ↔
      recorded.tasks.closed = true ∨ call = .close)
    (opened : call.accepted ≠ none → recorded.tasks.closed = false)
    (ended : call = .pop none →
      recorded.tasks.closed = true ∧ recorded.tasks.queue = []) :
    (recorded.record tasks call).Consistent where
  balanced := by
    have last : ∀ select : Returned T → Option T,
        (recorded.history ++ [call]).filterMap select =
          recorded.history.filterMap select ++ (select call).toList := by
      intro select
      rw [List.filterMap_append]
      cases chosen : select call <;> simp [chosen]
    show List.filterMap _ (_ ++ [call]) ++ tasks.queue =
      List.filterMap _ (_ ++ [call])
    rw [last, last, List.append_assoc, moved, ← List.append_assoc]
    exact congrArg (· ++ call.accepted.toList) consistent.balanced
  shut := by
    show tasks.closed = true ↔ _ ∈ recorded.history ++ [call]
    rw [shut, consistent.shut, List.mem_append, List.mem_singleton]
    exact or_congr_right eq_comm
  sealed := by
    intro earlier last before accepts
    rcases List.prefix_concat_iff.1 before with whole | before
    · rcases List.append_inj' whole rfl with ⟨rfl, last⟩
      cases last
      rw [← consistent.shut, opened accepts]
      exact Bool.false_ne_true
    · exact consistent.sealed earlier last before accepts
  drained := by
    intro earlier before
    rcases List.prefix_concat_iff.1 before with whole | before
    · rcases List.append_inj' whole rfl with ⟨rfl, last⟩
      cases last
      rcases ended rfl with ⟨closed, empty⟩
      have balanced := consistent.balanced
      rw [empty, List.append_nil] at balanced
      exact ⟨consistent.shut.1 closed, balanced⟩
    · exact consistent.drained earlier before

theorem Consistent.step {before after : RecordedQueue T}
    (consistent : before.Consistent) (stepped : Section before after) :
    after.Consistent := by
  cases stepped with
  | none same => exact same ▸ consistent
  | push item accepted done =>
      rcases Option.map_eq_some_iff.1 done with
        ⟨⟨tasks, taken⟩, pushed, same⟩
      cases same
      rcases TaskQueue.push_eq_some pushed with
        ⟨_, rfl, rfl⟩ | ⟨opened, rfl, _, queue, _, closed⟩
      · apply consistent.record
        · exact (List.append_nil _).symm
        · simp
        · exact fun accepts => absurd rfl accepts
        · exact fun same => by cases same
      · apply consistent.record
        · exact queue
        · simp [closed]
        · exact fun _ => opened
        · exact fun same => by cases same
  | tryPush item accepted done =>
      rcases pushed : before.tasks.tryPush item with ⟨tasks, taken⟩
      simp only [RecordedQueue.tryPush, pushed] at done
      cases done
      rcases TaskQueue.tryPush_eq pushed with
        ⟨rfl, rfl⟩ | ⟨opened, rfl, queue, _, closed⟩
      · apply consistent.record
        · exact (List.append_nil _).symm
        · simp
        · exact fun accepts => absurd rfl accepts
        · exact fun same => by cases same
      · apply consistent.record
        · exact queue
        · simp [closed]
        · exact fun _ => opened
        · exact fun same => by cases same
  | pop item done =>
      rcases Option.map_eq_some_iff.1 done with
        ⟨⟨tasks, taken⟩, popped, same⟩
      cases same
      rcases TaskQueue.pop_eq_some popped with
        ⟨item, rfl, queue, _, closed⟩ | ⟨rfl, empty, closed, rfl⟩
      · apply consistent.record
        · exact queue ▸ (List.append_nil before.tasks.queue).symm
        · simp [closed]
        · exact fun accepts => absurd rfl accepts
        · exact fun same => by cases same
      · apply consistent.record
        · exact (List.append_nil _).symm
        · simp
        · exact fun accepts => absurd rfl accepts
        · exact fun _ => ⟨closed, empty⟩
  | tryPop item done =>
      cases done
      apply consistent.record
      · rw [← (TaskQueue.tryPop_eq
          (rfl : before.tasks.tryPop = (_, _))).1.symm]
        exact (List.append_nil _).symm
      · rw [TaskQueue.tryPop_closed]
        simp
      · exact fun accepts => absurd rfl accepts
      · exact fun same => by cases same
  | close done =>
      cases done
      apply consistent.record
      · exact (List.append_nil _).symm
      · simp [TaskQueue.close]
      · exact fun accepts => absurd rfl accepts
      · exact fun same => by cases same

theorem Section.capacity {before after : RecordedQueue T}
    (stepped : Section before after) :
    after.tasks.capacity = before.tasks.capacity := by
  cases stepped with
  | none same => rw [same]
  | push item accepted done => exact TaskQueue.push_capacity (push_tasks done)
  | tryPush item accepted done =>
      rcases TaskQueue.tryPush_eq (tryPush_tasks done) with
        ⟨_, same⟩ | ⟨_, _, _, same, _⟩
      · rw [same]
      · exact same
  | pop item done =>
      rcases TaskQueue.pop_eq_some (pop_tasks done) with
        ⟨_, _, _, same, _⟩ | ⟨_, _, _, same⟩
      · exact same
      · rw [same]
  | tryPop item done =>
      have same := before.tasks.tryPop_capacity
      rw [tryPop_tasks done] at same
      exact same
  | close done => exact done ▸ rfl

/-- What is closed and empty stays so. -/
theorem Section.ended {before after : RecordedQueue T}
    (stepped : Section before after)
    (ended : before.tasks.closed = true ∧ before.tasks.queue = []) :
    after.tasks.closed = true ∧ after.tasks.queue = [] := by
  rcases ended with ⟨shut, empty⟩
  cases stepped with
  | none same => exact same ▸ ⟨shut, empty⟩
  | push item accepted done =>
      rcases TaskQueue.push_eq_some (push_tasks done) with
        ⟨_, _, same⟩ | ⟨opened, _⟩
      · exact same ▸ ⟨shut, empty⟩
      · cases shut.symm.trans opened
  | tryPush item accepted done =>
      rcases TaskQueue.tryPush_eq (tryPush_tasks done) with
        ⟨_, same⟩ | ⟨opened, _⟩
      · exact same ▸ ⟨shut, empty⟩
      · cases shut.symm.trans opened
  | pop item done =>
      rcases TaskQueue.pop_eq_some (pop_tasks done) with
        ⟨_, _, queue, _⟩ | ⟨_, _, _, same⟩
      · cases empty.symm.trans queue
      · exact same ▸ ⟨shut, empty⟩
  | tryPop item done =>
      have same := tryPop_tasks done
      rw [TaskQueue.tryPop_of_nil empty, Prod.mk.injEq] at same
      exact same.1 ▸ ⟨shut, empty⟩
  | close done => exact done ▸ ⟨rfl, empty⟩

/-- Only `pop` and `try_pop` return items. -/
theorem push_popped {recorded after : RecordedQueue T} {item : T}
    {accepted : Bool} (pushed : recorded.push item = some (after, accepted)) :
    after.popped = recorded.popped := by
  rcases Option.map_eq_some_iff.1 pushed with ⟨⟨tasks, taken⟩, _, same⟩
  cases same
  show List.filterMap _ (_ ++ [_]) = _
  rw [List.filterMap_append]
  exact List.append_nil _

theorem tryPush_popped (recorded : RecordedQueue T) (item : T) :
    (recorded.tryPush item).1.popped = recorded.popped := by
  show List.filterMap _ (_ ++ [_]) = _
  rw [List.filterMap_append]
  exact List.append_nil _

theorem close_popped (recorded : RecordedQueue T) :
    recorded.close.popped = recorded.popped := by
  show List.filterMap _ (_ ++ [_]) = _
  rw [List.filterMap_append]
  exact List.append_nil _

theorem pop_popped {recorded after : RecordedQueue T} {item : Option T}
    (took : recorded.pop = some (after, item)) :
    after.popped = recorded.popped ++ item.toList := by
  rcases Option.map_eq_some_iff.1 took with ⟨⟨tasks, taken⟩, _, same⟩
  cases same
  show List.filterMap _ (_ ++ [_]) = _
  rw [List.filterMap_append]
  cases taken <;> rfl

theorem consistent_start (tasks : TaskQueue T) (empty : tasks.queue = [])
    (opened : tasks.closed = false) :
    ({ tasks := tasks } : RecordedQueue T).Consistent where
  balanced := empty
  shut := by simp [opened]
  sealed := by
    intro earlier call before
    cases List.prefix_nil.1 before |> List.append_eq_nil_iff.1 |>.2
  drained := by
    intro earlier before
    cases List.prefix_nil.1 before |> List.append_eq_nil_iff.1 |>.2

end RecordedQueue

end Cppws.Core
