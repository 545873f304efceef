import Mathlib.Logic.Function.Basic
import Cppws.Core.RecordedQueue
import Cppws.Foundation.ConditionVariable
import Cppws.Foundation.Machine

/-!
# A queue shared by threads

`TaskQueue` with its two condition variables.  A step is one section that holds
the mutex, from where a thread acquires it up to where it returns or goes to
sleep; all notifications are sent inside such sections.  A thread that has been
notified, or wakes up by itself, acquires the mutex in a later step, and other
threads may come in between.
-/

namespace Cppws.Core

/-- Where a thread is. -/
inductive QueueCall (T : Type) where
  | outside
  /-- In `push`, waiting for `not_full_`. -/
  | pushing (item : T)
  /-- In `pop`, waiting for `not_empty_`. -/
  | popping

structure SharedQueue (Thread T : Type) [DecidableEq Thread] where
  recorded : RecordedQueue T := {}
  notEmpty : ConditionVariable Thread := {}
  notFull : ConditionVariable Thread := {}
  calls : Thread → QueueCall T := fun _ => .outside

namespace SharedQueue

variable {Thread T : Type} [DecidableEq Thread]

/-- With the thread that `notify_one` chooses, should the section call it. -/
inductive Action (Thread T : Type) where
  | push (thread : Thread) (item : T) (choice : Option Thread)
  | tryPush (thread : Thread) (item : T) (choice : Option Thread)
  | pop (thread : Thread) (choice : Option Thread)
  | tryPop (thread : Thread) (choice : Option Thread)
  | close (thread : Thread)
  /-- A thread wakes up without having been notified. -/
  | spurious (thread : Thread)
  /-- A thread that is awake acquires the mutex and looks again. -/
  | resume (thread : Thread) (choice : Option Thread)

/-- The call the thread is in from now on. -/
def place (shared : SharedQueue Thread T) (thread : Thread)
    (call : QueueCall T) : SharedQueue Thread T :=
  { shared with calls := Function.update shared.calls thread call }

/-- A queue that has taken an item. -/
def notifyConsumer (shared : SharedQueue Thread T)
    (choice : Option Thread) : Option (SharedQueue Thread T) :=
  (shared.notEmpty.notifyOne choice).map fun notEmpty =>
    { shared with notEmpty := notEmpty }

/-- A queue that has given an item away. -/
def notifyProducer (shared : SharedQueue Thread T)
    (choice : Option Thread) : Option (SharedQueue Thread T) :=
  (shared.notFull.notifyOne choice).map fun notFull =>
    { shared with notFull := notFull }

/-- `push` from where the mutex is acquired. -/
def push (shared : SharedQueue Thread T) (thread : Thread) (item : T)
    (choice : Option Thread) : Option (SharedQueue Thread T) :=
  match shared.recorded.push item with
  | none =>
      some
        ({ shared with notFull := shared.notFull.sleep thread }.place thread
          (.pushing item))
  | some (recorded, false) =>
      some ({ shared with recorded := recorded }.place thread .outside)
  | some (recorded, true) =>
      ({ shared with recorded := recorded }.place thread
        .outside).notifyConsumer choice

def tryPush (shared : SharedQueue Thread T) (item : T)
    (choice : Option Thread) : Option (SharedQueue Thread T) :=
  match shared.recorded.tryPush item with
  | (recorded, false) => some { shared with recorded := recorded }
  | (recorded, true) =>
      { shared with recorded := recorded }.notifyConsumer choice

/-- `pop` from where the mutex is acquired. -/
def pop (shared : SharedQueue Thread T) (thread : Thread)
    (choice : Option Thread) : Option (SharedQueue Thread T) :=
  match shared.recorded.pop with
  | none =>
      some
        ({ shared with notEmpty := shared.notEmpty.sleep thread }.place thread
          .popping)
  | some (recorded, none) =>
      some ({ shared with recorded := recorded }.place thread .outside)
  | some (recorded, some _) =>
      ({ shared with recorded := recorded }.place thread
        .outside).notifyProducer choice

def tryPop (shared : SharedQueue Thread T) (choice : Option Thread) :
    Option (SharedQueue Thread T) :=
  match shared.recorded.tryPop with
  | (recorded, none) => some { shared with recorded := recorded }
  | (recorded, some _) =>
      { shared with recorded := recorded }.notifyProducer choice

def close (shared : SharedQueue Thread T) : SharedQueue Thread T :=
  { shared with
    recorded := shared.recorded.close
    notEmpty := shared.notEmpty.notifyAll
    notFull := shared.notFull.notifyAll }

def step (shared : SharedQueue Thread T) :
    Action Thread T → Option (SharedQueue Thread T)
  | .push thread item choice =>
      match shared.calls thread with
      | .outside => shared.push thread item choice
      | _ => none
  | .tryPush thread item choice =>
      match shared.calls thread with
      | .outside => shared.tryPush item choice
      | _ => none
  | .pop thread choice =>
      match shared.calls thread with
      | .outside => shared.pop thread choice
      | _ => none
  | .tryPop thread choice =>
      match shared.calls thread with
      | .outside => shared.tryPop choice
      | _ => none
  | .close thread =>
      match shared.calls thread with
      | .outside => some shared.close
      | _ => none
  | .spurious thread =>
      if thread ∈ shared.notEmpty.sleeping then
        some { shared with notEmpty := shared.notEmpty.stir thread }
      else if thread ∈ shared.notFull.sleeping then
        some { shared with notFull := shared.notFull.stir thread }
      else
        none
  | .resume thread choice =>
      match shared.calls thread with
      | .outside => none
      | .pushing item =>
          if thread ∈ shared.notFull.notified ∪ shared.notFull.stirred then
            { shared with notFull := shared.notFull.leave thread }.push thread
              item choice
          else
            none
      | .popping =>
          if thread ∈
              shared.notEmpty.notified ∪ shared.notEmpty.stirred then
            { shared with notEmpty := shared.notEmpty.leave thread }.pop thread
              choice
          else
            none

def machine (Thread T : Type) [DecidableEq Thread] :
    Machine (SharedQueue Thread T) (Action Thread T) where
  step := step

def start (capacity : Nat) : SharedQueue Thread T where
  recorded := { tasks := { capacity := capacity } }

/-! ## What a step is -/

/-- The section that a step executes, and where its thread comes from. -/
inductive Effect (before after : SharedQueue Thread T) : Prop where
  | push (thread : Thread) (item : T) (choice : Option Thread)
      (pushed : before.push thread item choice = some after)
  | tryPush (item : T) (choice : Option Thread)
      (pushed : before.tryPush item choice = some after)
  | pop (thread : Thread) (choice : Option Thread)
      (popped : before.pop thread choice = some after)
  | tryPop (choice : Option Thread) (popped : before.tryPop choice = some after)
  | close (closes : after = before.close)
  | stirsConsumer (thread : Thread)
      (stirs : after = { before with notEmpty := before.notEmpty.stir thread })
  | stirsProducer (thread : Thread)
      (stirs : after = { before with notFull := before.notFull.stir thread })
  /-- A producer looks again. -/
  | pushAgain (thread : Thread) (item : T) (choice : Option Thread)
      (pushed :
        { before with notFull := before.notFull.leave thread }.push thread item
          choice = some after)
  /-- A consumer looks again. -/
  | popAgain (thread : Thread) (choice : Option Thread)
      (popped :
        { before with notEmpty := before.notEmpty.leave thread }.pop thread
          choice = some after)

theorem step_effect {before after : SharedQueue Thread T}
    {action : Action Thread T} (stepped : before.step action = some after) :
    Effect before after := by
  cases action with
  | push thread item choice =>
      simp only [step] at stepped
      split at stepped
      case h_1 => exact .push thread item choice stepped
      case h_2 => cases stepped
  | tryPush thread item choice =>
      simp only [step] at stepped
      split at stepped
      case h_1 => exact .tryPush item choice stepped
      case h_2 => cases stepped
  | pop thread choice =>
      simp only [step] at stepped
      split at stepped
      case h_1 => exact .pop thread choice stepped
      case h_2 => cases stepped
  | tryPop thread choice =>
      simp only [step] at stepped
      split at stepped
      case h_1 => exact .tryPop choice stepped
      case h_2 => cases stepped
  | close thread =>
      simp only [step] at stepped
      split at stepped
      case h_1 =>
        cases stepped
        exact .close rfl
      case h_2 => cases stepped
  | spurious thread =>
      simp only [step] at stepped
      split_ifs at stepped
      · cases stepped
        exact .stirsConsumer thread rfl
      · cases stepped
        exact .stirsProducer thread rfl
  | resume thread choice =>
      simp only [step] at stepped
      split at stepped
      case h_1 => cases stepped
      case h_2 item _ =>
        split_ifs at stepped
        exact .pushAgain thread item choice stepped
      case h_3 =>
        split_ifs at stepped
        exact .popAgain thread choice stepped

/-! ## What a step does to the queue -/

theorem notifyConsumer_recorded {shared after : SharedQueue Thread T}
    {choice : Option Thread}
    (notified : shared.notifyConsumer choice = some after) :
    after.recorded = shared.recorded := by
  rcases Option.map_eq_some_iff.1 notified with ⟨notEmpty, _, rfl⟩
  rfl

theorem notifyProducer_recorded {shared after : SharedQueue Thread T}
    {choice : Option Thread}
    (notified : shared.notifyProducer choice = some after) :
    after.recorded = shared.recorded := by
  rcases Option.map_eq_some_iff.1 notified with ⟨notFull, _, rfl⟩
  rfl

theorem push_section {shared after : SharedQueue Thread T} {thread : Thread}
    {item : T} {choice : Option Thread}
    (pushed : shared.push thread item choice = some after) :
    RecordedQueue.Section shared.recorded after.recorded := by
  unfold push at pushed
  split at pushed
  case h_1 =>
    cases pushed
    exact .none rfl
  case h_2 recorded refused =>
    cases pushed
    exact .push item false refused
  case h_3 recorded accepted =>
    rw [notifyConsumer_recorded pushed]
    exact .push item true accepted

theorem pop_section {shared after : SharedQueue Thread T} {thread : Thread}
    {choice : Option Thread}
    (popped : shared.pop thread choice = some after) :
    RecordedQueue.Section shared.recorded after.recorded := by
  unfold pop at popped
  split at popped
  case h_1 =>
    cases popped
    exact .none rfl
  case h_2 recorded ended =>
    cases popped
    exact .pop none ended
  case h_3 recorded item took =>
    rw [notifyProducer_recorded popped]
    exact .pop (some item) took

theorem tryPush_section {shared after : SharedQueue Thread T} {item : T}
    {choice : Option Thread}
    (pushed : shared.tryPush item choice = some after) :
    RecordedQueue.Section shared.recorded after.recorded := by
  unfold tryPush at pushed
  split at pushed
  case h_1 recorded refused =>
    cases pushed
    exact .tryPush item false refused
  case h_2 recorded accepted =>
    rw [notifyConsumer_recorded pushed]
    exact .tryPush item true accepted

theorem tryPop_section {shared after : SharedQueue Thread T}
    {choice : Option Thread} (popped : shared.tryPop choice = some after) :
    RecordedQueue.Section shared.recorded after.recorded := by
  unfold tryPop at popped
  split at popped
  case h_1 recorded empty =>
    cases popped
    exact .tryPop none empty
  case h_2 recorded item took =>
    rw [notifyProducer_recorded popped]
    exact .tryPop (some item) took

/-- Every step is a section of the queue, or leaves the queue alone. -/
theorem step_section {before after : SharedQueue Thread T}
    {action : Action Thread T} (stepped : before.step action = some after) :
    RecordedQueue.Section before.recorded after.recorded := by
  cases step_effect stepped with
  | push thread item choice pushed => exact push_section pushed
  | tryPush item choice pushed => exact tryPush_section pushed
  | pop thread choice popped => exact pop_section popped
  | tryPop choice popped => exact tryPop_section popped
  | close closes =>
      rw [closes]
      exact .close rfl
  | stirsConsumer thread stirs | stirsProducer thread stirs =>
      rw [stirs]
      exact .none rfl
  | pushAgain thread item choice pushed =>
      have pushes := push_section pushed
      exact pushes
  | popAgain thread choice popped =>
      have pops := pop_section popped
      exact pops

theorem start_consistent (capacity : Nat) :
    (start capacity : SharedQueue Thread T).recorded.Consistent :=
  RecordedQueue.consistent_start { capacity := capacity } rfl rfl

theorem consistent_of_reachable {capacity : Nat}
    {shared : SharedQueue Thread T}
    (reachable : (machine Thread T).Reachable (start capacity) shared) :
    shared.recorded.Consistent ∧
      shared.recorded.tasks.capacity = capacity := by
  constructor
  · exact reachable.invariant
      (fun _ _ _ consistent stepped =>
        RecordedQueue.Consistent.step consistent (step_section stepped))
      (start_consistent capacity)
  · exact reachable.invariant
      (fun _ _ _ same stepped => (step_section stepped).capacity.trans same) rfl

/--
In every reachable state, what has been returned followed by what is queued is
what has been accepted, and the queue keeps its bound; nothing is accepted once
`close` is among the calls that have returned, and `pop` has returned `nullopt`
only after `close` and after everything accepted had been returned.
-/
theorem fifo {capacity : Nat} {shared : SharedQueue Thread T}
    (reachable : (machine Thread T).Reachable (start capacity) shared) :
    shared.recorded.popped ++ shared.recorded.tasks.queue =
        shared.recorded.accepted ∧
      shared.recorded.tasks.queue.length ≤ capacity ∧
      (∀ earlier call, earlier ++ [call] <+: shared.recorded.history →
        call.accepted ≠ none → .close ∉ earlier) ∧
      ∀ earlier, earlier ++ [.pop none] <+: shared.recorded.history →
        .close ∈ earlier ∧
          earlier.filterMap Returned.popped =
            earlier.filterMap Returned.accepted := by
  rcases consistent_of_reachable reachable with ⟨consistent, same⟩
  refine ⟨consistent.balanced, ?_, consistent.sealed, consistent.drained⟩
  exact same ▸ shared.recorded.tasks.bounded

/-- A producer waits for the only place, and the queue is drained and closed. -/
theorem fifo_handover :
    ∃ shared : SharedQueue Nat Nat,
      (machine Nat Nat).run (start 1)
          [.push 0 5 none, .push 1 6 none, .pop 2 (some 1), .resume 1 none,
            .close 3, .push 0 7 none, .tryPop 2 none, .pop 2 none] =
        some shared ∧
        shared.recorded.popped = [5, 6] ∧
        shared.recorded.popped ++ shared.recorded.tasks.queue =
          shared.recorded.accepted := by
  have finishes : ∃ shared : SharedQueue Nat Nat,
      (machine Nat Nat).run (start 1)
          [.push 0 5 none, .push 1 6 none, .pop 2 (some 1), .resume 1 none,
            .close 3, .push 0 7 none, .tryPop 2 none, .pop 2 none] =
        some shared ∧
        shared.recorded.popped = [5, 6] :=
    Option.map_eq_some_iff.1 (by decide)
  rcases finishes with ⟨shared, ran, popped⟩
  exact ⟨shared, ran, popped, (fifo ⟨_, ran⟩).1⟩

/-! ## Nobody sleeps in vain -/

/-- Whoever sleeps is not needed before those that have been notified. -/
structure Awake (tasks : TaskQueue T)
    (notEmpty notFull : ConditionVariable Thread) : Prop where
  consumers : notEmpty.Covers tasks.queue.length
  producers : notFull.Covers (tasks.capacity - tasks.queue.length)
  opened : tasks.closed = true →
    notEmpty.sleeping = ∅ ∧ notFull.sleeping = ∅

section

variable {tasks : TaskQueue T} {notEmpty notFull : ConditionVariable Thread}

theorem Awake.ofOpen (open_ : tasks.closed = false)
    (consumers : notEmpty.Covers tasks.queue.length)
    (producers : notFull.Covers (tasks.capacity - tasks.queue.length)) :
    Awake tasks notEmpty notFull where
  consumers := consumers
  producers := producers
  opened := by
    intro closed
    rw [open_] at closed
    cases closed

theorem Awake.ofNobody (noConsumer : notEmpty.sleeping = ∅)
    (noProducer : notFull.sleeping = ∅) : Awake tasks notEmpty notFull where
  consumers := fun sleeps => absurd noConsumer sleeps.ne_empty
  producers := fun sleeps => absurd noProducer sleeps.ne_empty
  opened := fun _ => ⟨noConsumer, noProducer⟩

/-- An item has come in and a consumer is notified. -/
theorem Awake.accepts {notified : ConditionVariable Thread}
    {choice : Option Thread} {queued : Nat} (open_ : tasks.closed = false)
    (consumers : notEmpty.Covers queued)
    (grown : tasks.queue.length = queued + 1)
    (producers : notFull.Covers (tasks.capacity - (queued + 1)))
    (chosen : notEmpty.notifyOne choice = some notified) :
    Awake tasks notified notFull := by
  apply Awake.ofOpen open_
  · rw [grown]
    exact consumers.notifyOne chosen
  · rw [grown]
    exact producers

/-- An item has gone out and a producer is notified. -/
theorem Awake.gives {notified : ConditionVariable Thread}
    {choice : Option Thread} {queued : Nat}
    (shrunk : queued = tasks.queue.length + 1)
    (consumers : notEmpty.Covers tasks.queue.length)
    (producers : notFull.Covers (tasks.capacity - queued))
    (opened : tasks.closed = true →
      notEmpty.sleeping = ∅ ∧ notFull.sleeping = ∅)
    (chosen : notFull.notifyOne choice = some notified) :
    Awake tasks notEmpty notified := by
  constructor
  · exact consumers
  · refine (producers.notifyOne chosen).mono ?_
    omega
  · intro closed
    rcases opened closed with ⟨noConsumer, noProducer⟩
    refine ⟨noConsumer, Finset.subset_empty.1 ?_⟩
    exact noProducer ▸ ConditionVariable.sleeping_of_notifyOne chosen

end

/-- The two condition variables of the queue lose no wakeup. -/
def LosesNone (shared : SharedQueue Thread T) : Prop :=
  Awake shared.recorded.tasks shared.notEmpty shared.notFull

theorem push_losesNone {shared after : SharedQueue Thread T} {thread : Thread}
    {item : T} {choice : Option Thread}
    (consumers : shared.notEmpty.Covers shared.recorded.tasks.queue.length)
    (producers :
      shared.recorded.tasks.queue.length < shared.recorded.tasks.capacity →
        shared.notFull.Covers
          (shared.recorded.tasks.capacity -
            (shared.recorded.tasks.queue.length + 1)))
    (opened : shared.recorded.tasks.closed = true →
      shared.notEmpty.sleeping = ∅ ∧ shared.notFull.sleeping = ∅)
    (pushed : shared.push thread item choice = some after) :
    after.LosesNone := by
  unfold push at pushed
  split at pushed
  case h_1 blocked =>
    cases pushed
    rcases RecordedQueue.push_eq_none_iff.1 blocked with ⟨full, open_⟩
    refine Awake.ofOpen open_ consumers ?_
    show (shared.notFull.sleep thread).Covers
      (shared.recorded.tasks.capacity - shared.recorded.tasks.queue.length)
    rw [Nat.sub_eq_zero_of_le full]
    exact ConditionVariable.covers_zero _
  case h_2 recorded refused =>
    cases pushed
    rcases TaskQueue.push_eq_some (RecordedQueue.push_tasks refused) with
      ⟨closed, _⟩ | ⟨_, accepted, _⟩
    · rcases opened closed with ⟨noConsumer, noProducer⟩
      exact Awake.ofNobody noConsumer noProducer
    · cases accepted
  case h_3 recorded accepted =>
    rcases Option.map_eq_some_iff.1 pushed with ⟨notEmpty, chosen, rfl⟩
    rcases TaskQueue.push_eq_some (RecordedQueue.push_tasks accepted) with
      ⟨_, refused, _⟩ | ⟨open_, _, room, queue, capacity, closed⟩
    · cases refused
    · refine Awake.accepts (closed.trans open_) consumers ?_ ?_ chosen
      · show recorded.tasks.queue.length = _
        rw [queue, List.length_append, List.length_singleton]
      · show shared.notFull.Covers (recorded.tasks.capacity - _)
        rw [capacity]
        exact producers room

theorem pop_losesNone {shared after : SharedQueue Thread T} {thread : Thread}
    {choice : Option Thread}
    (consumers : ∀ item rest, shared.recorded.tasks.queue = item :: rest →
      shared.notEmpty.Covers rest.length)
    (producers : shared.notFull.Covers
      (shared.recorded.tasks.capacity - shared.recorded.tasks.queue.length))
    (opened : shared.recorded.tasks.closed = true →
      shared.notEmpty.sleeping = ∅ ∧ shared.notFull.sleeping = ∅)
    (popped : shared.pop thread choice = some after) : after.LosesNone := by
  unfold pop at popped
  split at popped
  case h_1 blocked =>
    cases popped
    rcases RecordedQueue.pop_eq_none_iff.1 blocked with ⟨empty, open_⟩
    refine Awake.ofOpen open_ ?_ producers
    show (shared.notEmpty.sleep thread).Covers
      shared.recorded.tasks.queue.length
    rw [empty]
    exact ConditionVariable.covers_zero _
  case h_2 recorded ended =>
    cases popped
    rcases TaskQueue.pop_eq_some (RecordedQueue.pop_tasks ended) with
      ⟨_, took, _⟩ | ⟨_, _, closed, _⟩
    · cases took
    · rcases opened closed with ⟨noConsumer, noProducer⟩
      exact Awake.ofNobody noConsumer noProducer
  case h_3 recorded item took =>
    rcases Option.map_eq_some_iff.1 popped with ⟨notFull, chosen, rfl⟩
    rcases TaskQueue.pop_eq_some (RecordedQueue.pop_tasks took) with
      ⟨_, _, queue, capacity, closed⟩ | ⟨nothing, _⟩
    · refine Awake.gives (congrArg List.length queue)
        (consumers _ _ queue) ?_ ?_ chosen
      · show shared.notFull.Covers (recorded.tasks.capacity - _)
        rw [capacity]
        exact producers
      · exact fun shut => opened (closed.symm.trans shut)
    · cases nothing

theorem tryPush_losesNone {shared after : SharedQueue Thread T} {item : T}
    {choice : Option Thread} (kept : shared.LosesNone)
    (pushed : shared.tryPush item choice = some after) : after.LosesNone := by
  unfold tryPush at pushed
  split at pushed
  case h_1 recorded refused =>
    cases pushed
    rcases TaskQueue.tryPush_eq (RecordedQueue.tryPush_tasks refused) with
      ⟨_, same⟩ | ⟨_, accepted, _⟩
    · show Awake recorded.tasks shared.notEmpty shared.notFull
      exact same ▸ kept
    · cases accepted
  case h_2 recorded accepted =>
    rcases Option.map_eq_some_iff.1 pushed with ⟨notEmpty, chosen, rfl⟩
    rcases TaskQueue.tryPush_eq (RecordedQueue.tryPush_tasks accepted) with
      ⟨refused, _⟩ | ⟨open_, _, queue, capacity, closed⟩
    · cases refused
    · refine Awake.accepts (closed.trans open_) kept.consumers ?_ ?_ chosen
      · show recorded.tasks.queue.length = _
        rw [queue, List.length_append, List.length_singleton]
      · show shared.notFull.Covers (recorded.tasks.capacity - _)
        rw [capacity]
        exact kept.producers.mono (Nat.sub_le_sub_left (Nat.le_succ _) _)

theorem tryPop_losesNone {shared after : SharedQueue Thread T}
    {choice : Option Thread} (kept : shared.LosesNone)
    (popped : shared.tryPop choice = some after) : after.LosesNone := by
  have capacity := shared.recorded.tasks.tryPop_capacity
  have closed := shared.recorded.tasks.tryPop_closed
  unfold tryPop at popped
  split at popped
  case h_1 recorded nothing =>
    cases popped
    have took := RecordedQueue.tryPop_tasks nothing
    have same : shared.recorded.tasks.queue = recorded.tasks.queue :=
      (TaskQueue.tryPop_eq took).1
    rw [took] at capacity closed
    constructor
    · show shared.notEmpty.Covers recorded.tasks.queue.length
      rw [← same]
      exact kept.consumers
    · show shared.notFull.Covers
        (recorded.tasks.capacity - recorded.tasks.queue.length)
      rw [← same, show recorded.tasks.capacity = _ from capacity]
      exact kept.producers
    · exact fun shut => kept.opened (closed.symm.trans shut)
  case h_2 recorded item given =>
    rcases Option.map_eq_some_iff.1 popped with ⟨notFull, chosen, rfl⟩
    have took := RecordedQueue.tryPop_tasks given
    have queue : shared.recorded.tasks.queue = item :: recorded.tasks.queue :=
      (TaskQueue.tryPop_eq took).1
    rw [took] at capacity closed
    refine Awake.gives (congrArg List.length queue)
      (kept.consumers.mono ?_) ?_ ?_ chosen
    · rw [queue]
      exact Nat.le_succ _
    · show shared.notFull.Covers (recorded.tasks.capacity - _)
      rw [show recorded.tasks.capacity = _ from capacity]
      exact kept.producers
    · exact fun shut => kept.opened (closed.symm.trans shut)

theorem step_losesNone {before after : SharedQueue Thread T}
    {action : Action Thread T} (kept : before.LosesNone)
    (stepped : before.step action = some after) : after.LosesNone := by
  have still : ∀ (thread : Thread) (condition : ConditionVariable Thread),
      condition.sleeping = ∅ → (condition.stir thread).sleeping = ∅ := by
    intro thread condition nobody
    show condition.sleeping.erase thread = ∅
    rw [nobody, Finset.erase_empty]
  cases step_effect stepped with
  | push thread item choice pushed =>
      refine push_losesNone kept.consumers (fun _ => ?_) kept.opened pushed
      exact kept.producers.mono (Nat.sub_le_sub_left (Nat.le_succ _) _)
  | tryPush item choice pushed => exact tryPush_losesNone kept pushed
  | pop thread choice popped =>
      refine pop_losesNone (fun item rest queued => ?_) kept.producers
        kept.opened popped
      refine kept.consumers.mono ?_
      rw [queued]
      exact Nat.le_succ _
  | tryPop choice popped => exact tryPop_losesNone kept popped
  | close closes =>
      rw [closes]
      constructor
      · exact ConditionVariable.covers_notifyAll _ _
      · exact ConditionVariable.covers_notifyAll _ _
      · exact fun _ => ⟨rfl, rfl⟩
  | stirsConsumer thread stirs =>
      rw [stirs]
      constructor
      · exact kept.consumers.stir thread
      · exact kept.producers
      · exact fun shut => (kept.opened shut).imp_left (still thread _)
  | stirsProducer thread stirs =>
      rw [stirs]
      constructor
      · exact kept.consumers
      · exact kept.producers.stir thread
      · exact fun shut => (kept.opened shut).imp_right (still thread _)
  -- Who looks again had been counted among the notified ones.
  | pushAgain thread item choice pushed =>
      refine push_losesNone ?_ (fun room => ?_) ?_ pushed
      · exact kept.consumers
      · have counted : before.recorded.tasks.capacity -
              (before.recorded.tasks.queue.length + 1) + 1 =
            before.recorded.tasks.capacity -
              before.recorded.tasks.queue.length :=
          Nat.sub_add_cancel (Nat.sub_pos_of_lt room)
        exact ConditionVariable.Covers.leave (counted ▸ kept.producers) thread
      · exact kept.opened
  | popAgain thread choice popped =>
      refine pop_losesNone (fun item rest queued => ?_) ?_ ?_ popped
      · have counted : before.recorded.tasks.queue.length = rest.length + 1 :=
          congrArg List.length queued
        exact ConditionVariable.Covers.leave (counted ▸ kept.consumers) thread
      · exact kept.producers
      · exact kept.opened

/--
In every reachable state, if a consumer sleeps, the queue is not closed and at
least as many consumers have been notified as there are items; if a producer
sleeps, the queue is not closed and at least as many producers have been
notified as there are free places.
-/
theorem no_wakeup_lost {capacity : Nat} {shared : SharedQueue Thread T}
    (reachable : (machine Thread T).Reachable (start capacity) shared) :
    (∀ thread ∈ shared.notEmpty.sleeping,
        shared.recorded.tasks.closed = false ∧
          shared.recorded.tasks.queue.length ≤
            shared.notEmpty.notified.card) ∧
      ∀ thread ∈ shared.notFull.sleeping,
        shared.recorded.tasks.closed = false ∧
          capacity - shared.recorded.tasks.queue.length ≤
            shared.notFull.notified.card := by
  have same := (consistent_of_reachable reachable).2
  have awake : shared.LosesNone :=
    reachable.invariant (fun _ _ _ kept stepped => step_losesNone kept stepped)
      (Awake.ofNobody rfl rfl)
  constructor
  · intro thread sleeps
    refine ⟨Bool.eq_false_iff.2 fun closed => ?_,
      awake.consumers ⟨thread, sleeps⟩⟩
    rw [(awake.opened closed).1] at sleeps
    exact absurd sleeps (Finset.notMem_empty thread)
  · intro thread sleeps
    refine ⟨Bool.eq_false_iff.2 fun closed => ?_,
      same ▸ awake.producers ⟨thread, sleeps⟩⟩
    rw [(awake.opened closed).2] at sleeps
    exact absurd sleeps (Finset.notMem_empty thread)

/-- Two consumers sleep and an item arrives for one of them. -/
theorem no_wakeup_lost_pair :
    ∃ shared : SharedQueue Nat Nat,
      (machine Nat Nat).run (start 4)
          [.pop 0 none, .pop 1 none, .push 2 5 (some 0)] = some shared ∧
        shared.notEmpty.sleeping = {1} ∧
        shared.recorded.tasks.queue = [5] ∧
        shared.recorded.tasks.queue.length ≤
          shared.notEmpty.notified.card := by
  have finishes : ∃ shared : SharedQueue Nat Nat,
      (machine Nat Nat).run (start 4)
          [.pop 0 none, .pop 1 none, .push 2 5 (some 0)] = some shared ∧
        (shared.notEmpty.sleeping, shared.recorded.tasks.queue) =
          (({1}, [5]) : Finset Nat × List Nat) :=
    Option.map_eq_some_iff.1 (by decide)
  rcases finishes with ⟨shared, ran, found⟩
  rcases Prod.mk.inj found with ⟨sleeping, queue⟩
  have sleeps : 1 ∈ shared.notEmpty.sleeping := by
    rw [sleeping]
    exact Finset.mem_singleton_self 1
  have enough := (no_wakeup_lost ⟨_, ran⟩).1 1 sleeps
  exact ⟨shared, ran, sleeping, queue, enough.2⟩

end SharedQueue

end Cppws.Core
