import Cppws.Foundation.Machine
import Cppws.Core.TaskQueue

/-!
# The event-loop thread and the worker threads

The threads of the server and the two queues between them, as a machine.  The
event loop recognises requests and parse errors in the read callback of
`main.cpp`, pushes a task or an error response, drains `pending_writes_` on a
wakeup, and shuts the pool down when it leaves its loop.  A worker runs
`worker_loop` of `core/thread_pool.cpp` with the task of `main.cpp`: it pops a
task, runs it, and posts its response unless the handler throws.  A thread
that waits in `push` or `pop` has no enabled step.

What a connection is does not matter here: a job stands for a request together
with the response to it, and is known by its connection and its number among
the requests recognised on that connection.
-/

namespace Cppws.Core

/-- A request of a connection, or the response that answers it. -/
structure Job where
  conn : Nat
  seq : Nat
deriving DecidableEq

/-- Where a worker is in `worker_loop`. -/
inductive Worker where
  /-- In `queue_.pop()`. -/
  | popping
  /-- In the task, before it calls `post_response`. -/
  | running (job : Job)
  /-- In `pending_writes_.push()`. -/
  | posting (job : Job)
  | exited
deriving DecidableEq

/-- Where the event loop is. -/
inductive Loop where
  /-- In `epoll_.wait()` or between two actions on an event. -/
  | polling
  /-- In `drain_pending_writes()`. -/
  | draining
  /-- In `queue_.push()` of the thread pool. -/
  | submitting (job : Job)
  /-- In `pending_writes_.push()`, for a parse error. -/
  | posting (job : Job)
  /-- In `ThreadPool::shutdown()`, after `queue_.close()`. -/
  | joining
  | returned
deriving DecidableEq

structure Threads where
  tasks : TaskQueue Job
  pendingWrites : TaskQueue Job
  workers : List Worker
  loop : Loop
  running : Bool
  /-- How many requests each connection's read callback has recognised. -/
  recognised : Nat → Nat
  /-- Everything pushed to `pending_writes_`, in the order of the pushes. -/
  posted : List Job

/-- What a thread does next. -/
inductive Action where
  /-- The read callback gets `Complete` and calls `submit`. -/
  | recognise (conn : Nat)
  /-- The read callback gets `Error` and calls `post_response`. -/
  | parseError (conn : Nat)
  /-- The event loop's `push` goes through. -/
  | loopPush
  /-- The wakeup event is handled. -/
  | wakeup
  /-- One `try_pop` of `drain_pending_writes`. -/
  | drain
  /-- `stop()`. -/
  | stop
  /-- The loop condition is false: `shutdown()` closes the task queue. -/
  | leave
  /-- Every worker has been joined. -/
  | join
  /-- A worker's `pop` goes through. -/
  | pop (worker : Nat)
  /-- A task has its response, or throws before it has one. -/
  | dispatch (worker : Nat) (throws : Bool)
  /-- A worker's `post_response` goes through. -/
  | post (worker : Nat)

namespace Threads

/-- The threads when `EventLoop::run()` starts. -/
def start (workers : Nat) : Threads where
  tasks := {}
  pendingWrites := {}
  workers := List.replicate workers .popping
  loop := .polling
  running := true
  recognised := fun _ => 0
  posted := []

/-- The next request of a connection. -/
def nextJob (threads : Threads) (conn : Nat) : Job :=
  { conn, seq := threads.recognised conn }

def recognise (threads : Threads) (conn : Nat) : Nat → Nat :=
  Function.update threads.recognised conn (threads.recognised conn + 1)

def step (threads : Threads) : Action → Option Threads
  | .recognise conn =>
      if threads.loop = .polling then
        some
          { threads with
            loop := .submitting (threads.nextJob conn)
            recognised := threads.recognise conn }
      else
        none
  | .parseError conn =>
      if threads.loop = .polling then
        some
          { threads with
            loop := .posting (threads.nextJob conn)
            recognised := threads.recognise conn }
      else
        none
  | .loopPush =>
      match threads.loop with
      | .submitting job =>
          (threads.tasks.push job).map fun pushed =>
            { threads with tasks := pushed.1, loop := .polling }
      | .posting job =>
          (threads.pendingWrites.push job).map fun pushed =>
            { threads with
              pendingWrites := pushed.1
              posted :=
                if pushed.2 then threads.posted ++ [job] else threads.posted
              loop := .polling }
      | _ => none
  | .wakeup =>
      if threads.loop = .polling then
        some { threads with loop := .draining }
      else
        none
  | .drain =>
      if threads.loop = .draining then
        match threads.pendingWrites.tryPop with
        | (rest, some _) => some { threads with pendingWrites := rest }
        | (_, none) => some { threads with loop := .polling }
      else
        none
  | .stop => some { threads with running := false }
  | .leave =>
      if threads.loop = .polling ∧ threads.running = false then
        some { threads with tasks := threads.tasks.close, loop := .joining }
      else
        none
  | .join =>
      if threads.loop = .joining ∧
          ∀ worker ∈ threads.workers, worker = .exited then
        some { threads with loop := .returned }
      else
        none
  | .pop index =>
      if threads.workers[index]? = some .popping then
        match threads.tasks.pop with
        | some (rest, some job) =>
            some
              { threads with
                tasks := rest
                workers := threads.workers.set index (.running job) }
        | some (_, none) =>
            some { threads with workers := threads.workers.set index .exited }
        | none => none
      else
        none
  | .dispatch index throws =>
      match threads.workers[index]? with
      | some (.running job) =>
          some
            { threads with
              workers :=
                threads.workers.set index
                  (if throws then .popping else .posting job) }
      | _ => none
  | .post index =>
      match threads.workers[index]? with
      | some (.posting job) =>
          (threads.pendingWrites.push job).map fun pushed =>
            { threads with
              pendingWrites := pushed.1
              posted :=
                if pushed.2 then threads.posted ++ [job] else threads.posted
              workers := threads.workers.set index .popping }
      | _ => none

/-- The threads of the server as a machine. -/
def machine : Machine Threads Action where
  step := step

end Threads

/-! ## Jobs on their way -/

/-- The job a worker has taken and not yet posted. -/
def Worker.held : Worker → Option Job
  | .running job => some job
  | .posting job => some job
  | _ => none

/-- The job the event loop is about to push. -/
def Loop.inHand : Loop → List Job
  | .submitting job => [job]
  | .posting job => [job]
  | _ => []

namespace Threads

/-- Everything recognised and not yet posted, later jobs further right. -/
def outstanding (threads : Threads) : List Job :=
  threads.workers.filterMap Worker.held ++ threads.tasks.queue ++
    threads.loop.inHand

theorem start_outstanding (workers : Nat) :
    (start workers).outstanding = [] := by
  simp [start, outstanding, Loop.inHand, Worker.held]

/-- One worker of the pool, with those on its left and right. -/
theorem worker_split {workers : List Worker} {index : Nat} {worker : Worker}
    (found : workers[index]? = some worker) :
    ∃ left right, workers = left ++ worker :: right ∧
      ∀ next, workers.set index next = left ++ next :: right := by
  rcases List.getElem?_eq_some_iff.1 found with ⟨within, equal⟩
  refine ⟨workers.take index, workers.drop (index + 1), ?_, ?_⟩
  · rw [← equal, List.getElem_cons_drop, List.take_append_drop]
  · intro next
    exact List.set_eq_take_append_cons_drop .. |>.trans (if_pos within)

/-- What a step does to the jobs on their way. -/
inductive Effect (before after : Threads) (action : Action) : Prop where
  /-- A job is recognised. -/
  | arrives (conn : Nat)
      (announced :
        action = .recognise conn ∧
            after.loop = .submitting (before.nextJob conn) ∨
          action = .parseError conn ∧
            after.loop = .posting (before.nextJob conn))
      (joined : after.outstanding = before.outstanding ++ [before.nextJob conn])
      (counted : after.recognised = before.recognise conn)
      (posted : after.posted = before.posted)
      (queued : after.pendingWrites = before.pendingWrites)
  /-- Jobs are handed over or dropped, and answers are drained. -/
  | moves
      (handed : after.outstanding.Sublist before.outstanding ∨
        before.workers.length ≠ 1 ∧
          after.outstanding.Perm before.outstanding)
      (kept : ∀ job, after.loop = .posting job → before.loop = .posting job)
      (counted : after.recognised = before.recognised)
      (posted : after.posted = before.posted)
      (queued : after.pendingWrites.queue.length ≤
        before.pendingWrites.queue.length)
  /-- A job is posted, by its worker or by the event loop itself. -/
  | posts (job : Job) (left right : List Job)
      (was : before.outstanding = left ++ job :: right)
      (remains : after.outstanding = left ++ right)
      (first : before.workers.length = 1 → left ≠ [] →
        before.loop = .posting job)
      (kept : ∀ job, after.loop = .posting job → before.loop = .posting job)
      (counted : after.recognised = before.recognised)
      (posted : after.posted = before.posted ++ [job])
      (queued : after.pendingWrites.queue.length =
        before.pendingWrites.queue.length + 1)

theorem outstanding_split {threads : Threads} {left right : List Worker}
    {worker : Worker} (split : threads.workers = left ++ worker :: right) :
    threads.outstanding =
      left.filterMap Worker.held ++
        (worker.held.toList ++
          (right.filterMap Worker.held ++ threads.tasks.queue ++
            threads.loop.inHand)) := by
  unfold outstanding
  rw [split, List.filterMap_append, List.filterMap_cons]
  cases worker.held <;> simp

theorem alone {left right : List Worker} {worker : Worker}
    (single : (left ++ worker :: right).length = 1) :
    left = [] ∧ right = [] := by
  rw [List.length_append, List.length_cons] at single
  constructor <;> exact List.eq_nil_of_length_eq_zero (by omega)

/-- The event loop hands over a task, or posts a response itself. -/
theorem loopPush_effect {before after : Threads}
    (stepped : before.step .loopPush = some after) :
    Effect before after .loopPush := by
  cases busy : before.loop with
  | submitting job =>
      simp only [step, busy, Option.map_eq_some_iff] at stepped
      rcases stepped with ⟨⟨tasks, accepted⟩, pushed, rfl⟩
      refine .moves (Or.inl ?_) (by simp) rfl rfl (Nat.le_refl _)
      rcases TaskQueue.push_eq_some pushed with
        ⟨_, _, rfl⟩ | ⟨_, _, _, joined, _⟩
      · simp [outstanding, Loop.inHand]
      · simp [outstanding, Loop.inHand, busy, joined]
  | posting job =>
      simp only [step, busy, Option.map_eq_some_iff] at stepped
      rcases stepped with ⟨⟨writes, accepted⟩, pushed, rfl⟩
      rcases TaskQueue.push_eq_some pushed with
        ⟨_, refused, rfl⟩ | ⟨_, taken, _, joined, _⟩
      · refine .moves (Or.inl ?_) (by simp) rfl (by simp [refused])
          (Nat.le_refl _)
        simp [outstanding, Loop.inHand]
      · refine .posts job
          (before.workers.filterMap Worker.held ++ before.tasks.queue) []
          ?_ ?_ ?_ (by simp) rfl (by simp [taken]) (by simp [joined])
        · simp [outstanding, Loop.inHand, busy]
        · simp [outstanding, Loop.inHand]
        · exact fun _ _ => busy
  | _ => simp [step, busy] at stepped

/-- A worker takes a task, which it then holds itself. -/
theorem pop_effect {before after : Threads} {index : Nat}
    (stepped : before.step (.pop index) = some after) :
    Effect before after (.pop index) := by
  simp only [step] at stepped
  split_ifs at stepped with found
  rcases worker_split found with ⟨left, right, split, replaced⟩
  split at stepped
  case h_1 rest job took =>
    cases stepped
    have same : before.tasks.queue = job :: rest.queue := by
      rcases TaskQueue.pop_eq_some took with
        ⟨item, taken, equal, _⟩ | ⟨nothing, _⟩
      · cases taken
        exact equal
      · cases nothing
    refine .moves ?_ (by simp) rfl rfl (Nat.le_refl _)
    rw [outstanding_split split, outstanding_split (replaced _), same]
    by_cases single : before.workers.length = 1
    · rw [split] at single
      rcases alone single with ⟨rfl, rfl⟩
      exact Or.inl (by simp [Worker.held])
    · refine Or.inr ⟨single, List.Perm.append_left _ ?_⟩
      simp only [Worker.held, Option.toList_some, Option.toList_none,
        List.nil_append, List.append_assoc, List.cons_append]
      exact List.perm_middle.symm
  case h_2 rest took =>
    cases stepped
    refine .moves (Or.inl ?_) (by simp) rfl rfl (Nat.le_refl _)
    rw [outstanding_split split, outstanding_split (replaced _)]
    exact List.Sublist.refl _
  case h_3 => cases stepped

/-- A worker posts its response, unless the queue is closed. -/
theorem post_effect {before after : Threads} {index : Nat}
    (stepped : before.step (.post index) = some after) :
    Effect before after (.post index) := by
  simp only [step] at stepped
  split at stepped
  case h_1 job found =>
    rcases worker_split found with ⟨left, right, split, replaced⟩
    rw [Option.map_eq_some_iff] at stepped
    rcases stepped with ⟨⟨writes, accepted⟩, pushed, rfl⟩
    rcases TaskQueue.push_eq_some pushed with
      ⟨_, refused, rfl⟩ | ⟨_, taken, _, joined, _⟩
    · refine .moves (Or.inl ?_) (by simp) rfl (by simp [refused])
        (Nat.le_refl _)
      rw [outstanding_split split, outstanding_split (replaced _)]
      simp [Worker.held]
    · refine .posts job (left.filterMap Worker.held)
        (right.filterMap Worker.held ++ before.tasks.queue ++
          before.loop.inHand) (outstanding_split split) ?_ ?_
        (fun _ same => same) rfl
        (by simp [taken]) (by simp [joined])
      · rw [outstanding_split (replaced _)]
        rfl
      · intro single occupied
        rw [split] at single
        rcases alone single with ⟨rfl, _⟩
        exact absurd List.filterMap_nil occupied
  case h_2 => cases stepped

/-- Every step has one of the three effects. -/
theorem step_effect {before after : Threads} {action : Action}
    (stepped : before.step action = some after) :
    Effect before after action := by
  cases action with
  | recognise conn =>
      simp only [step] at stepped
      split_ifs at stepped with idle
      cases stepped
      refine .arrives conn (Or.inl ⟨rfl, rfl⟩) ?_ rfl rfl rfl
      simp [outstanding, Loop.inHand, idle]
  | parseError conn =>
      simp only [step] at stepped
      split_ifs at stepped with idle
      cases stepped
      refine .arrives conn (Or.inr ⟨rfl, rfl⟩) ?_ rfl rfl rfl
      simp [outstanding, Loop.inHand, idle]
  | loopPush => exact loopPush_effect stepped
  | wakeup =>
      simp only [step] at stepped
      split_ifs at stepped with idle
      cases stepped
      refine .moves (Or.inl ?_) (by simp) rfl rfl (Nat.le_refl _)
      simp [outstanding, Loop.inHand]
  | drain =>
      simp only [step] at stepped
      split_ifs at stepped with draining
      split at stepped
      case h_1 rest job took =>
        cases stepped
        refine .moves (Or.inl (List.Sublist.refl _)) (by simp) rfl rfl ?_
        have fewer := before.pendingWrites.tryPop_length
        rw [took] at fewer
        exact fewer
      case h_2 =>
        cases stepped
        refine .moves (Or.inl ?_) (by simp) rfl rfl (Nat.le_refl _)
        simp [outstanding, Loop.inHand]
  | stop =>
      cases stepped
      exact .moves (Or.inl (List.Sublist.refl _)) (by simp) rfl rfl
        (Nat.le_refl _)
  | leave =>
      simp only [step] at stepped
      split_ifs at stepped with idle
      cases stepped
      refine .moves (Or.inl ?_) (by simp) rfl rfl (Nat.le_refl _)
      simp [outstanding, Loop.inHand, TaskQueue.close]
  | join =>
      simp only [step] at stepped
      split_ifs at stepped with joined
      cases stepped
      refine .moves (Or.inl ?_) (by simp) rfl rfl (Nat.le_refl _)
      simp [outstanding, Loop.inHand]
  | pop index => exact pop_effect stepped
  | dispatch index throws =>
      simp only [step] at stepped
      split at stepped
      case h_1 job found =>
        rcases worker_split found with ⟨left, right, split, replaced⟩
        cases stepped
        refine .moves (Or.inl ?_) (by simp) rfl rfl (Nat.le_refl _)
        rw [outstanding_split split, outstanding_split (replaced _)]
        cases throws <;> simp [Worker.held]
      case h_2 => cases stepped
  | post index => exact post_effect stepped

/-- No step changes the size of the pool or of `pending_writes_`. -/
theorem step_frame {before after : Threads} {action : Action}
    (stepped : before.step action = some after) :
    after.workers.length = before.workers.length ∧
      after.pendingWrites.capacity = before.pendingWrites.capacity := by
  cases action with
  | recognise conn | parseError conn | wakeup | leave | join =>
      simp only [step] at stepped
      split_ifs at stepped
      cases stepped
      exact ⟨rfl, rfl⟩
  | stop =>
      cases stepped
      exact ⟨rfl, rfl⟩
  | loopPush =>
      simp only [step] at stepped
      split at stepped
      case h_1 =>
        rcases Option.map_eq_some_iff.1 stepped with ⟨pushed, _, rfl⟩
        exact ⟨rfl, rfl⟩
      case h_2 =>
        rcases Option.map_eq_some_iff.1 stepped with ⟨pushed, done, rfl⟩
        exact ⟨rfl, TaskQueue.push_capacity done⟩
      case h_3 => cases stepped
  | drain =>
      have kept := before.pendingWrites.tryPop_capacity
      simp only [step] at stepped
      split_ifs at stepped
      split at stepped
      case h_1 rest job took =>
        cases stepped
        rw [took] at kept
        exact ⟨rfl, kept⟩
      case h_2 =>
        cases stepped
        exact ⟨rfl, rfl⟩
  | pop index =>
      simp only [step] at stepped
      split_ifs at stepped
      split at stepped <;> cases stepped
      all_goals exact ⟨List.length_set, rfl⟩
  | dispatch index throws =>
      simp only [step] at stepped
      split at stepped <;> cases stepped
      exact ⟨List.length_set, rfl⟩
  | post index =>
      simp only [step] at stepped
      split at stepped
      case h_1 =>
        rcases Option.map_eq_some_iff.1 stepped with ⟨pushed, done, rfl⟩
        exact ⟨List.length_set, TaskQueue.push_capacity done⟩
      case h_2 => cases stepped

end Threads

end Cppws.Core
