import Cppws.Foundation.Potential
import Cppws.Core.Deadlock

/-!
# Coming to rest

The steps the event loop and the workers take by themselves, once no request
arrives.  A request costs at most eight of them, and while `pending_writes_`
has room for all jobs in flight some step can be taken until every job is
drained, or has thrown, or the server has stopped.
-/

namespace Cppws.Core

/-- The steps a worker takes to get rid of its job and leave. -/
def Worker.remaining : Worker → Nat
  | .popping => 1
  | .running _ => 7
  | .posting _ => 6
  | .exited => 0

/-- The steps of the event loop when so many responses are pending. -/
def Loop.remaining (pending : Nat) : Loop → Nat
  | .polling => 4 * pending + 2
  | .draining => 2 * pending + 3
  | .submitting _ => 4 * pending + 10
  | .posting _ => 4 * pending + 7
  | .joining => 4 * pending + 1
  | .returned => 4 * pending

namespace Threads

/-- No less than the steps still to be taken before all threads rest. -/
def remaining (threads : Threads) : Nat :=
  (threads.workers.map Worker.remaining).sum +
    7 * threads.tasks.queue.length +
    threads.loop.remaining threads.pendingWrites.queue.length

/-- A step that needs nothing from outside; a wakeup needs a response. -/
def OwnStep (threads : Threads) : Action → Prop
  | .recognise _ | .parseError _ | .stop => False
  | .wakeup => threads.pendingWrites.queue ≠ []
  | .loopPush | .drain | .leave | .join | .pop _ | .dispatch _ _
  | .post _ => True

instance (threads : Threads) : ∀ action, Decidable (threads.OwnStep action)
  | .recognise _ | .parseError _ | .stop => inferInstanceAs (Decidable False)
  | .wakeup => inferInstanceAs (Decidable (_ ≠ _))
  | .loopPush | .drain | .leave | .join | .pop _ | .dispatch _ _
  | .post _ => inferInstanceAs (Decidable True)

/-- A request or a parse error is recognised. -/
def Arrives (_ : Threads) : Action → Prop
  | .recognise _ | .parseError _ => True
  | _ => False

instance (threads : Threads) : ∀ action, Decidable (threads.Arrives action)
  | .recognise _ | .parseError _ => inferInstanceAs (Decidable True)
  | .loopPush | .wakeup | .drain | .stop | .leave | .join | .pop _
  | .dispatch _ _ | .post _ => inferInstanceAs (Decidable False)

/-- A handler throws. -/
def Throws (_ : Threads) : Action → Prop
  | .dispatch _ throws => throws = true
  | _ => False

instance (threads : Threads) : ∀ action, Decidable (threads.Throws action)
  | .dispatch _ throws => inferInstanceAs (Decidable (throws = true))
  | .recognise _ | .parseError _ | .loopPush | .wakeup | .drain | .stop
  | .leave | .join | .pop _ | .post _ => inferInstanceAs (Decidable False)

theorem start_remaining (workers : Nat) :
    (start workers).remaining = workers + 2 := by
  simp only [remaining, start, Loop.remaining, List.map_replicate,
    Worker.remaining, List.sum_replicate_nat, List.length_nil]
  omega

/-! ## What a step takes off -/

/-- A worker goes on, and what it pushes or pops is accounted for. -/
theorem remaining_move {before after : Threads} {index : Nat}
    {worker next : Worker} (found : before.workers[index]? = some worker)
    (workers : after.workers = before.workers.set index next)
    (less : next.remaining + 7 * after.tasks.queue.length +
        after.loop.remaining after.pendingWrites.queue.length <
      worker.remaining + 7 * before.tasks.queue.length +
        before.loop.remaining before.pendingWrites.queue.length) :
    after.remaining < before.remaining := by
  have moved := List.sum_map_set Worker.remaining found next
  unfold remaining
  rw [workers]
  omega

/-- The event loop goes on. -/
theorem remaining_loop {before after : Threads}
    (workers : after.workers = before.workers)
    (less : 7 * after.tasks.queue.length +
        after.loop.remaining after.pendingWrites.queue.length <
      7 * before.tasks.queue.length +
        before.loop.remaining before.pendingWrites.queue.length) :
    after.remaining < before.remaining := by
  unfold remaining
  rw [workers]
  omega

/-- One more response makes at most four more steps. -/
theorem remaining_pushed (loop : Loop) (pending : Nat) :
    loop.remaining (pending + 1) ≤ loop.remaining pending + 4 := by
  cases loop <;> simp only [Loop.remaining] <;> omega

theorem loopPush_remaining {before after : Threads}
    (stepped : before.step .loopPush = some after) :
    after.remaining < before.remaining := by
  cases busy : before.loop with
  | submitting job =>
      simp only [step, busy, Option.map_eq_some_iff] at stepped
      rcases stepped with ⟨⟨tasks, accepted⟩, pushed, rfl⟩
      refine remaining_loop rfl ?_
      rcases TaskQueue.push_eq_some pushed with
        ⟨_, _, rfl⟩ | ⟨_, _, _, joined, _⟩
      · simp [busy, Loop.remaining]
      · simp only [busy, Loop.remaining, joined, List.length_append,
          List.length_singleton]
        omega
  | posting job =>
      simp only [step, busy, Option.map_eq_some_iff] at stepped
      rcases stepped with ⟨⟨writes, accepted⟩, pushed, rfl⟩
      refine remaining_loop rfl ?_
      rcases TaskQueue.push_eq_some pushed with
        ⟨_, _, rfl⟩ | ⟨_, _, _, joined, _⟩
      · simp [busy, Loop.remaining]
      · simp only [busy, Loop.remaining, joined, List.length_append,
          List.length_singleton]
        omega
  | _ => simp [step, busy] at stepped

theorem drain_remaining {before after : Threads}
    (stepped : before.step .drain = some after) :
    after.remaining < before.remaining := by
  simp only [step] at stepped
  split_ifs at stepped with draining
  split at stepped
  case h_1 rest job took =>
    cases stepped
    have queued := congrArg List.length (TaskQueue.tryPop_eq took).1
    simp only [Option.toList_some, List.length_append,
      List.length_singleton] at queued
    refine remaining_loop rfl ?_
    simp only [draining, Loop.remaining]
    omega
  case h_2 rest took =>
    cases stepped
    have empty := (TaskQueue.tryPop_eq took).2 rfl
    refine remaining_loop rfl ?_
    simp [draining, Loop.remaining, empty]

theorem pop_remaining {before after : Threads} {index : Nat}
    (stepped : before.step (.pop index) = some after) :
    after.remaining < before.remaining := by
  simp only [step] at stepped
  split_ifs at stepped with found
  split at stepped
  case h_1 rest job took =>
    cases stepped
    refine remaining_move found rfl ?_
    rcases TaskQueue.pop_eq_some took with
      ⟨item, taken, equal, _⟩ | ⟨nothing, _⟩
    · simp only [equal, List.length_cons, Worker.remaining]
      omega
    · cases nothing
  case h_2 rest took =>
    cases stepped
    refine remaining_move found rfl ?_
    simp [Worker.remaining]
  case h_3 => cases stepped

theorem post_remaining {before after : Threads} {index : Nat}
    (stepped : before.step (.post index) = some after) :
    after.remaining < before.remaining := by
  simp only [step] at stepped
  split at stepped
  case h_2 => cases stepped
  case h_1 job found =>
    rw [Option.map_eq_some_iff] at stepped
    rcases stepped with ⟨⟨writes, accepted⟩, pushed, rfl⟩
    refine remaining_move found rfl ?_
    rcases TaskQueue.push_eq_some pushed with
      ⟨_, _, rfl⟩ | ⟨_, _, _, joined, _⟩
    · simp [Worker.remaining]
    · have grown := remaining_pushed before.loop
        before.pendingWrites.queue.length
      simp only [joined, List.length_append, List.length_singleton,
        Worker.remaining]
      omega

theorem ownStep_remaining {before after : Threads} {action : Action}
    (own : before.OwnStep action)
    (stepped : before.step action = some after) :
    after.remaining < before.remaining := by
  cases action with
  | recognise conn | parseError conn | stop => cases own
  | loopPush => exact loopPush_remaining stepped
  | wakeup =>
      simp only [step] at stepped
      split_ifs at stepped with idle
      cases stepped
      have pending := List.length_pos_iff.2 own
      refine remaining_loop rfl ?_
      simp only [idle, Loop.remaining]
      omega
  | drain => exact drain_remaining stepped
  | leave =>
      simp only [step] at stepped
      split_ifs at stepped with idle
      cases stepped
      refine remaining_loop rfl ?_
      simp [idle.1, Loop.remaining, TaskQueue.close]
  | join =>
      simp only [step] at stepped
      split_ifs at stepped with joined
      cases stepped
      refine remaining_loop rfl ?_
      simp [joined.1, Loop.remaining]
  | pop index => exact pop_remaining stepped
  | dispatch index throws =>
      simp only [step] at stepped
      split at stepped
      case h_2 => cases stepped
      case h_1 job found =>
        cases stepped
        refine remaining_move found rfl ?_
        cases throws <;> simp [Worker.remaining]
  | post index => exact post_remaining stepped

theorem step_remaining {before after : Threads} {action : Action}
    (stepped : before.step action = some after) :
    (if before.OwnStep action then 1 else 0) + after.remaining ≤
      before.remaining + 8 * (if ¬ before.OwnStep action then 1 else 0) := by
  by_cases own : before.OwnStep action
  · have less := ownStep_remaining own stepped
    rw [if_pos own, if_neg (not_not.2 own)]
    omega
  rw [if_neg own, if_pos own]
  cases action with
  | recognise conn | parseError conn =>
      simp only [step] at stepped
      split_ifs at stepped with idle
      cases stepped
      simp only [remaining, idle, Loop.remaining]
      omega
  | stop =>
      cases stepped
      simp only [remaining]
      omega
  | wakeup =>
      simp only [step] at stepped
      split_ifs at stepped with idle
      cases stepped
      simp only [remaining, idle, Loop.remaining]
      omega
  | _ => exact absurd trivial own

/-! ## The order of a shutdown -/

end Threads

/-- In `shutdown`, or past it. -/
def Loop.Shutting (loop : Loop) : Prop :=
  loop = .joining ∨ loop = .returned

namespace Threads

/-- The queues are closed and the workers leave in the order of the source. -/
structure Orderly (threads : Threads) : Prop where
  manned : threads.workers ≠ []
  openWrites : threads.pendingWrites.closed = false
  roomyTasks : threads.tasks.capacity = defaultCapacity
  roomyWrites : threads.pendingWrites.capacity = defaultCapacity
  shut : threads.tasks.closed = true ↔ threads.loop.Shutting
  exits : .exited ∈ threads.workers →
    threads.tasks.closed = true ∧ threads.tasks.queue = []
  returned : threads.loop = .returned →
    ∀ worker ∈ threads.workers, worker = .exited

theorem start_orderly {workers : Nat} (some : 0 < workers) :
    (start workers).Orderly where
  manned := by
    intro none
    simp only [start, List.replicate_eq_nil_iff] at none
    omega
  openWrites := rfl
  roomyTasks := rfl
  roomyWrites := rfl
  shut := by simp [start, Loop.Shutting]
  exits := by
    intro exited
    cases List.eq_of_mem_replicate exited
  returned := nofun

/-- What a step outside `shutdown` makes of the queues. -/
structure Calm (before after : Threads) : Prop where
  writes : after.pendingWrites.closed = before.pendingWrites.closed
  roomyTasks : after.tasks.capacity = before.tasks.capacity
  roomyWrites : after.pendingWrites.capacity = before.pendingWrites.capacity
  closed : after.tasks.closed = before.tasks.closed
  stays : before.tasks.closed = true → before.tasks.queue = [] →
    after.tasks.queue = []

/-- A step of the event loop outside `shutdown`. -/
theorem Orderly.serves {before after : Threads} (orderly : before.Orderly)
    (calm : Calm before after) (workers : after.workers = before.workers)
    (works : ¬ before.loop.Shutting) (goesOn : ¬ after.loop.Shutting) :
    after.Orderly where
  manned := workers ▸ orderly.manned
  openWrites := calm.writes.trans orderly.openWrites
  roomyTasks := calm.roomyTasks.trans orderly.roomyTasks
  roomyWrites := calm.roomyWrites.trans orderly.roomyWrites
  shut := by
    rw [calm.closed, orderly.shut]
    exact iff_of_false works goesOn
  exits := by
    intro exited
    rcases orderly.exits (workers ▸ exited) with ⟨shut, empty⟩
    exact ⟨calm.closed.trans shut, calm.stays shut empty⟩
  returned := fun ended => absurd (Or.inr ended) goesOn

/-- A step of a worker. -/
theorem Orderly.moves {before after : Threads} (orderly : before.Orderly)
    (calm : Calm before after) {index : Nat} {worker next : Worker}
    (found : before.workers[index]? = some worker)
    (looping : worker ≠ .exited)
    (workers : after.workers = before.workers.set index next)
    (loop : after.loop = before.loop)
    (leaves : next = .exited →
      before.tasks.closed = true ∧ before.tasks.queue = []) :
    after.Orderly where
  manned := by
    intro none
    rw [workers, List.set_eq_nil_iff] at none
    exact orderly.manned none
  openWrites := calm.writes.trans orderly.openWrites
  roomyTasks := calm.roomyTasks.trans orderly.roomyTasks
  roomyWrites := calm.roomyWrites.trans orderly.roomyWrites
  shut := by
    rw [calm.closed, loop]
    exact orderly.shut
  exits := by
    intro exited
    have ended : before.tasks.closed = true ∧ before.tasks.queue = [] := by
      rw [workers] at exited
      rcases List.mem_or_eq_of_mem_set exited with earlier | now
      · exact orderly.exits earlier
      · exact leaves now.symm
    exact ⟨calm.closed.trans ended.1, calm.stays ended.1 ended.2⟩
  returned := by
    intro ended
    have gone := orderly.returned (loop ▸ ended) worker
      (List.mem_of_getElem? found)
    exact absurd gone looping

/-- A step that only moves threads on. -/
theorem Calm.same {before after : Threads}
    (tasks : after.tasks = before.tasks)
    (writes : after.pendingWrites = before.pendingWrites) :
    Calm before after where
  writes := by rw [writes]
  roomyTasks := by rw [tasks]
  roomyWrites := by rw [writes]
  closed := by rw [tasks]
  stays := fun _ empty => tasks ▸ empty

/-- A step that pushes to `pending_writes_` or pops from it. -/
theorem Calm.writes_changed {before after : Threads}
    (tasks : after.tasks = before.tasks)
    (writes : after.pendingWrites.closed = before.pendingWrites.closed)
    (roomy : after.pendingWrites.capacity = before.pendingWrites.capacity) :
    Calm before after where
  writes := writes
  roomyTasks := by rw [tasks]
  roomyWrites := roomy
  closed := by rw [tasks]
  stays := fun _ empty => tasks ▸ empty

theorem Orderly.loopPush {before after : Threads} (orderly : before.Orderly)
    (stepped : before.step .loopPush = some after) : after.Orderly := by
  cases busy : before.loop with
  | submitting job =>
      simp only [step, busy, Option.map_eq_some_iff] at stepped
      rcases stepped with ⟨⟨tasks, accepted⟩, pushed, rfl⟩
      refine orderly.serves ⟨rfl, TaskQueue.push_capacity pushed, rfl,
        TaskQueue.push_closed pushed, fun shut empty => ?_⟩ rfl
        (by simp [busy, Loop.Shutting]) (by simp [Loop.Shutting])
      rcases TaskQueue.push_eq_some pushed with
        ⟨_, _, rfl⟩ | ⟨opened, _⟩
      · exact empty
      · cases shut.symm.trans opened
  | posting job =>
      simp only [step, busy, Option.map_eq_some_iff] at stepped
      rcases stepped with ⟨⟨writes, accepted⟩, pushed, rfl⟩
      exact orderly.serves (.writes_changed rfl (TaskQueue.push_closed pushed)
        (TaskQueue.push_capacity pushed)) rfl
        (by simp [busy, Loop.Shutting]) (by simp [Loop.Shutting])
  | _ => simp [step, busy] at stepped

theorem Orderly.drain {before after : Threads} (orderly : before.Orderly)
    (stepped : before.step .drain = some after) : after.Orderly := by
  simp only [step] at stepped
  split_ifs at stepped with draining
  have works : ¬ before.loop.Shutting := by simp [draining, Loop.Shutting]
  have closed := before.pendingWrites.tryPop_closed
  have roomy := before.pendingWrites.tryPop_capacity
  split at stepped
  case h_1 rest job took =>
    cases stepped
    rw [took] at closed roomy
    exact orderly.serves (.writes_changed rfl closed roomy) rfl works works
  case h_2 rest took =>
    cases stepped
    exact orderly.serves (.same rfl rfl) rfl works (by simp [Loop.Shutting])

theorem Orderly.pop {before after : Threads} {index : Nat}
    (orderly : before.Orderly)
    (stepped : before.step (.pop index) = some after) : after.Orderly := by
  simp only [step] at stepped
  split_ifs at stepped with found
  split at stepped
  case h_1 rest job took =>
    cases stepped
    refine orderly.moves ⟨rfl, TaskQueue.pop_capacity took, rfl,
      TaskQueue.pop_closed took, fun _ empty => ?_⟩ found (by simp) rfl rfl
      (by simp)
    rcases TaskQueue.pop_eq_some took with
      ⟨_, _, queued, _⟩ | ⟨nothing, _⟩
    · cases empty.symm.trans queued
    · cases nothing
  case h_2 rest took =>
    cases stepped
    refine orderly.moves (.same rfl rfl) found (by simp) rfl rfl fun _ => ?_
    rcases TaskQueue.pop_eq_some took with
      ⟨_, taken, _⟩ | ⟨_, empty, shut, _⟩
    · cases taken
    · exact ⟨shut, empty⟩
  case h_3 => cases stepped

theorem Orderly.step {before after : Threads} {action : Action}
    (orderly : before.Orderly)
    (stepped : before.step action = some after) : after.Orderly := by
  cases action with
  | recognise conn | parseError conn | wakeup =>
      simp only [Threads.step] at stepped
      split_ifs at stepped with idle
      cases stepped
      exact orderly.serves (.same rfl rfl) rfl (by simp [idle, Loop.Shutting])
        (by simp [Loop.Shutting])
  | loopPush => exact orderly.loopPush stepped
  | drain => exact orderly.drain stepped
  | stop =>
      cases stepped
      exact { orderly with }
  | leave =>
      simp only [Threads.step] at stepped
      split_ifs at stepped with idle
      cases stepped
      have opened := mt orderly.shut.1 (by simp [idle.1, Loop.Shutting])
      exact
        { orderly with
          shut := iff_of_true rfl (Or.inl rfl)
          exits := fun exited => absurd (orderly.exits exited).1 opened
          returned := by simp }
  | join =>
      simp only [Threads.step] at stepped
      split_ifs at stepped with joined
      cases stepped
      exact
        { orderly with
          shut := iff_of_true (orderly.shut.2 (Or.inl joined.1)) (Or.inr rfl)
          returned := fun _ => joined.2 }
  | pop index => exact orderly.pop stepped
  | dispatch index throws =>
      simp only [Threads.step] at stepped
      split at stepped
      case h_2 => cases stepped
      case h_1 job found =>
        cases stepped
        refine orderly.moves (.same rfl rfl) found (by simp) rfl rfl ?_
        cases throws <;> simp
  | post index =>
      simp only [Threads.step] at stepped
      split at stepped
      case h_2 => cases stepped
      case h_1 job found =>
        rcases Option.map_eq_some_iff.1 stepped with ⟨pushed, done, rfl⟩
        exact orderly.moves (.writes_changed rfl (TaskQueue.push_closed done)
          (TaskQueue.push_capacity done)) found (by simp) rfl rfl (by simp)

/-! ## Every job has an end -/

/-- How many jobs a worker holds. -/
def load (worker : Worker) : Nat :=
  worker.held.toList.length

theorem length_filterMap_held (workers : List Worker) :
    (workers.filterMap Worker.held).length = (workers.map load).sum := by
  induction workers with
  | nil => rfl
  | cons worker rest ih =>
      rw [List.filterMap_cons, List.map_cons, List.sum_cons, ← ih]
      cases holds : worker.held with
      | none => simp [load, holds]
      | some job =>
          simp only [load, holds, Option.toList_some, List.length_cons,
            List.length_nil]
          omega

/-- The jobs that are posted or on their way. -/
def jobs (threads : Threads) : Nat :=
  threads.posted.length + threads.outstanding.length

theorem jobs_eq (threads : Threads) :
    threads.jobs =
      threads.posted.length + (threads.workers.map load).sum +
        threads.tasks.queue.length + threads.loop.inHand.length := by
  unfold jobs outstanding
  rw [List.length_append, List.length_append, length_filterMap_held]
  omega

/-- A worker hands its job on or takes one. -/
theorem jobs_move {before after : Threads} {index : Nat}
    {worker next : Worker} {ended : Nat}
    (found : before.workers[index]? = some worker)
    (workers : after.workers = before.workers.set index next)
    (loop : after.loop = before.loop)
    (moved : ended + after.posted.length + load next +
        after.tasks.queue.length =
      before.posted.length + load worker + before.tasks.queue.length) :
    ended + after.jobs = before.jobs := by
  have sums := List.sum_map_set load found next
  rw [jobs_eq, jobs_eq, workers, loop]
  omega

/-- An open queue takes what is pushed. -/
theorem push_of_open {T : Type} {tasks : TaskQueue T} {item : T}
    {pushed : TaskQueue T × Bool} (opened : tasks.closed = false)
    (done : tasks.push item = some pushed) :
    pushed.2 = true ∧ pushed.1.queue = tasks.queue ++ [item] := by
  rcases TaskQueue.push_eq_some done with
    ⟨shut, _⟩ | ⟨_, taken, _, joined, _⟩
  · cases shut.symm.trans opened
  · exact ⟨taken, joined⟩

theorem Orderly.loopPush_jobs {before after : Threads}
    (orderly : before.Orderly)
    (stepped : before.step .loopPush = some after) :
    after.jobs = before.jobs := by
  cases busy : before.loop with
  | submitting job =>
      simp only [Threads.step, busy, Option.map_eq_some_iff] at stepped
      rcases stepped with ⟨pushed, done, rfl⟩
      have opened : before.tasks.closed = false := by
        simpa [busy, Loop.Shutting] using orderly.shut
      have joined := (push_of_open opened done).2
      simp only [jobs_eq, busy, joined, Loop.inHand, List.length_append,
        List.length_singleton, List.length_nil]
      omega
  | posting job =>
      simp only [Threads.step, busy, Option.map_eq_some_iff] at stepped
      rcases stepped with ⟨pushed, done, rfl⟩
      have taken := (push_of_open orderly.openWrites done).1
      simp only [jobs_eq, busy, taken, if_true, Loop.inHand,
        List.length_append, List.length_singleton, List.length_nil]
      omega
  | _ => simp [Threads.step, busy] at stepped

theorem Orderly.step_jobs {before after : Threads} {action : Action}
    (orderly : before.Orderly)
    (stepped : before.step action = some after) :
    (if before.Throws action then 1 else 0) + after.jobs =
      before.jobs + (if before.Arrives action then 1 else 0) := by
  cases action with
  | recognise conn | parseError conn =>
      simp only [Threads.step] at stepped
      split_ifs at stepped with idle
      cases stepped
      simp [jobs_eq, idle, Loop.inHand, Throws, Arrives]
  | loopPush =>
      have same := orderly.loopPush_jobs stepped
      simp [same, Throws, Arrives]
  | wakeup =>
      simp only [Threads.step] at stepped
      split_ifs at stepped with idle
      cases stepped
      simp [jobs_eq, idle, Loop.inHand, Throws, Arrives]
  | drain =>
      simp only [Threads.step] at stepped
      split_ifs at stepped with draining
      split at stepped <;> cases stepped
      · simp [jobs_eq, Throws, Arrives]
      · simp [jobs_eq, draining, Loop.inHand, Throws, Arrives]
  | stop =>
      cases stepped
      simp [jobs_eq, Throws, Arrives]
  | leave | join =>
      simp only [Threads.step] at stepped
      split_ifs at stepped with idle
      cases stepped
      simp [jobs_eq, idle.1, Loop.inHand, TaskQueue.close, Throws, Arrives]
  | pop index =>
      simp only [Threads.step] at stepped
      split_ifs at stepped with found
      rw [if_neg (id : ¬ before.Throws (.pop index)),
        if_neg (id : ¬ before.Arrives (.pop index))]
      split at stepped
      case h_1 rest job took =>
        cases stepped
        refine jobs_move found rfl rfl ?_
        rcases TaskQueue.pop_eq_some took with
          ⟨_, _, queued, _⟩ | ⟨nothing, _⟩
        · simp only [queued, load, Worker.held, Option.toList_some,
            Option.toList_none, List.length_cons, List.length_nil]
          omega
        · cases nothing
      case h_2 rest took =>
        cases stepped
        refine jobs_move found rfl rfl ?_
        simp [load, Worker.held]
      case h_3 => cases stepped
  | dispatch index throws =>
      simp only [Threads.step] at stepped
      split at stepped
      case h_2 => cases stepped
      case h_1 job found =>
        cases stepped
        refine jobs_move found rfl rfl ?_
        cases throws <;>
          simp [load, Worker.held, Throws]
        omega
  | post index =>
      simp only [Threads.step] at stepped
      split at stepped
      case h_2 => cases stepped
      case h_1 job found =>
        rcases Option.map_eq_some_iff.1 stepped with ⟨pushed, done, rfl⟩
        have taken := (push_of_open orderly.openWrites done).1
        rw [if_neg (id : ¬ before.Throws (.post index))]
        refine jobs_move found rfl rfl ?_
        simp only [taken, if_true, load, Worker.held, Option.toList_some,
          Option.toList_none, List.length_append, List.length_singleton,
          List.length_nil]
        omega

/-! ## Rest -/

/-- What a worker is doing when nothing can happen by itself. -/
theorem worker_of_quiescent {threads : Threads}
    (rests : machine.Quiescent OwnStep threads) {worker : Worker}
    (member : worker ∈ threads.workers) :
    worker = .exited ∨
      (worker = .popping ∧ threads.tasks.queue = [] ∧
        threads.tasks.closed = false) ∨
      ∃ job, worker = .posting job ∧ threads.pendingWrites.Full := by
  rcases List.getElem?_of_mem member with ⟨index, found⟩
  cases worker with
  | exited => exact Or.inl rfl
  | popping =>
      have disabled := rests (.pop index) trivial
      simp only [machine, step, found, if_true] at disabled
      split at disabled
      case h_1 => cases disabled
      case h_2 => cases disabled
      case h_3 nothing =>
        exact Or.inr (Or.inl ⟨rfl, TaskQueue.pop_eq_none_iff.1 nothing⟩)
  | running job =>
      have disabled := rests (.dispatch index true) trivial
      simp [machine, step, found] at disabled
  | posting job =>
      have disabled := rests (.post index) trivial
      simp only [machine, step, found, Option.map_eq_none_iff] at disabled
      exact Or.inr (Or.inr
        ⟨job, rfl, TaskQueue.push_eq_none_iff.1 disabled⟩)

/-- Workers that cannot leave wait on a full `pending_writes_`. -/
theorem stuck_of_quiescent {threads : Threads}
    (rests : machine.Quiescent OwnStep threads)
    (something : threads.tasks.queue ≠ [] ∨ threads.tasks.closed = true)
    (remains : ∃ worker ∈ threads.workers, worker ≠ .exited) :
    threads.WorkersStuck := by
  have waits : ∀ worker ∈ threads.workers, worker ≠ .exited →
      ∃ job, worker = .posting job ∧ threads.pendingWrites.Full := by
    intro worker member looping
    rcases worker_of_quiescent rests member with
      gone | ⟨_, empty, opened⟩ | posting
    · exact absurd gone looping
    · rcases something with queued | shut
      · exact absurd empty queued
      · cases shut.symm.trans opened
    · exact posting
  refine ⟨?_, remains, fun worker member looping => ?_⟩
  · rcases remains with ⟨worker, member, looping⟩
    exact (waits worker member looping).choose_spec.2
  · rcases waits worker member looping with ⟨job, posting, _⟩
    exact ⟨job, posting⟩

/-- A full queue holds something. -/
theorem queued_of_full {tasks : TaskQueue Job}
    (roomy : tasks.capacity = defaultCapacity) (full : tasks.Full) :
    tasks.queue ≠ [] := by
  intro empty
  have room := full.1
  rw [roomy, empty] at room
  exact absurd room (by decide)

/-- Without a dead end the event loop only rests in `wait` or at its end. -/
theorem Orderly.loop_of_quiescent {threads : Threads}
    (orderly : threads.Orderly) (alive : ¬ threads.DeadEnd)
    (rests : machine.Quiescent OwnStep threads) :
    threads.loop = .polling ∨ threads.loop = .returned := by
  have opened_iff := orderly.shut
  cases busy : threads.loop with
  | polling => exact Or.inl rfl
  | returned => exact Or.inr rfl
  | draining =>
      have disabled := rests .drain trivial
      simp only [machine, Threads.step, busy, if_true] at disabled
      split at disabled <;> cases disabled
  | posting job =>
      have disabled := rests .loopPush trivial
      simp only [machine, Threads.step, busy,
        Option.map_eq_none_iff] at disabled
      exact absurd (.posting job busy (TaskQueue.push_eq_none_iff.1 disabled))
        alive
  | submitting job =>
      have disabled := rests .loopPush trivial
      simp only [machine, Threads.step, busy,
        Option.map_eq_none_iff] at disabled
      have full := TaskQueue.push_eq_none_iff.1 disabled
      have looping : .exited ∉ threads.workers := by
        intro exited
        cases (orderly.exits exited).1.symm.trans full.2
      rcases List.exists_mem_of_ne_nil _ orderly.manned with
        ⟨worker, member⟩
      have stuck := stuck_of_quiescent rests
        (Or.inl (queued_of_full orderly.roomyTasks full))
        ⟨worker, member, fun gone => looping (gone ▸ member)⟩
      exact absurd (.submitting job busy full stuck) alive
  | joining =>
      have disabled := rests .join trivial
      simp only [machine, Threads.step, busy, true_and, ite_eq_right_iff,
        reduceCtorEq, imp_false, not_forall] at disabled
      rcases disabled with ⟨worker, member, looping⟩
      have shut := orderly.shut.2 (Or.inl busy)
      have stuck := stuck_of_quiescent rests (Or.inr shut)
        ⟨worker, member, looping⟩
      exact absurd (.joining busy stuck) alive

/-- No job is on its way, and the server waits or has stopped. -/
def Settled (threads : Threads) : Prop :=
  threads.outstanding = [] ∧
    (threads.loop = .polling ∧ threads.running = true ∧
        threads.pendingWrites.queue = [] ∨
      threads.loop = .returned)

theorem outstanding_eq_nil {threads : Threads}
    (free : ∀ worker ∈ threads.workers, worker.held = none)
    (empty : threads.tasks.queue = []) (idle : threads.loop.inHand = []) :
    threads.outstanding = [] := by
  unfold outstanding
  rw [List.filterMap_eq_nil_iff.2 free, empty, idle]
  rfl

/-- Without a dead end, where nothing can happen by itself all jobs are done. -/
theorem Orderly.settled {threads : Threads}
    (orderly : threads.Orderly) (alive : ¬ threads.DeadEnd)
    (rests : machine.Quiescent OwnStep threads) :
    threads.Settled := by
  rcases List.exists_mem_of_ne_nil _ orderly.manned with ⟨first, manned⟩
  rcases orderly.loop_of_quiescent alive rests with polling | returned
  · have drained : threads.pendingWrites.queue = [] := by
      by_contra pending
      have disabled := rests .wakeup pending
      simp [machine, Threads.step, polling] at disabled
    have running : threads.running = true := by
      by_contra stopped
      have disabled := rests .leave trivial
      simp [machine, Threads.step, polling, stopped] at disabled
    have opened := mt orderly.shut.1 (by simp [polling, Loop.Shutting])
    have popping : ∀ worker ∈ threads.workers,
        worker = .popping ∧ threads.tasks.queue = [] := by
      intro worker member
      rcases worker_of_quiescent rests member with
        rfl | ⟨waits, empty, _⟩ | ⟨_, _, full⟩
      · exact absurd (orderly.exits member).1 opened
      · exact ⟨waits, empty⟩
      · exact absurd drained (queued_of_full orderly.roomyWrites full)
    refine ⟨outstanding_eq_nil ?_ (popping first manned).2 ?_,
      Or.inl ⟨polling, running, drained⟩⟩
    · intro worker member
      rw [(popping worker member).1]
      rfl
    · rw [polling]
      rfl
  · have exited := orderly.returned returned
    refine ⟨outstanding_eq_nil ?_ ?_ ?_, Or.inr returned⟩
    · intro worker member
      rw [exited worker member]
      rfl
    · exact (orderly.exits (exited first manned ▸ manned)).2
    · rw [returned]
      rfl

/-- The queues are in order and all jobs in flight fit `pending_writes_`. -/
def Fits (threads : Threads) : Prop :=
  threads.Orderly ∧ threads.inFlight ≤ threads.pendingWrites.capacity

theorem start_fits {workers : Nat} (some : 0 < workers) :
    (start workers).Fits := by
  refine ⟨start_orderly some, ?_⟩
  unfold inFlight
  rw [start_outstanding]
  exact Nat.zero_le _

theorem Fits.step {before after : Threads} {action : Action}
    (fits : before.Fits) (guard : before.RoomForAll action)
    (stepped : before.step action = some after) : after.Fits :=
  ⟨Orderly.step fits.1 stepped, step_inFlight fits.2 guard stepped⟩

theorem Fits.alive {threads : Threads} (fits : threads.Fits) :
    ¬ threads.DeadEnd :=
  fun dead => absurd dead.capacity_lt (Nat.not_lt.2 fits.2)

theorem OwnStep.roomForAll {threads : Threads} {action : Action}
    (own : threads.OwnStep action) : threads.RoomForAll action := by
  cases action with
  | recognise conn | parseError conn => cases own
  | _ => trivial

/--
As long as `pending_writes_` has room for all jobs in flight whenever one is
recognised, every job comes to its end.  The threads take at most eight steps
for each step from outside; where they can take none, each job recognised has
been posted or its handler has thrown, and the server waits with everything
drained or has stopped; and their own steps lead there from anywhere.
-/
theorem every_job_ends {workers : Nat} {actions : List Action}
    {threads : Threads} (manned : 0 < workers)
    (guarded : machine.Guarded RoomForAll (start workers) actions)
    (ran : machine.run (start workers) actions = some threads) :
    machine.count OwnStep (start workers) actions ≤
        workers + 2 +
          8 * machine.count (fun threads action => ¬ threads.OwnStep action)
            (start workers) actions ∧
      (machine.Quiescent OwnStep threads →
        threads.Settled ∧
          threads.posted.length + machine.count Throws (start workers) actions =
            machine.count Arrives (start workers) actions) ∧
      ∃ more after,
        machine.Guarded OwnStep threads more ∧
          machine.run threads more = some after ∧ after.Settled := by
  have kept : ∀ (before : Threads) (action : Action) (after : Threads),
      before.Fits → before.RoomForAll action →
        machine.step before action = some after → after.Fits :=
    fun _ _ _ fits guard stepped => Fits.step fits guard stepped
  have fits : threads.Fits :=
    guarded.invariant kept (start_fits manned) ran
  refine ⟨?_, fun rests => ⟨fits.1.settled fits.alive rests, ?_⟩, ?_⟩
  · have paid :
        machine.count OwnStep (start workers) actions + threads.remaining ≤
          (start workers).remaining + _ :=
      guarded.total_le remaining kept
        (fun _ _ _ _ _ stepped => step_remaining stepped)
        (start_fits manned) ran
    rw [start_remaining, Machine.total_mul] at paid
    exact Nat.le_trans (Nat.le_add_right _ _) paid
  · have balanced :
        machine.count Throws (start workers) actions + threads.jobs + 0 =
          (start workers).jobs + 0 +
            machine.count Arrives (start workers) actions :=
      Machine.total_eq jobs (fun _ => 0)
        (fun _ _ _ orderly stepped => Orderly.step orderly stepped)
        (fun _ _ _ orderly stepped => Orderly.step_jobs orderly stepped)
        (start_orderly manned) ran
    have none := (fits.1.settled fits.alive rests).1
    have begun : (start workers).jobs = 0 := by
      unfold jobs
      rw [start_outstanding]
      rfl
    unfold jobs at balanced
    rw [none, List.length_nil] at balanced
    unfold jobs at begun
    omega
  · rcases Machine.exists_quiescent remaining
        (fun before action after fits own stepped =>
          kept before action after fits own.roomForAll stepped)
        (fun _ _ _ _ own stepped => ownStep_remaining own stepped)
        threads fits with
      ⟨more, after, own, ran, fits, rests⟩
    exact ⟨more, after, own, ran, fits.1.settled fits.alive rests⟩

/-- Two workers, a request, a parse error and a handler that throws. -/
theorem every_job_ends_pair :
    ∃ threads,
      machine.run (start 2)
          [.recognise 0, .loopPush, .parseError 1, .loopPush, .recognise 0,
            .pop 1, .loopPush, .pop 0, .dispatch 0 true, .wakeup,
            .dispatch 1 false, .drain, .post 1, .drain, .drain] =
        some threads ∧
        ∃ more after,
          machine.Guarded OwnStep threads more ∧
            machine.run threads more = some after ∧ after.Settled := by
  have finishes : ∃ threads,
      machine.run (start 2)
          [.recognise 0, .loopPush, .parseError 1, .loopPush, .recognise 0,
            .pop 1, .loopPush, .pop 0, .dispatch 0 true, .wakeup,
            .dispatch 1 false, .drain, .post 1, .drain, .drain] =
        some threads ∧
        threads.loop = .polling :=
    Option.map_eq_some_iff.1 (by decide)
  rcases finishes with ⟨threads, ran, _⟩
  exact ⟨threads, ran,
    (every_job_ends (by decide) (by decide) ran).2.2⟩

end Threads

end Cppws.Core
