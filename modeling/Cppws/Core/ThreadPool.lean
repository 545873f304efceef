import Cppws.Core.RecordedQueue
import Cppws.Foundation.Machine

/-!
# The thread pool

The workers of `ThreadPool` in their loops, the threads that submit tasks and
the thread that calls `shutdown`, each taking one step after the other in any
order.  A `submit` or `pop` that would wait is not enabled.
-/

namespace Cppws.Core

/-- How the call of a task ends. -/
inductive TaskEnd where
  | returned
  | exception
  | unknownException
deriving DecidableEq

/-- Where a worker is in `worker_loop`. -/
inductive PoolWorker (T : Type) where
  | popping
  /-- It has the task and is about to call it. -/
  | holding (task : T)
  | running (task : T)
  | exited
deriving DecidableEq

namespace PoolWorker

variable {T : Type}

def held : PoolWorker T → Option T
  | .holding task => some task
  | _ => none

def called : PoolWorker T → Option T
  | .running task => some task
  | _ => none

end PoolWorker

/-- Where the thread that calls `shutdown` is. -/
inductive ShutdownPoint where
  | outside
  | closing
  /-- About to join this worker. -/
  | joining (worker : Nat)
  | joined
deriving DecidableEq

structure ThreadPool (T : Type) where
  queue : RecordedQueue T := {}
  workers : List (PoolWorker T)
  shutdownCalled : Bool := false
  caller : ShutdownPoint := .outside
  /-- The tasks that have been called. -/
  started : List T := []
  /-- The calls that have ended, and how. -/
  ended : List (T × TaskEnd) := []

namespace ThreadPool

variable {T : Type}

/-- The number of threads the constructor starts. -/
def threadCount (nThreads hardwareConcurrency : Nat) : Nat :=
  if nThreads = 0 then
    if hardwareConcurrency = 0 then 4 else hardwareConcurrency
  else
    nThreads

def construct (nThreads hardwareConcurrency : Nat) : ThreadPool T where
  workers := List.replicate (threadCount nThreads hardwareConcurrency) .popping

inductive Action (T : Type) where
  | submit (task : T)
  | trySubmit (task : T)
  /-- `shutdown` is called. -/
  | shutdown
  | close
  | join
  /-- The last worker has been joined. -/
  | stopped
  | pop (worker : Nat)
  | call (worker : Nat)
  | finish (worker : Nat) (how : TaskEnd)
deriving DecidableEq

/-- This worker goes on to its next point. -/
def move (pool : ThreadPool T) (worker : Nat) (next : PoolWorker T) :
    ThreadPool T :=
  { pool with workers := pool.workers.set worker next }

def step (pool : ThreadPool T) : Action T → Option (ThreadPool T)
  | .submit task =>
      (pool.queue.push task).map fun pushed => { pool with queue := pushed.1 }
  | .trySubmit task =>
      some { pool with queue := (pool.queue.tryPush task).1 }
  | .shutdown =>
      if pool.shutdownCalled then
        some pool
      else
        some { pool with shutdownCalled := true, caller := .closing }
  | .close =>
      match pool.caller with
      | .closing =>
          some { pool with queue := pool.queue.close, caller := .joining 0 }
      | _ => none
  | .join =>
      match pool.caller with
      | .joining worker =>
          match pool.workers[worker]? with
          | some .exited => some { pool with caller := .joining (worker + 1) }
          | _ => none
      | _ => none
  | .stopped =>
      match pool.caller with
      | .joining worker =>
          match pool.workers[worker]? with
          | none => some { pool with caller := .joined }
          | some _ => none
      | _ => none
  | .pop worker =>
      match pool.workers[worker]? with
      | some .popping =>
          pool.queue.pop.map fun popped =>
            { pool with queue := popped.1 }.move worker
              (popped.2.elim .exited .holding)
      | _ => none
  | .call worker =>
      match pool.workers[worker]? with
      | some (.holding task) =>
          some
            ({ pool with started := pool.started ++ [task] }.move worker
              (.running task))
      | _ => none
  | .finish worker how =>
      match pool.workers[worker]? with
      | some (.running task) =>
          -- Both `catch` clauses lead back to the loop.
          some
            ({ pool with ended := pool.ended ++ [(task, how)] }.move worker
              .popping)
      | _ => none

def machine (T : Type) : Machine (ThreadPool T) (Action T) where
  step := step

/-! ## Where the tasks are -/

def held (pool : ThreadPool T) : List T :=
  pool.workers.filterMap PoolWorker.held

def running (pool : ThreadPool T) : List T :=
  pool.workers.filterMap PoolWorker.called

/-- What one worker had goes, and what it has comes. -/
theorem filterMap_set {α β : Type} (select : α → Option β)
    {items : List α}
    {index : Nat} {item : α} (found : items[index]? = some item) (next : α) :
    ((items.set index next).filterMap select ++ (select item).toList).Perm
      (items.filterMap select ++ (select next).toList) := by
  have split : ∀ first rest, List.filterMap select (first :: rest) =
      (select first).toList ++ List.filterMap select rest := by
    intro first rest
    rw [List.filterMap_cons]
    cases select first <;> rfl
  induction items generalizing index with
  | nil => cases found
  | cons first rest ih =>
      cases index with
      | zero =>
          cases found
          rw [List.set_cons_zero, split, split]
          apply List.perm_append_comm.trans
          rw [List.append_assoc]
          exact List.perm_append_comm.append_left _
      | succ index =>
          rw [List.set_cons_succ, split, split, List.append_assoc,
            List.append_assoc]
          exact (ih found).append_left _

/-- Each task is in one place on its way from the queue to its end. -/
structure Sound (pool : ThreadPool T) : Prop where
  consistent : pool.queue.Consistent
  popped : pool.queue.popped.Perm (pool.started ++ pool.held)
  started : pool.started.Perm (pool.ended.map Prod.fst ++ pool.running)
  manned : 0 < pool.workers.length
  /-- No worker leaves its loop before the queue is closed and empty. -/
  exits : .exited ∈ pool.workers →
    pool.queue.tasks.closed = true ∧ pool.queue.tasks.queue = []
  joins : ∀ worker, pool.caller = .joining worker →
    ∀ earlier < worker, pool.workers[earlier]? = some .exited
  joined : pool.caller = .joined →
    ∀ worker ∈ pool.workers, worker = .exited

theorem threadCount_pos (nThreads hardwareConcurrency : Nat) :
    0 < threadCount nThreads hardwareConcurrency := by
  unfold threadCount
  split_ifs <;> omega

theorem construct_sound (nThreads hardwareConcurrency : Nat) :
    (construct nThreads hardwareConcurrency : ThreadPool T).Sound where
  consistent := RecordedQueue.consistent_start {} rfl rfl
  popped := by simp [construct, held, PoolWorker.held, RecordedQueue.popped]
  started := by simp [construct, running, PoolWorker.called]
  manned := by
    rw [construct, List.length_replicate]
    exact threadCount_pos _ _
  exits := by
    intro exited
    cases List.eq_of_mem_replicate exited
  joins := nofun
  joined := nofun

/-- A step of a worker that is still in its loop. -/
theorem Sound.moves {pool after : ThreadPool T} (sound : pool.Sound)
    {index : Nat} {worker next : PoolWorker T}
    (found : pool.workers[index]? = some worker) (looping : worker ≠ .exited)
    (workers : after.workers = pool.workers.set index next)
    (caller : after.caller = pool.caller)
    (stepped : RecordedQueue.Section pool.queue after.queue)
    (popped : after.queue.popped.Perm (after.started ++ after.held))
    (started : after.started.Perm (after.ended.map Prod.fst ++ after.running))
    (leaves : next = .exited →
      after.queue.tasks.closed = true ∧ after.queue.tasks.queue = []) :
    after.Sound where
  consistent := sound.consistent.step stepped
  popped := popped
  started := started
  manned := by
    rw [workers, List.length_set]
    exact sound.manned
  exits := by
    intro exited
    rw [workers] at exited
    rcases List.mem_or_eq_of_mem_set exited with before | now
    · exact stepped.ended (sound.exits before)
    · exact leaves now.symm
  joins := by
    intro target joining earlier less
    have exited :=
      sound.joins target (caller.symm.trans joining) earlier less
    have other : index ≠ earlier := by
      rintro rfl
      rw [found, Option.some.injEq] at exited
      exact looping exited
    rw [workers, List.getElem?_set_ne other]
    exact exited
  joined := by
    intro all
    have gone := sound.joined (caller.symm.trans all) worker
      (List.mem_of_getElem? found)
    exact absurd gone looping

/-- A step of a thread that submits tasks or shuts the pool down. -/
theorem Sound.serves {pool after : ThreadPool T} (sound : pool.Sound)
    (workers : after.workers = pool.workers)
    (started : after.started = pool.started)
    (ended : after.ended = pool.ended)
    (stepped : RecordedQueue.Section pool.queue after.queue)
    (popped : after.queue.popped = pool.queue.popped)
    (joins : ∀ worker, after.caller = .joining worker →
      ∀ earlier < worker, pool.workers[earlier]? = some .exited)
    (joined : after.caller = .joined →
      ∀ worker ∈ pool.workers, worker = .exited) :
    after.Sound where
  consistent := sound.consistent.step stepped
  popped := by
    rw [popped, started, held, workers]
    exact sound.popped
  started := by
    rw [started, ended, running, workers]
    exact sound.started
  manned := workers ▸ sound.manned
  exits := by
    intro exited
    rw [workers] at exited
    exact stepped.ended (sound.exits exited)
  joins := workers ▸ joins
  joined := workers ▸ joined

theorem Sound.pop {before after : ThreadPool T} {index : Nat}
    (sound : before.Sound)
    (stepped : before.step (.pop index) = some after) : after.Sound := by
  simp only [step] at stepped
  split at stepped
  case h_2 => cases stepped
  case h_1 found =>
    rcases Option.map_eq_some_iff.1 stepped with
      ⟨⟨queue, item⟩, took, rfl⟩
    have section_ := RecordedQueue.Section.pop item took
    have held := filterMap_set PoolWorker.held found
      (item.elim .exited .holding)
    have called := filterMap_set PoolWorker.called found
      (item.elim .exited .holding)
    refine sound.moves found nofun rfl rfl section_ ?_ ?_ ?_
    · show queue.popped.Perm (before.started ++ _)
      rw [RecordedQueue.pop_popped took]
      refine (sound.popped.append_right _).trans ?_
      rw [List.append_assoc]
      refine List.Perm.append_left _ ?_
      cases item <;>
        simpa [PoolWorker.held, ThreadPool.held, move] using held.symm
    · refine sound.started.trans (List.Perm.append_left _ ?_)
      cases item <;>
        simpa [PoolWorker.called, running, move] using called.symm
    · intro left
      rcases TaskQueue.pop_eq_some (RecordedQueue.pop_tasks took) with
        ⟨task, rfl, _⟩ | ⟨_, empty, closed, same⟩
      · cases left
      · exact same ▸ ⟨closed, empty⟩

theorem Sound.call {before after : ThreadPool T} {index : Nat}
    (sound : before.Sound)
    (stepped : before.step (.call index) = some after) : after.Sound := by
  simp only [step] at stepped
  split at stepped
  case h_2 => cases stepped
  case h_1 task found =>
    cases stepped
    have held := filterMap_set PoolWorker.held found (.running task)
    have called := filterMap_set PoolWorker.called found (.running task)
    refine sound.moves found nofun rfl rfl (.none rfl) ?_ ?_ nofun
    · show before.queue.popped.Perm (before.started ++ [task] ++ _)
      refine sound.popped.trans ?_
      rw [List.append_assoc]
      refine List.Perm.append_left _ ?_
      simp only [PoolWorker.held, Option.toList_some, Option.toList_none,
        List.append_nil] at held
      exact held.symm.trans List.perm_append_comm
    · show (before.started ++ [task]).Perm (before.ended.map Prod.fst ++ _)
      refine (sound.started.append_right _).trans ?_
      rw [List.append_assoc]
      refine List.Perm.append_left _ ?_
      simp only [PoolWorker.called, Option.toList_some, Option.toList_none,
        List.append_nil] at called
      exact called.symm

theorem Sound.finish {before after : ThreadPool T} {index : Nat}
    {how : TaskEnd} (sound : before.Sound)
    (stepped : before.step (.finish index how) = some after) :
    after.Sound := by
  simp only [step] at stepped
  split at stepped
  case h_2 => cases stepped
  case h_1 task found =>
    cases stepped
    have held := filterMap_set PoolWorker.held found .popping
    have called := filterMap_set PoolWorker.called found .popping
    refine sound.moves found nofun rfl rfl (.none rfl) ?_ ?_ nofun
    · refine sound.popped.trans (List.Perm.append_left _ ?_)
      simp only [PoolWorker.held, Option.toList_none,
        List.append_nil] at held
      exact held.symm
    · show before.started.Perm
        ((before.ended ++ [(task, how)]).map Prod.fst ++ _)
      refine sound.started.trans ?_
      rw [List.map_append, List.append_assoc]
      refine List.Perm.append_left _ ?_
      simp only [PoolWorker.called, Option.toList_some, Option.toList_none,
        List.append_nil] at called
      exact called.symm.trans List.perm_append_comm

theorem Sound.step {before after : ThreadPool T} {action : Action T}
    (sound : before.Sound) (stepped : before.step action = some after) :
    after.Sound := by
  cases action with
  | submit task =>
      rcases Option.map_eq_some_iff.1 stepped with
        ⟨⟨queue, accepted⟩, pushed, rfl⟩
      exact sound.serves rfl rfl rfl (.push task accepted pushed)
        (RecordedQueue.push_popped pushed) sound.joins sound.joined
  | trySubmit task =>
      cases stepped
      exact sound.serves rfl rfl rfl (.tryPush task _ rfl)
        (RecordedQueue.tryPush_popped _ task) sound.joins sound.joined
  | shutdown =>
      simp only [ThreadPool.step] at stepped
      split_ifs at stepped
      · cases stepped
        exact sound
      · cases stepped
        exact sound.serves rfl rfl rfl (.none rfl) rfl nofun nofun
  | close =>
      simp only [ThreadPool.step] at stepped
      split at stepped
      case h_2 => cases stepped
      case h_1 =>
        cases stepped
        refine sound.serves rfl rfl rfl (.close rfl)
          (RecordedQueue.close_popped _) ?_ nofun
        intro worker joining earlier less
        cases joining
        cases less
  | join =>
      simp only [ThreadPool.step] at stepped
      split at stepped
      case h_2 => cases stepped
      case h_1 worker joining =>
        split at stepped
        case h_2 => cases stepped
        case h_1 exited =>
          cases stepped
          refine sound.serves rfl rfl rfl (.none rfl) rfl ?_ nofun
          intro next now earlier less
          cases now
          rcases Nat.lt_succ_iff_lt_or_eq.1 less with less | rfl
          · exact sound.joins worker joining earlier less
          · exact exited
  | stopped =>
      simp only [ThreadPool.step] at stepped
      split at stepped
      case h_2 => cases stepped
      case h_1 last joining =>
        split at stepped
        case h_2 => cases stepped
        case h_1 beyond =>
          cases stepped
          refine sound.serves rfl rfl rfl (.none rfl) rfl nofun ?_
          intro _ worker member
          rcases List.getElem_of_mem member with ⟨index, within, rfl⟩
          have exited := sound.joins last joining index
            (Nat.lt_of_lt_of_le within (List.getElem?_eq_none_iff.1 beyond))
          rw [List.getElem?_eq_getElem within, Option.some.injEq] at exited
          exact exited
  | pop worker => exact sound.pop stepped
  | call worker => exact sound.call stepped
  | finish worker how => exact sound.finish stepped

theorem sound_of_reachable {nThreads hardwareConcurrency : Nat}
    {pool : ThreadPool T}
    (reachable :
      (machine T).Reachable (construct nThreads hardwareConcurrency) pool) :
    pool.Sound :=
  reachable.invariant (fun _ _ _ sound stepped => Sound.step sound stepped)
    (construct_sound _ _)

/-- Accepted tasks have ended, are being run or held by a worker, or wait. -/
theorem Sound.accounted {pool : ThreadPool T} (sound : pool.Sound) :
    pool.queue.accepted.Perm
      (pool.ended.map Prod.fst ++ pool.running ++ pool.held ++
        pool.queue.tasks.queue) := by
  rw [← sound.consistent.balanced]
  exact (sound.popped.trans (sound.started.append_right _)).append_right _

/-- A worker that has left holds no task. -/
theorem filterMap_exited {β : Type} {workers : List (PoolWorker T)}
    {select : PoolWorker T → Option β} (nothing : select .exited = none)
    (exited : ∀ worker ∈ workers, worker = .exited) :
    workers.filterMap select = [] := by
  rw [List.filterMap_eq_nil_iff]
  intro worker member
  rw [exited worker member, nothing]

/--
No worker leaves its loop before the queue is closed and empty and no task is
accepted after the close; when `shutdown` has joined all workers, the tasks
that have been called and those whose call has ended are the accepted ones,
each as often as it was accepted, and the queue is empty.
-/
theorem shutdown_runs_accepted {nThreads hardwareConcurrency : Nat}
    {pool : ThreadPool T}
    (reachable :
      (machine T).Reachable (construct nThreads hardwareConcurrency) pool) :
    (.exited ∈ pool.workers →
        pool.queue.tasks.closed = true ∧ pool.queue.tasks.queue = []) ∧
      (∀ earlier call, earlier ++ [call] <+: pool.queue.history →
        call.accepted ≠ none → .close ∉ earlier) ∧
      (pool.caller = .joined →
        pool.started.Perm pool.queue.accepted ∧
          (pool.ended.map Prod.fst).Perm pool.queue.accepted ∧
          pool.queue.tasks.queue = []) := by
  have sound := sound_of_reachable reachable
  refine ⟨sound.exits, sound.consistent.sealed, fun joined => ?_⟩
  have exited := sound.joined joined
  have empty : pool.queue.tasks.queue = [] := by
    refine (sound.exits ?_).2
    rcases List.exists_mem_of_length_pos sound.manned with ⟨worker, member⟩
    exact exited worker member ▸ member
  have running : pool.running = [] := filterMap_exited rfl exited
  have held : pool.held = [] := filterMap_exited rfl exited
  have accounted := sound.accounted
  have started := sound.started
  rw [running, List.append_nil] at started
  rw [running, held, empty, List.append_nil, List.append_nil,
    List.append_nil] at accounted
  exact ⟨started.trans accounted.symm, accounted.symm, empty⟩

/-- Two workers, a task that throws, and one still queued at `shutdown`. -/
theorem shutdown_runs_accepted_pair :
    ∃ pool : ThreadPool Nat,
      (machine Nat).run (construct 2 8)
          [.submit 1, .pop 0, .call 0, .submit 2, .trySubmit 3, .pop 1,
            .shutdown, .close, .submit 4, .finish 0 .exception, .pop 0,
            .call 1, .call 0, .finish 0 .returned, .pop 0, .join,
            .finish 1 .unknownException, .pop 1, .join, .stopped] =
        some pool ∧
        pool.queue.accepted = [1, 2, 3] ∧
        (pool.ended.map Prod.fst).Perm pool.queue.accepted := by
  have finishes : ∃ pool : ThreadPool Nat,
      (machine Nat).run (construct 2 8)
          [.submit 1, .pop 0, .call 0, .submit 2, .trySubmit 3, .pop 1,
            .shutdown, .close, .submit 4, .finish 0 .exception, .pop 0,
            .call 1, .call 0, .finish 0 .returned, .pop 0, .join,
            .finish 1 .unknownException, .pop 1, .join, .stopped] =
        some pool ∧
        (pool.caller, pool.queue.accepted) = (.joined, [1, 2, 3]) :=
    Option.map_eq_some_iff.1 (by decide)
  rcases finishes with ⟨pool, ran, found⟩
  rcases Prod.mk.inj found with ⟨joined, accepted⟩
  exact ⟨pool, ran, accepted,
    ((shutdown_runs_accepted ⟨_, ran⟩).2.2 joined).2.1⟩

end ThreadPool

end Cppws.Core
