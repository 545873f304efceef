import Cppws.Foundation.Potential
import Cppws.Core.ThreadPool

/-!
# Progress of the thread pool

What the workers and the thread that calls `shutdown` still have to do, counted
in steps.  Three steps take a task from the queue to its end, one takes a worker
out of its loop, and `shutdown` closes the queue, joins each worker and
returns.  The count goes down by one with each of these steps and only goes up
when a task is accepted.
-/

namespace Cppws.Core

variable {T : Type}

/-- The steps this worker takes if nothing else is queued. -/
def PoolWorker.remaining : PoolWorker T → Nat
  | .popping => 1
  | .holding _ => 3
  | .running _ => 2
  | .exited => 0

/-- The steps to the end of `shutdown` with so many workers. -/
def ShutdownPoint.remaining (workers : Nat) : ShutdownPoint → Nat
  | .outside | .closing => workers + 2
  | .joining worker => workers + 1 - worker
  | .joined => 0

namespace ThreadPool

/-- A step of a worker or of the thread that shuts the pool down. -/
def Action.ofPool : Action T → Bool
  | .submit _ | .trySubmit _ | .shutdown => false
  | .close | .join | .stopped | .pop _ | .call _ | .finish _ _ => true

/-- Steps still to be taken. -/
def remaining (pool : ThreadPool T) : Nat :=
  3 * pool.queue.tasks.queue.length +
    (pool.workers.map PoolWorker.remaining).sum +
    pool.caller.remaining pool.workers.length

/-- Where `shutdown` is shows in the flag and in the queue. -/
structure Staged (pool : ThreadPool T) : Prop where
  called : pool.shutdownCalled = true ↔ pool.caller ≠ .outside
  shut : pool.queue.tasks.closed = true ↔
    pool.caller ≠ .outside ∧ pool.caller ≠ .closing

/-- A step that neither closes the queue nor moves `shutdown` on. -/
theorem Staged.same {before after : ThreadPool T} (staged : before.Staged)
    (called : after.shutdownCalled = before.shutdownCalled)
    (caller : after.caller = before.caller)
    (closed : after.queue.tasks.closed = before.queue.tasks.closed) :
    after.Staged where
  called := by
    rw [called, caller]
    exact staged.called
  shut := by
    rw [closed, caller]
    exact staged.shut

/-- `shutdown` goes on to join another worker or to return. -/
theorem Staged.joins {before after : ThreadPool T} {worker : Nat}
    (staged : before.Staged) (joining : before.caller = .joining worker)
    (called : after.shutdownCalled = before.shutdownCalled)
    (outside : after.caller ≠ .outside) (closing : after.caller ≠ .closing)
    (same : after.queue = before.queue) : after.Staged where
  called := by
    rw [called]
    exact iff_of_true (staged.called.2 (by simp [joining])) outside
  shut := by
    rw [same]
    exact iff_of_true (staged.shut.2 (by simp [joining])) ⟨outside, closing⟩

theorem Staged.step {before after : ThreadPool T} {action : Action T}
    (staged : before.Staged) (stepped : before.step action = some after) :
    after.Staged := by
  cases action with
  | submit task =>
      rcases Option.map_eq_some_iff.1 stepped with
        ⟨⟨queue, accepted⟩, pushed, rfl⟩
      exact staged.same rfl rfl
        (TaskQueue.push_closed (RecordedQueue.push_tasks pushed))
  | trySubmit task =>
      cases stepped
      exact staged.same rfl rfl
        (TaskQueue.tryPush_closed before.queue.tasks task)
  | shutdown =>
      simp only [ThreadPool.step] at stepped
      split_ifs at stepped with called
      · cases stepped
        exact staged
      · cases stepped
        have outside := not_not.1 (mt staged.called.2 called)
        have opened := mt staged.shut.1 (by simp [outside])
        exact ⟨by simp, by simpa using opened⟩
  | close =>
      simp only [ThreadPool.step] at stepped
      split at stepped
      case h_2 => cases stepped
      case h_1 closing =>
        cases stepped
        have called := staged.called.2 (by simp [closing])
        exact ⟨by simpa using called, iff_of_true rfl (by simp)⟩
  | join =>
      simp only [ThreadPool.step] at stepped
      split at stepped
      case h_2 => cases stepped
      case h_1 worker joining =>
        split at stepped
        case h_2 => cases stepped
        case h_1 exited =>
          cases stepped
          exact staged.joins joining rfl (by simp) (by simp) rfl
  | stopped =>
      simp only [ThreadPool.step] at stepped
      split at stepped
      case h_2 => cases stepped
      case h_1 last joining =>
        split at stepped
        case h_2 => cases stepped
        case h_1 beyond =>
          cases stepped
          exact staged.joins joining rfl (by simp) (by simp) rfl
  | pop worker =>
      simp only [ThreadPool.step] at stepped
      split at stepped
      case h_2 => cases stepped
      case h_1 found =>
        rcases Option.map_eq_some_iff.1 stepped with
          ⟨⟨queue, item⟩, took, rfl⟩
        exact staged.same rfl rfl
          (TaskQueue.pop_closed (RecordedQueue.pop_tasks took))
  | call worker =>
      simp only [ThreadPool.step] at stepped
      split at stepped
      case h_2 => cases stepped
      case h_1 task found =>
        cases stepped
        exact staged.same rfl rfl rfl
  | finish worker how =>
      simp only [ThreadPool.step] at stepped
      split at stepped
      case h_2 => cases stepped
      case h_1 task found =>
        cases stepped
        exact staged.same rfl rfl rfl

/-! ## Counting down -/

/-- Only a call of `shutdown` sets `shutdown_called_`. -/
theorem ofPool_shutdownCalled {before after : ThreadPool T}
    {action : Action T} (own : action.ofPool = true)
    (stepped : before.step action = some after) :
    after.shutdownCalled = before.shutdownCalled := by
  cases action with
  | submit task | trySubmit task | shutdown => cases own
  | close | call worker | finish worker how =>
      simp only [ThreadPool.step] at stepped
      split at stepped <;> cases stepped
      rfl
  | join | stopped =>
      simp only [ThreadPool.step] at stepped
      split at stepped
      case h_2 => cases stepped
      case h_1 =>
        split at stepped <;> cases stepped
        rfl
  | pop worker =>
      simp only [ThreadPool.step] at stepped
      split at stepped
      case h_2 => cases stepped
      case h_1 =>
        rcases Option.map_eq_some_iff.1 stepped with ⟨popped, _, rfl⟩
        rfl

/-- Nothing is accepted by a queue that is closed or popped from. -/
theorem close_accepted (recorded : RecordedQueue T) :
    recorded.close.accepted = recorded.accepted := by
  show List.filterMap _ (_ ++ [_]) = _
  rw [List.filterMap_append]
  exact List.append_nil _

theorem pop_accepted {recorded after : RecordedQueue T} {item : Option T}
    (took : recorded.pop = some (after, item)) :
    after.accepted = recorded.accepted := by
  rcases Option.map_eq_some_iff.1 took with ⟨⟨tasks, taken⟩, _, same⟩
  cases same
  show List.filterMap _ (_ ++ [_]) = _
  rw [List.filterMap_append]
  exact List.append_nil _

/-- What a step of a worker leaves to do. -/
theorem remaining_move {pool after : ThreadPool T} {index : Nat}
    {worker next : PoolWorker T} (found : pool.workers[index]? = some worker)
    (workers : after.workers = pool.workers.set index next)
    (caller : after.caller = pool.caller)
    (less : 3 * after.queue.tasks.queue.length + next.remaining + 1 =
      3 * pool.queue.tasks.queue.length + worker.remaining) :
    after.remaining + 1 = pool.remaining := by
  have moved := List.sum_map_set PoolWorker.remaining found next
  unfold remaining
  rw [workers, caller, List.length_set]
  omega

/-- What a step of `shutdown` leaves to do. -/
theorem remaining_shutdown {pool after : ThreadPool T}
    (workers : after.workers = pool.workers)
    (queue : after.queue.tasks.queue = pool.queue.tasks.queue)
    (less : after.caller.remaining pool.workers.length + 1 =
      pool.caller.remaining pool.workers.length) :
    after.remaining + 1 = pool.remaining := by
  unfold remaining
  rw [workers, queue]
  omega

/-- The thread that calls `shutdown` has not joined more workers than exist. -/
theorem Sound.joining_le {pool : ThreadPool T} (sound : pool.Sound)
    {worker : Nat} (joining : pool.caller = .joining worker) :
    worker ≤ pool.workers.length := by
  by_contra beyond
  have exited := sound.joins worker joining pool.workers.length
    (Nat.lt_of_not_le beyond)
  rw [List.getElem?_eq_none (Nat.le_refl _)] at exited
  cases exited

/-- A step of the pool is one of those that remain, and accepts nothing. -/
theorem Sound.ofPool_remaining {before after : ThreadPool T}
    {action : Action T} (sound : before.Sound) (own : action.ofPool = true)
    (stepped : before.step action = some after) :
    after.remaining + 1 = before.remaining ∧
      after.queue.accepted = before.queue.accepted := by
  have later := sound.step stepped
  cases action with
  | submit task | trySubmit task | shutdown => cases own
  | close =>
      simp only [ThreadPool.step] at stepped
      split at stepped
      case h_2 => cases stepped
      case h_1 closing =>
        cases stepped
        refine ⟨remaining_shutdown rfl rfl ?_, close_accepted _⟩
        simp [closing, ShutdownPoint.remaining]
  | join =>
      simp only [ThreadPool.step] at stepped
      split at stepped
      case h_2 => cases stepped
      case h_1 worker joining =>
        split at stepped
        case h_2 => cases stepped
        case h_1 exited =>
          cases stepped
          have within : worker + 1 ≤ before.workers.length :=
            later.joining_le rfl
          refine ⟨remaining_shutdown rfl rfl ?_, rfl⟩
          rw [joining]
          show _ + 1 - (worker + 1) + 1 = _ + 1 - worker
          omega
  | stopped =>
      simp only [ThreadPool.step] at stepped
      split at stepped
      case h_2 => cases stepped
      case h_1 last joining =>
        split at stepped
        case h_2 => cases stepped
        case h_1 beyond =>
          cases stepped
          have within := sound.joining_le joining
          have reached := List.getElem?_eq_none_iff.1 beyond
          refine ⟨remaining_shutdown rfl rfl ?_, rfl⟩
          rw [joining]
          show 0 + 1 = _ + 1 - last
          omega
  | pop worker =>
      simp only [ThreadPool.step] at stepped
      split at stepped
      case h_2 => cases stepped
      case h_1 found =>
        rcases Option.map_eq_some_iff.1 stepped with
          ⟨⟨queue, item⟩, took, rfl⟩
        refine ⟨remaining_move found (rfl : _ = before.workers.set worker
          (item.elim .exited .holding)) rfl ?_, pop_accepted took⟩
        rcases TaskQueue.pop_eq_some (RecordedQueue.pop_tasks took) with
          ⟨task, rfl, queued, _⟩ | ⟨rfl, _, _, same⟩
        · simp only [move, Option.elim_some, queued, List.length_cons,
            PoolWorker.remaining]
          omega
        · simp only [move, Option.elim_none, same, PoolWorker.remaining]
  | call worker =>
      simp only [ThreadPool.step] at stepped
      split at stepped
      case h_2 => cases stepped
      case h_1 task found =>
        cases stepped
        exact ⟨remaining_move found rfl rfl rfl, rfl⟩
  | finish worker how =>
      simp only [ThreadPool.step] at stepped
      split at stepped
      case h_2 => cases stepped
      case h_1 task found =>
        cases stepped
        exact ⟨remaining_move found rfl rfl rfl, rfl⟩

/-- Three steps are left for each task that a submission adds. -/
theorem Sound.submit_remaining {before after : ThreadPool T}
    (sound : before.Sound) (later : after.Sound)
    (workers : after.workers = before.workers)
    (caller : after.caller = before.caller)
    (popped : after.queue.popped = before.queue.popped) :
    after.remaining + 3 * before.queue.accepted.length =
      before.remaining + 3 * after.queue.accepted.length := by
  have balanced := congrArg List.length sound.consistent.balanced
  have balancedAfter := congrArg List.length later.consistent.balanced
  rw [List.length_append] at balanced balancedAfter
  unfold remaining
  rw [workers, caller, ← balanced, ← balancedAfter, popped]
  omega

/-- What a step of the pool takes off, or an accepted task adds. -/
theorem Sound.step_remaining {before after : ThreadPool T}
    {action : Action T} (sound : before.Sound) (staged : before.Staged)
    (stepped : before.step action = some after) :
    (if action.ofPool = true then 1 else 0) + after.remaining +
        3 * before.queue.accepted.length =
      before.remaining + 3 * after.queue.accepted.length := by
  by_cases own : action.ofPool = true
  · rcases sound.ofPool_remaining own stepped with ⟨less, same⟩
    rw [if_pos own, same]
    omega
  rw [if_neg own, Nat.zero_add]
  have later := sound.step stepped
  cases action with
  | submit task =>
      rcases Option.map_eq_some_iff.1 stepped with
        ⟨⟨queue, accepted⟩, pushed, rfl⟩
      exact sound.submit_remaining later rfl rfl
        (RecordedQueue.push_popped pushed)
  | trySubmit task =>
      cases stepped
      exact sound.submit_remaining later rfl rfl
        (RecordedQueue.tryPush_popped _ task)
  | shutdown =>
      simp only [ThreadPool.step] at stepped
      split_ifs at stepped with called
      · cases stepped
        rfl
      · cases stepped
        have outside := not_not.1 (mt staged.called.2 called)
        simp only [remaining, outside, ShutdownPoint.remaining]
  | _ => exact absurd rfl own

/-! ## Progress -/

/-- A step of the pool, wherever it is taken. -/
def OwnStep (_ : ThreadPool T) (action : Action T) : Prop :=
  action.ofPool = true

instance (pool : ThreadPool T) (action : Action T) :
    Decidable (pool.OwnStep action) :=
  inferInstanceAs (Decidable (_ = _))

/-- A pool that is left to itself, seen from where it starts. -/
structure OnItsOwn (start pool : ThreadPool T) : Prop where
  sound : pool.Sound
  staged : pool.Staged
  called : pool.shutdownCalled = start.shutdownCalled
  accepted : pool.queue.accepted = start.queue.accepted

theorem OnItsOwn.step {start before after : ThreadPool T} {action : Action T}
    (alone : OnItsOwn start before) (own : before.OwnStep action)
    (stepped : (machine T).step before action = some after) :
    OnItsOwn start after where
  sound := Sound.step alone.sound stepped
  staged := Staged.step alone.staged stepped
  called := (ofPool_shutdownCalled own stepped).trans alone.called
  accepted :=
    (Sound.ofPool_remaining alone.sound own stepped).2.trans alone.accepted

/-- Steps of the pool lead to a state that allows no more of them. -/
theorem exists_quiescent {pool : ThreadPool T} (sound : pool.Sound)
    (staged : pool.Staged) :
    ∃ more after, (machine T).Guarded OwnStep pool more ∧
      (machine T).run pool more = some after ∧ OnItsOwn pool after ∧
        (machine T).Quiescent OwnStep after := by
  have falls : ∀ (before : ThreadPool T) (action : Action T)
      (after : ThreadPool T), OnItsOwn pool before → before.OwnStep action →
        (machine T).step before action = some after →
          after.remaining < before.remaining := by
    intro before action after alone own stepped
    have less := (Sound.ofPool_remaining alone.sound own stepped).1
    omega
  exact Machine.exists_quiescent remaining
    (fun _ _ _ alone own stepped => alone.step own stepped) falls pool
    ⟨sound, staged, rfl, rfl⟩

end ThreadPool

end Cppws.Core
