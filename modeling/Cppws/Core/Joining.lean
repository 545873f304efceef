import Mathlib.Algebra.Order.BigOperators.Group.List
import Mathlib.Algebra.Order.Group.Nat
import Cppws.Core.Settling

/-!
# Whether the server stops

Once the event loop has called `shutdown` it drains `pending_writes_` no more,
and the workers push the responses that are left.  How many those are depends
on the handlers that throw and on nothing else; if `pending_writes_` has room
for them `run` can always return, and if not it never does.
-/

namespace Cppws.Core

/-- The responses a worker has still to post, if these handlers throw. -/
def Worker.toPost (throws : Job → Bool) : Worker → Nat
  | .popping => 0
  | .running job => if throws job then 0 else 1
  | .posting _ => 1
  | .exited => 0

namespace Threads

variable {threads before after : Threads} {throws : Job → Bool}

/-- The responses in `pending_writes_` and those that will be pushed to it. -/
def left (throws : Job → Bool) (threads : Threads) : Nat :=
  threads.pendingWrites.queue.length +
    (threads.workers.map (Worker.toPost throws)).sum +
    threads.tasks.queue.countP fun job => !throws job

/-- A handler throws for these jobs only. -/
def Decides (throws : Job → Bool) (threads : Threads) : Action → Prop
  | .dispatch index threw =>
      ∀ job ∈ threads.workers[index]?.bind Worker.held, threw = throws job
  | _ => True

instance (threads : Threads) : ∀ action,
    Decidable (threads.Decides throws action)
  | .dispatch _ _ => inferInstanceAs (Decidable (∀ job ∈ _, _ = throws job))
  | .recognise _ | .parseError _ | .loopPush | .wakeup | .drain | .stop
  | .leave | .join | .pop _ | .post _ => inferInstanceAs (Decidable True)

/-- A worker goes on, and no response is lost or comes of nothing. -/
theorem left_move {index : Nat} {worker next : Worker}
    (found : before.workers[index]? = some worker)
    (workers : after.workers = before.workers.set index next)
    (moved : after.pendingWrites.queue.length + next.toPost throws +
        after.tasks.queue.countP (fun job => !throws job) =
      before.pendingWrites.queue.length + worker.toPost throws +
        before.tasks.queue.countP fun job => !throws job) :
    after.left throws = before.left throws := by
  have sums := List.sum_map_set (Worker.toPost throws) found next
  unfold left
  rw [workers]
  omega

/-- The queues are in order, and the event loop waits for the workers or has
returned, with so many responses left. -/
structure Waits (throws : Job → Bool) (count : Nat) (threads : Threads) :
    Prop where
  orderly : threads.Orderly
  shutting : threads.loop.Shutting
  left : threads.left throws = count

/-- A worker takes a task or leaves. -/
theorem left_pop {index : Nat}
    (stepped : before.step (.pop index) = some after) :
    after.left throws = before.left throws ∧ after.loop = before.loop := by
  simp only [step] at stepped
  split_ifs at stepped with found
  split at stepped
  case h_1 rest job took =>
    cases stepped
    rcases TaskQueue.pop_eq_some took with
      ⟨item, same, queued, _⟩ | ⟨none, _⟩
    · cases same
      refine ⟨left_move found rfl ?_, rfl⟩
      rw [queued, List.countP_cons]
      cases threw : throws job <;> simp [Worker.toPost, threw]
      omega
    · cases none
  case h_2 rest took =>
    cases stepped
    exact ⟨left_move found rfl rfl, rfl⟩
  case h_3 => cases stepped

/-- A worker pushes its response. -/
theorem Orderly.left_post {index : Nat} (orderly : before.Orderly)
    (stepped : before.step (.post index) = some after) :
    after.left throws = before.left throws ∧ after.loop = before.loop := by
  simp only [Threads.step] at stepped
  split at stepped
  case h_2 => cases stepped
  case h_1 job found =>
    rcases Option.map_eq_some_iff.1 stepped with ⟨pushed, done, rfl⟩
    have joined := (push_of_open orderly.openWrites done).2
    refine ⟨left_move found rfl ?_, rfl⟩
    simp [joined, Worker.toPost]

/-- A handler throws, if it is one of these, or has a response. -/
theorem left_dispatch {index : Nat} {threw : Bool}
    (decides : before.Decides throws (.dispatch index threw))
    (stepped : before.step (.dispatch index threw) = some after) :
    after.left throws = before.left throws ∧ after.loop = before.loop := by
  simp only [step] at stepped
  split at stepped
  case h_2 => cases stepped
  case h_1 job found =>
    cases stepped
    have decided : threw = throws job := by
      apply decides
      rw [found]
      rfl
    refine ⟨left_move found rfl ?_, rfl⟩
    cases threw <;> simp [Worker.toPost, ← decided]

/-- While the event loop waits, what is left stays the same. -/
theorem Waits.step {count : Nat} {action : Action}
    (waits : Waits throws count before)
    (decides : before.Decides throws action)
    (stepped : before.step action = some after) :
    Waits throws count after := by
  have orderly := waits.orderly.step stepped
  have moves (same : after.left throws = before.left throws ∧
      after.loop = before.loop) : Waits throws count after :=
    ⟨orderly, same.2 ▸ waits.shutting, same.1.trans waits.left⟩
  have shutting := waits.shutting
  cases action with
  | pop index => exact moves (left_pop stepped)
  | dispatch index threw => exact moves (left_dispatch decides stepped)
  | post index => exact moves (waits.orderly.left_post stepped)
  | stop =>
      cases stepped
      exact moves ⟨rfl, rfl⟩
  | join =>
      simp only [Threads.step] at stepped
      split_ifs at stepped with joined
      cases stepped
      exact ⟨orderly, Or.inr rfl, waits.left⟩
  | loopPush =>
      rcases shutting with waiting | ended
      · simp [Threads.step, waiting] at stepped
      · simp [Threads.step, ended] at stepped
  | recognise conn | parseError conn | wakeup | drain =>
      simp only [Threads.step] at stepped
      split_ifs at stepped with busy
      simp [Loop.Shutting, busy] at shutting
  | leave =>
      simp only [Threads.step] at stepped
      split_ifs at stepped with busy
      simp [Loop.Shutting, busy.1] at shutting

/-! ## Where all threads rest -/

/-- A step of the threads themselves, if these handlers throw. -/
def Proceeds (throws : Job → Bool) (threads : Threads) (action : Action) :
    Prop :=
  threads.OwnStep action ∧ threads.Decides throws action

/-- A worker that can do nothing while the event loop waits for it. -/
theorem Waits.posting {count : Nat} (waits : Waits throws count threads)
    (rests : machine.Quiescent (Proceeds throws) threads) {worker : Worker}
    (member : worker ∈ threads.workers) (looping : worker ≠ .exited) :
    ∃ job, worker = .posting job ∧ threads.pendingWrites.Full := by
  rcases List.getElem?_of_mem member with ⟨index, found⟩
  cases worker with
  | exited => exact absurd rfl looping
  | popping =>
      have disabled := rests (.pop index) ⟨trivial, trivial⟩
      simp only [machine, Threads.step, found, if_true] at disabled
      split at disabled
      case h_1 => cases disabled
      case h_2 => cases disabled
      case h_3 nothing =>
        have opened := (TaskQueue.pop_eq_none_iff.1 nothing).2
        cases (waits.orderly.shut.2 waits.shutting).symm.trans opened
  | running job =>
      have decides : threads.Decides throws (.dispatch index (throws job)) := by
        intro other held
        rw [found] at held
        cases held
        rfl
      have disabled := rests (.dispatch index (throws job))
        ⟨trivial, decides⟩
      simp [machine, Threads.step, found] at disabled
  | posting job =>
      have disabled := rests (.post index) ⟨trivial, trivial⟩
      simp only [machine, Threads.step, found,
        Option.map_eq_none_iff] at disabled
      exact ⟨job, rfl, TaskQueue.push_eq_none_iff.1 disabled⟩

/-- A worker in `push` stands for one response more than there are pending. -/
theorem pending_lt_left {job : Job}
    (member : .posting job ∈ threads.workers) :
    threads.pendingWrites.queue.length < threads.left throws := by
  have one : 1 ≤ (threads.workers.map (Worker.toPost throws)).sum :=
    List.single_le_sum (fun _ _ => Nat.zero_le _) 1
      (List.mem_map.2 ⟨_, member, rfl⟩)
  unfold left
  omega

/-- Once `run` has returned everything left is in the queue. -/
theorem Waits.fits_of_returned {count : Nat}
    (waits : Waits throws count threads) (ended : threads.loop = .returned) :
    count ≤ defaultCapacity := by
  have gone := waits.orderly.returned ended
  rcases List.exists_mem_of_ne_nil _ waits.orderly.manned with
    ⟨first, manned⟩
  have empty := (waits.orderly.exits (gone first manned ▸ manned)).2
  have nothing : (threads.workers.map (Worker.toPost throws)).sum = 0 := by
    apply List.sum_eq_zero
    intro amount posting
    rcases List.mem_map.1 posting with ⟨worker, member, rfl⟩
    rw [gone worker member]
    rfl
  have left := waits.left
  rw [Threads.left, nothing, empty, List.countP_nil] at left
  have roomy := waits.orderly.roomyWrites
  have bounded := threads.pendingWrites.bounded
  omega

/-- Where the threads can do nothing more the event loop does not wait. -/
theorem Waits.returned {count : Nat} (waits : Waits throws count threads)
    (rests : machine.Quiescent (Proceeds throws) threads)
    (fits : count ≤ defaultCapacity) : threads.loop = .returned := by
  rcases waits.shutting with waiting | ended
  · have disabled := rests .join ⟨trivial, trivial⟩
    simp only [machine, Threads.step, waiting, true_and, ite_eq_right_iff,
      reduceCtorEq, imp_false, not_forall] at disabled
    rcases disabled with ⟨worker, member, looping⟩
    rcases waits.posting rests member looping with ⟨job, rfl, full⟩
    have pending : threads.pendingWrites.queue.length < threads.left throws :=
      pending_lt_left member
    rw [waits.left] at pending
    have roomy := waits.orderly.roomyWrites
    have room := full.1
    omega
  · exact ended

/--
The threads left to themselves come to rest, with the event loop in `shutdown`
if it was there.
-/
theorem Waits.comes_to_rest {count : Nat}
    (waits : Waits throws count threads) :
    ∃ rest final,
      machine.Guarded (Proceeds throws) threads rest ∧
        machine.run threads rest = some final ∧
        Waits throws count final ∧
        machine.Quiescent (Proceeds throws) final :=
  Machine.exists_quiescent remaining
    (fun _ _ _ waits proceeds stepped => waits.step proceeds.2 stepped)
    (fun _ _ _ _ proceeds stepped => ownStep_remaining proceeds.1 stepped)
    threads waits

/--
`run` returns or waits for ever, and which of the two is settled once
`shutdown` has closed the tasks.  Whatever the threads have done since, it can
still return if and only if the responses in `pending_writes_` and those to
come fit the queue, where a job counts unless its handler throws.  And where
the threads can do nothing more, it has returned if and only if they fit.
-/
theorem run_returns_iff {workers : Nat} {actions more : List Action}
    {threads after : Threads} (throws : Job → Bool) (manned : 0 < workers)
    (ran : machine.run (start workers) actions = some threads)
    (joining : threads.loop = .joining)
    (guarded : machine.Guarded (Decides throws) threads more)
    (went : machine.run threads more = some after) :
    ((∃ rest final,
        machine.Guarded (Decides throws) after rest ∧
          machine.run after rest = some final ∧ final.loop = .returned) ↔
      threads.left throws ≤ defaultCapacity) ∧
    (machine.Quiescent (Proceeds throws) after →
      (after.loop = .returned ↔
        threads.left throws ≤ defaultCapacity)) := by
  have orderly : threads.Orderly :=
    Machine.Reachable.invariant ⟨actions, ran⟩
      (fun _ _ _ orderly stepped => Orderly.step orderly stepped)
      (start_orderly manned)
  have kept {before final : Threads} {labels : List Action}
      (waits : Waits throws (threads.left throws) before)
      (guarded : machine.Guarded (Decides throws) before labels)
      (ran : machine.run before labels = some final) :
      Waits throws (threads.left throws) final :=
    guarded.invariant (fun _ _ _ waits => waits.step) waits ran
  have waits := kept ⟨orderly, Or.inl joining, rfl⟩ guarded went
  refine ⟨⟨?_, fun fits => ?_⟩,
    fun rests => ⟨waits.fits_of_returned, waits.returned rests⟩⟩
  · rintro ⟨rest, final, guarded, ran, ended⟩
    exact (kept waits guarded ran).fits_of_returned ended
  · rcases waits.comes_to_rest with ⟨rest, final, own, ran, waits, rests⟩
    have decided : machine.Guarded (Decides throws) after rest :=
      own.mono fun _ _ proceeds => proceeds.2
    exact ⟨rest, final, decided, ran, waits.returned rests fits⟩

/-- A job whose handler throws, one that is answered, and `stop`. -/
theorem run_returns_iff_pair :
    ∃ threads after,
      machine.run (start 2)
          [.recognise 0, .loopPush, .pop 1, .recognise 1, .loopPush, .stop,
            .leave] = some threads ∧
        machine.run threads [.pop 0, .dispatch 1 true, .dispatch 0 false] =
          some after ∧
        ∃ rest final,
          machine.Guarded (Decides fun job => job.conn == 0) after rest ∧
            machine.run after rest = some final ∧ final.loop = .returned := by
  let begun := machine.run (start 2)
    [.recognise 0, .loopPush, .pop 1, .recognise 1, .loopPush, .stop, .leave]
  let more : List Action := [.pop 0, .dispatch 1 true, .dispatch 0 false]
  let throws : Job → Bool := fun job => job.conn == 0
  have finishes : ∃ threads, begun = some threads ∧
      threads.loop = .joining ∧
        machine.Guarded (Decides throws) threads more ∧
          (machine.run threads more).isSome = true ∧
            threads.left throws ≤ defaultCapacity := by
    refine ⟨begun.get (by decide), (Option.some_get _).symm, ?_⟩
    decide
  rcases finishes with ⟨threads, ran, joining, guarded, goesOn, fits⟩
  rcases Option.isSome_iff_exists.1 goesOn with ⟨after, went⟩
  exact ⟨threads, after, ran, went,
    (run_returns_iff throws (by decide) ran joining guarded went).1.2 fits⟩

end Threads

end Cppws.Core
