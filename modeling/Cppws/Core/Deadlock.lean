import Cppws.Core.Threads

/-!
# Dead ends of the two queues

The event loop is the only consumer of `pending_writes_` and it also waits in
`push`: on `pending_writes_` itself for a parse error, on the task queue for a
request, and in `shutdown` for the workers, which wait on `pending_writes_`.
None of these waits can be in vain while the jobs between the read callback and
the drain loop never outnumber the capacity of `pending_writes_`.
-/

namespace Cppws.Core.Threads

/-- Everything recognised and not yet drained. -/
def inFlight (threads : Threads) : Nat :=
  threads.pendingWrites.queue.length + threads.outstanding.length

/-- Every worker that has not exited waits on a full `pending_writes_`. -/
def WorkersStuck (threads : Threads) : Prop :=
  threads.pendingWrites.Full ∧
    (∃ worker ∈ threads.workers, worker ≠ .exited) ∧
    ∀ worker ∈ threads.workers, worker ≠ .exited →
      ∃ job, worker = .posting job

/-- The event loop waits for something that only it can bring about. -/
inductive DeadEnd (threads : Threads) : Prop where
  | posting (job : Job) (busy : threads.loop = .posting job)
      (full : threads.pendingWrites.Full)
  | submitting (job : Job) (busy : threads.loop = .submitting job)
      (full : threads.tasks.Full) (stuck : threads.WorkersStuck)
  | joining (busy : threads.loop = .joining) (stuck : threads.WorkersStuck)

/-- `pending_writes_` has room for the next job and all those in flight. -/
def RoomForAll (threads : Threads) : Action → Prop
  | .recognise _ => threads.inFlight < threads.pendingWrites.capacity
  | .parseError _ => threads.inFlight < threads.pendingWrites.capacity
  | _ => True

instance (threads : Threads) :
    ∀ action, Decidable (threads.RoomForAll action)
  | .recognise _ | .parseError _ => inferInstanceAs (Decidable (_ < _))
  | .loopPush | .wakeup | .drain | .stop | .leave | .join | .pop _
  | .dispatch _ _ | .post _ => inferInstanceAs (Decidable True)

theorem outstanding_pos_of_inHand {threads : Threads} {job : Job}
    (busy : threads.loop.inHand = [job]) : 0 < threads.outstanding.length := by
  unfold outstanding
  rw [busy, List.length_append]
  exact Nat.succ_pos _

theorem outstanding_pos_of_posting {threads : Threads} {job : Job}
    (waits : .posting job ∈ threads.workers) :
    0 < threads.outstanding.length := by
  have held : job ∈ threads.workers.filterMap Worker.held :=
    List.mem_filterMap.2 ⟨_, waits, rfl⟩
  apply List.length_pos_of_mem (a := job)
  unfold outstanding
  exact List.mem_append_left _ (List.mem_append_left _ held)

theorem WorkersStuck.capacity_lt {threads : Threads}
    (stuck : threads.WorkersStuck) :
    threads.pendingWrites.capacity < threads.inFlight := by
  rcases stuck with ⟨full, ⟨worker, member, alive⟩, waits⟩
  rcases waits worker member alive with ⟨job, rfl⟩
  exact Nat.lt_of_le_of_lt full.1
    (Nat.lt_add_of_pos_right (outstanding_pos_of_posting member))

/-- In a dead end more jobs are in flight than `pending_writes_` holds. -/
theorem DeadEnd.capacity_lt {threads : Threads} (dead : threads.DeadEnd) :
    threads.pendingWrites.capacity < threads.inFlight := by
  cases dead with
  | posting job busy full =>
      have waits : threads.loop.inHand = [job] := by rw [busy]; rfl
      exact Nat.lt_of_le_of_lt full.1
        (Nat.lt_add_of_pos_right (outstanding_pos_of_inHand waits))
  | submitting job busy full stuck => exact stuck.capacity_lt
  | joining busy stuck => exact stuck.capacity_lt

/-- With room for every new job, the jobs in flight keep fitting. -/
theorem step_inFlight {before after : Threads} {action : Action}
    (fits : before.inFlight ≤ before.pendingWrites.capacity)
    (guard : before.RoomForAll action)
    (stepped : before.step action = some after) :
    after.inFlight ≤ after.pendingWrites.capacity := by
  rw [(step_frame stepped).2]
  unfold inFlight at *
  cases step_effect stepped with
  | arrives conn announced joined _ _ queued =>
      have room : before.inFlight < before.pendingWrites.capacity := by
        rcases announced with ⟨rfl, _⟩ | ⟨rfl, _⟩ <;> exact guard
      unfold inFlight at room
      rw [joined, queued, List.length_append, List.length_singleton]
      omega
  | moves handed _ _ _ queued =>
      have fewer : after.outstanding.length ≤ before.outstanding.length := by
        rcases handed with fewer | ⟨_, same⟩
        · exact fewer.length_le
        · exact Nat.le_of_eq same.length_eq
      omega
  | posts job left right was remains _ _ _ _ queued =>
      rw [was, List.length_append, List.length_cons] at fits
      rw [remains, queued, List.length_append]
      omega

/--
No state of a run is a dead end if `pending_writes_` has room for all jobs in
flight whenever the read callback recognises a request or a parse error.
-/
theorem not_deadEnd (workers : Nat) (actions : List Action)
    (threads : Threads)
    (guarded : machine.Guarded RoomForAll (start workers) actions)
    (ran : machine.run (start workers) actions = some threads) :
    ¬ threads.DeadEnd := by
  intro dead
  have initially : (start workers).inFlight ≤
      (start workers).pendingWrites.capacity := by
    unfold inFlight
    rw [start_outstanding]
    exact Nat.zero_le _
  have fits : threads.inFlight ≤ threads.pendingWrites.capacity :=
    guarded.invariant
      (fun _ _ _ kept guard stepped => step_inFlight kept guard stepped)
      initially ran
  exact absurd dead.capacity_lt (Nat.not_lt.2 fits)

/-- A parse error and a request, and the server is stopped. -/
theorem not_deadEnd_stopped :
    ∃ threads,
      machine.run (start 1)
          [.parseError 0, .loopPush, .recognise 0, .loopPush, .stop, .leave,
            .pop 0, .dispatch 0 false, .post 0, .pop 0, .join] =
        some threads ∧
        threads.loop = .returned ∧ ¬ threads.DeadEnd := by
  have finishes : ∃ threads,
      machine.run (start 1)
          [.parseError 0, .loopPush, .recognise 0, .loopPush, .stop, .leave,
            .pop 0, .dispatch 0 false, .post 0, .pop 0, .join] =
        some threads ∧
        threads.loop = .returned :=
    Option.map_eq_some_iff.1 (by decide)
  rcases finishes with ⟨threads, ran, returned⟩
  exact ⟨threads, ran, returned, not_deadEnd 1 _ threads (by decide) ran⟩

/-! ## A batch of parse errors -/

/-- The event loop polls and the queues hold so many items each. -/
structure Filled (threads : Threads) (tasks writes : Nat) : Prop where
  polling : threads.loop = .polling
  tasks : threads.tasks.queue.length = tasks
  roomyTasks : threads.tasks.capacity = defaultCapacity
  openTasks : threads.tasks.closed = false
  writes : threads.pendingWrites.queue.length = writes
  roomyWrites : threads.pendingWrites.capacity = defaultCapacity
  openWrites : threads.pendingWrites.closed = false

theorem start_filled (workers : Nat) : (start workers).Filled 0 0 := by
  constructor <;> rfl

theorem Filled.parseError {threads : Threads} {tasks writes : Nat}
    (filled : threads.Filled tasks writes) (conn : Nat)
    (room : writes < defaultCapacity) :
    ∃ next,
      machine.run threads [.parseError conn, .loopPush] = some next ∧
        next.Filled tasks (writes + 1) := by
  rcases TaskQueue.push_of_room (threads.nextJob conn) filled.openWrites
      (by rwa [filled.writes, filled.roomyWrites]) with
    ⟨after, pushed, queued, same, still⟩
  refine
    ⟨{ threads with
        pendingWrites := after
        posted := threads.posted ++ [threads.nextJob conn]
        recognised := threads.recognise conn
        loop := .polling }, ?_, ?_⟩
  · simp [Machine.run, machine, step, filled.polling, pushed]
  · exact
      { filled with
        polling := rfl
        writes := by simp [queued, filled.writes]
        roomyWrites := same.trans filled.roomyWrites
        openWrites := still }

theorem Filled.recognise {threads : Threads} {tasks writes : Nat}
    (filled : threads.Filled tasks writes) (conn : Nat)
    (room : tasks < defaultCapacity) :
    ∃ next,
      machine.run threads [.recognise conn, .loopPush] = some next ∧
        next.Filled (tasks + 1) writes := by
  rcases TaskQueue.push_of_room (threads.nextJob conn) filled.openTasks
      (by rwa [filled.tasks, filled.roomyTasks]) with
    ⟨after, pushed, queued, same, still⟩
  refine
    ⟨{ threads with
        tasks := after
        recognised := threads.recognise conn
        loop := .polling }, ?_, ?_⟩
  · simp [Machine.run, machine, step, filled.polling, pushed]
  · exact
      { filled with
        polling := rfl
        tasks := by simp [queued, filled.tasks]
        roomyTasks := same.trans filled.roomyTasks
        openTasks := still }

/--
One connection whose chunks are refused: `feed` returns `Error` for the first
of two and `Complete` for the second.
-/
def refusedTwice : List Action :=
  [.parseError 0, .loopPush] ++ [.recognise 0, .loopPush]

/-- The connection can fill both queues before anything is drained. -/
theorem run_refusedTwice (workers : Nat) :
    ∀ count ≤ defaultCapacity, ∃ threads,
      machine.run (start workers)
          (List.replicate count refusedTwice).flatten = some threads ∧
        threads.Filled count count := by
  intro count
  induction count with
  | zero => exact fun _ => ⟨_, rfl, start_filled workers⟩
  | succ count ih =>
      intro room
      rcases ih (Nat.le_of_succ_le room) with ⟨threads, ran, filled⟩
      rcases filled.parseError 0 room with ⟨halfway, refused, filled⟩
      rcases filled.recognise 0 room with ⟨next, completed, filled⟩
      refine ⟨next, ?_, filled⟩
      rw [List.replicate_succ', List.flatten_append, List.flatten_singleton,
        Machine.run_append, ran, Option.bind_some, refusedTwice,
        Machine.run_append, refused, Option.bind_some, completed]

/-- One more parse error than `pending_writes_` holds. -/
theorem not_deadEnd_parseErrors :
    ¬ ∀ workers ≥ 1, ∀ actions threads,
        machine.run (start workers) actions = some threads →
          ¬ threads.DeadEnd := by
  intro never
  rcases run_refusedTwice 1 defaultCapacity (Nat.le_refl _) with
    ⟨threads, ran, filled⟩
  have refused : machine.run (start 1)
      ((List.replicate defaultCapacity refusedTwice).flatten ++
        [.parseError 0]) =
      some
        { threads with
          loop := .posting (threads.nextJob 0)
          recognised := threads.recognise 0 } := by
    rw [Machine.run_append, ran]
    simp [Machine.run, machine, step, filled.polling]
  refine never 1 (Nat.le_refl _) _ _ refused (.posting _ rfl ⟨?_, ?_⟩)
  · exact Nat.le_of_eq (filled.roomyWrites.trans filled.writes.symm)
  · exact filled.openWrites

end Cppws.Core.Threads
