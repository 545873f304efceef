import Cppws.App.Provenance

/-!
# The end of the event loop

What `EventLoop::run` does after its loop: the worker pool is shut down, which
lets the tasks that have not ended finish, and the connections are dropped.
Nothing drains `pending_writes_` any more, so what is in it when the loop is
left, or is pushed after that, stays there.  The sockets that are closed with
the connections are left out.
-/

namespace Cppws.App

open Cppws.Core
open Cppws.Http
open Cppws.Net

/-- How far `run` has come. -/
inductive Stage where
  | looping
  /-- In `thread_pool_.shutdown()`. -/
  | joining
  | returned
deriving DecidableEq

structure Shutdown where
  trace : Trace
  stage : Stage := .looping

namespace Shutdown

inductive Action where
  /-- A step of the event loop, of a worker, or a call of `stop`. -/
  | loop (action : EventLoop.Action)
  /-- The loop of `run` ends, and the task queue is closed. -/
  | leave
  /-- A worker ends a task while it is waited for. -/
  | work (index : Nat) (response : Option PendingWrite)
  /-- All workers have been joined, and `connections_` is cleared. -/
  | join

def step (shutdown : Shutdown) : Action → Option Shutdown
  | .loop action =>
      if shutdown.stage = .looping then
        (shutdown.trace.step action).map fun next =>
          { shutdown with trace := next }
      else
        none
  | .leave =>
      if shutdown.stage = .looping ∧ shutdown.trace.loop.phase = .waiting ∧
          shutdown.trace.loop.running = false then
        some { shutdown with stage := .joining }
      else
        none
  | .work index response =>
      if shutdown.stage = .joining then
        (shutdown.trace.step (.work index response)).map fun next =>
          { shutdown with trace := next }
      else
        none
  | .join =>
      if shutdown.stage = .joining ∧ shutdown.trace.loop.tasks = [] then
        some
          { trace :=
              { shutdown.trace with
                loop :=
                  { shutdown.trace.loop with connections := fun _ => none } }
            stage := .returned }
      else
        none

def machine : Machine Shutdown Action where
  step := step

/-- The event loop when `run` begins. -/
def start (listenFd wakeupFd : Fd) : Shutdown where
  trace := .start listenFd wakeupFd

/-- It was handed over, or discarded since its connection had closed. -/
def Dealt (taken : Taken) : Prop :=
  match taken with
  | .handed _ _ => True
  | .discarded entry conn calls =>
      (∃ closed, conn = some closed ∧ closed.state = .closed) ∧
        ∀ file, entry.pw.fileFd = some file →
          .closeFile file.handle ∈ calls

/-- Everything that was pushed has been taken out and dealt with. -/
structure Delivered (shutdown : Shutdown) : Prop where
  empty : shutdown.trace.loop.pendingWrites.queue = []
  dealt : ∀ entry ∈ shutdown.trace.pushed,
    ∃ taken ∈ shutdown.trace.taken, taken.entry = entry ∧ Dealt taken

/--
Nothing is queued when the loop is left, and no task that ends after that posts
a response.
-/
def Quiet (shutdown : Shutdown) : Action → Prop
  | .leave => shutdown.trace.loop.pendingWrites.queue = []
  | .work _ response => response = none
  | _ => True

instance (shutdown : Shutdown) (action : Action) :
    Decidable (shutdown.Quiet action) :=
  match action with
  | .leave =>
      decidable_of_iff (shutdown.trace.loop.pendingWrites.queue.length = 0)
        List.length_eq_zero_iff
  | .work _ response =>
      decidable_of_iff (response.isNone = true) Option.isNone_iff_eq_none
  | .loop _ => .isTrue trivial
  | .join => .isTrue trivial

/-! ## What every step keeps -/

/-- A closed connection can be told by its file being closed. -/
theorem closeFile_mem_releasePending {pw : PendingWrite} {file : OpenFile}
    (opened : pw.fileFd = some file) :
    .closeFile file.handle ∈ releasePending pw := by
  rw [releasePending, opened]
  exact List.mem_singleton_self _

/-- What is taken out of the queue is dealt with. -/
theorem dealt_follows {before after : Trace} {action : EventLoop.Action}
    {next : EventLoop} (settled : before.Settled) (sourced : before.Sourced)
    (follows : before.Follows next action after)
    (dealt : ∀ taken ∈ before.taken, Dealt taken) :
    ∀ taken ∈ after.taken, Dealt taken := by
  cases follows with
  | aside | accepts | throws | posts => exact dealt
  | receives received id client _ dispatch =>
      cases dispatch <;> exact dealt
  | writes =>
      rw [Trace.taken_note]
      exact dealt
  | hands =>
      intro taken member
      rcases List.mem_append.1 member with old | new
      · exact dealt taken old
      · rw [List.mem_singleton.1 new]
        trivial
  | discards answers entry rest waiting conn gone dead =>
      intro taken member
      rcases List.mem_append.1 member with old | new
      · exact dealt taken old
      · rw [List.mem_singleton.1 new]
        refine ⟨?_, fun file opened => closeFile_mem_releasePending opened⟩
        rcases sourced.waiting entry (by rw [waiting]; exact List.mem_cons_self)
          with ⟨id, named, read⟩
        rcases List.exists_mem_of_ne_nil _ read.1 with ⟨socket, member⟩
        have homes := settled.homed.known id
        rw [read.2 socket member] at homes
        rcases Option.isSome_iff_exists.1 homes.symm with ⟨client, found⟩
        have known : before.loop.deref entry.pw.conn = some (id, client) :=
          EventLoop.deref_eq_some_iff.2 ⟨named, found⟩
        rw [known] at gone
        have closed := dead client.conn gone
        have shut : client.conn.state = .closed := by
          simpa [Connection.isAlive] using closed
        exact ⟨client.conn, gone, shut⟩

structure Consistent (shutdown : Shutdown) : Prop where
  recorded : shutdown.trace.Recorded
  sourced : shutdown.stage ≠ .returned →
    shutdown.trace.Settled ∧ shutdown.trace.Sourced
  dealt : ∀ taken ∈ shutdown.trace.taken, Dealt taken

theorem start_consistent (listenFd wakeupFd : Fd) :
    (start listenFd wakeupFd).Consistent := by
  constructor
  · exact Trace.start_recorded listenFd wakeupFd
  · exact fun _ => ⟨Trace.start_settled listenFd wakeupFd,
      Trace.start_sourced listenFd wakeupFd⟩
  · intro taken member
    cases member

/-- The event loop or a worker goes on. -/
theorem Consistent.moves {before : Shutdown} {next : Trace}
    {action : EventLoop.Action} (consistent : before.Consistent)
    (goesOn : before.stage ≠ .returned)
    (stepped : before.trace.step action = some next) :
    Consistent { before with trace := next } := by
  have stepped : Trace.machine.step before.trace action = some next := stepped
  rcases consistent.sourced goesOn with ⟨settled, sourced⟩
  rcases consistent.recorded.follows stepped with ⟨_, _, follows⟩
  constructor
  · exact consistent.recorded.step stepped
  · exact fun _ => ⟨(settled.step stepped).1, sourced.step settled stepped⟩
  · exact dealt_follows settled sourced follows consistent.dealt

/-- A step with what it needs. -/
inductive Effect (before : Shutdown) : Action → Shutdown → Prop where
  | loop (action : EventLoop.Action) (looping : before.stage = .looping)
      (next : Trace) (moved : before.trace.step action = some next) :
      Effect before (.loop action) { before with trace := next }
  | leave (looping : before.stage = .looping) :
      Effect before .leave { before with stage := .joining }
  | work (index : Nat) (response : Option PendingWrite)
      (joining : before.stage = .joining) (next : Trace)
      (moved : before.trace.step (.work index response) = some next) :
      Effect before (.work index response) { before with trace := next }
  | join (joining : before.stage = .joining) :
      Effect before .join
        { trace :=
            { before.trace with
              loop := { before.trace.loop with connections := fun _ => none } }
          stage := .returned }

theorem step_effect {before after : Shutdown} {action : Action}
    (stepped : machine.step before action = some after) :
    Effect before action after := by
  have stepped : before.step action = some after := stepped
  cases action with
  | loop action =>
      simp only [Shutdown.step] at stepped
      split_ifs at stepped with looping
      rcases Option.map_eq_some_iff.1 stepped with ⟨next, moved, rfl⟩
      exact .loop action looping next moved
  | leave =>
      simp only [Shutdown.step] at stepped
      split_ifs at stepped with left
      cases stepped
      exact .leave left.1
  | work index response =>
      simp only [Shutdown.step] at stepped
      split_ifs at stepped with joining
      rcases Option.map_eq_some_iff.1 stepped with ⟨next, moved, rfl⟩
      exact .work index response joining next moved
  | join =>
      simp only [Shutdown.step] at stepped
      split_ifs at stepped with joined
      cases stepped
      exact .join joined.1

theorem Consistent.step {before after : Shutdown} {action : Action}
    (consistent : before.Consistent)
    (stepped : machine.step before action = some after) :
    after.Consistent := by
  cases step_effect stepped with
  | loop action looping next moved =>
      refine consistent.moves ?_ moved
      rw [looping]
      exact nofun
  | leave looping =>
      refine ⟨consistent.recorded, fun _ => consistent.sourced ?_,
        consistent.dealt⟩
      rw [looping]
      exact nofun
  | work index response joining next moved =>
      refine consistent.moves ?_ moved
      rw [joining]
      exact nofun
  | join joining =>
      exact ⟨consistent.recorded.aside rfl rfl rfl rfl, fun goesOn =>
        absurd rfl goesOn, consistent.dealt⟩

/-! ## What is left in the queue -/

/-- After the loop something is queued, and nobody takes it out. -/
def Stranded (shutdown : Shutdown) : Prop :=
  shutdown.stage ≠ .looping ∧
    shutdown.trace.loop.pendingWrites.queue ≠ []

/-- What a worker pushes is queued. -/
theorem queue_of_worked {trace next : Trace} {index : Nat}
    {response : Option PendingWrite} (recorded : trace.Recorded)
    (stepped : trace.step (.work index response) = some next) :
    (response = none ∧
        next.loop.pendingWrites.queue = trace.loop.pendingWrites.queue) ∨
      response ≠ none ∧ ∃ pw, next.loop.pendingWrites.queue =
        trace.loop.pendingWrites.queue ++ [pw] := by
  have stepped : Trace.machine.step trace (.work index response) =
      some next := stepped
  rcases recorded.follows stepped with ⟨loop, moved, follows⟩
  cases follows with
  | aside _ _ _ _ working => exact absurd rfl (working index response)
  | throws _ _ _ _ pendingWrites =>
      exact Or.inl ⟨rfl, congrArg TaskQueue.queue pendingWrites⟩
  | posts _ _ _ _ response _ queued => exact Or.inr ⟨nofun, _, queued⟩

/-- Exactly the steps that are not quiet strand something. -/
theorem stranded_iff {before after : Shutdown} {action : Action}
    (consistent : before.Consistent) (free : ¬ before.Stranded)
    (stepped : machine.step before action = some after) :
    after.Stranded ↔ ¬ before.Quiet action := by
  cases step_effect stepped with
  | loop action looping =>
      exact iff_of_false (fun stranded => stranded.1 looping)
        (not_not.2 trivial)
  | leave looping => exact and_iff_right nofun
  | work index response joining next moved =>
      have outside : before.stage ≠ .looping := by
        rw [joining]
        exact nofun
      have empty : before.trace.loop.pendingWrites.queue = [] := by
        by_contra queued
        exact free ⟨outside, queued⟩
      rcases queue_of_worked consistent.recorded moved with
        ⟨threw, same⟩ | ⟨posted, pw, more⟩
      · refine iff_of_false ?_ (not_not.2 threw)
        rintro ⟨_, queued⟩
        exact queued (same.trans empty)
      · refine iff_of_true ⟨outside, ?_⟩ posted
        show next.loop.pendingWrites.queue ≠ []
        rw [more]
        exact List.append_ne_nil_of_right_ne_nil _ nofun
  | join joining =>
      have outside : before.stage ≠ .looping := by
        rw [joining]
        exact nofun
      exact iff_of_false (fun stranded => free ⟨outside, stranded.2⟩)
        (not_not.2 trivial)

/-- A worker takes nothing out of the queue. -/
theorem queued_of_worked {trace next : Trace} {index : Nat}
    {response : Option PendingWrite}
    (stepped : trace.step (.work index response) = some next)
    (queued : trace.loop.pendingWrites.queue ≠ []) :
    next.loop.pendingWrites.queue ≠ [] := by
  rcases Option.map_eq_some_iff.1 stepped with ⟨loop, moved, rfl⟩
  rw [Trace.loop_follow]
  have finishes := EventLoop.finished_finishes moved
  cases finishes with
  | throws => exact queued
  | posts _ _ pw _ queue accepted pushed =>
      rcases TaskQueue.push_eq_some pushed with
        ⟨_, _, same⟩ | ⟨_, _, _, more, _, _⟩
      · show queue.queue ≠ []
        rw [same]
        exact queued
      · show queue.queue ≠ []
        rw [more]
        exact List.append_ne_nil_of_right_ne_nil _ nofun

/-- What is stranded stays stranded. -/
theorem Stranded.step {before after : Shutdown} {action : Action}
    (stranded : before.Stranded)
    (stepped : machine.step before action = some after) :
    after.Stranded := by
  rcases stranded with ⟨outside, queued⟩
  cases step_effect stepped with
  | loop action looping => exact absurd looping outside
  | leave looping => exact absurd looping outside
  | work index response _ next moved =>
      exact ⟨outside, queued_of_worked moved queued⟩
  | join => exact ⟨nofun, queued⟩

/-- If nothing is queued, everything has been dealt with. -/
theorem Consistent.delivered_iff {shutdown : Shutdown}
    (consistent : shutdown.Consistent) :
    shutdown.Delivered ↔ shutdown.trace.loop.pendingWrites.queue = [] := by
  constructor
  · exact Delivered.empty
  · intro empty
    refine ⟨empty, fun entry member => ?_⟩
    have nothing : shutdown.trace.waiting = [] := by
      rw [← List.map_eq_nil_iff, consistent.recorded.waiting, empty]
    rw [Trace.pushed, nothing, List.append_nil] at member
    rcases List.mem_map.1 member with ⟨taken, among, same⟩
    exact ⟨taken, among, same, consistent.dealt taken among⟩

/--
When `run` returns, everything that was pushed has been handed over or
discarded, exactly if nothing was queued when the loop was left and every task
that ended after that threw.
-/
theorem returned_delivered_iff {listenFd wakeupFd : Fd}
    {actions : List Action} {shutdown : Shutdown}
    (ran : machine.run (start listenFd wakeupFd) actions = some shutdown)
    (ended : shutdown.stage = .returned) :
    shutdown.Delivered ↔
      machine.Guarded Quiet (start listenFd wakeupFd) actions := by
  have reachable : machine.Reachable (start listenFd wakeupFd) shutdown :=
    ⟨actions, ran⟩
  have consistent : shutdown.Consistent :=
    reachable.invariant (fun _ _ _ before stepped => before.step stepped)
      (start_consistent listenFd wakeupFd)
  have outside : shutdown.stage ≠ .looping := by
    rw [ended]
    exact nofun
  have kept : shutdown.Delivered ↔ ¬ shutdown.Stranded := by
    rw [consistent.delivered_iff]
    constructor
    · exact fun empty stranded => stranded.2 empty
    · intro free
      by_contra queued
      exact free ⟨outside, queued⟩
  rw [kept]
  exact Machine.not_failed_iff_guarded
    (fun _ _ _ consistent free stepped => stranded_iff consistent free stepped)
    (fun _ _ _ consistent _ stepped _ => consistent.step stepped)
    (fun _ _ _ stranded stepped => stranded.step stepped)
    (start_consistent listenFd wakeupFd) (fun stranded => stranded.1 rfl) ran

/-- A run in which `stop` is called, and what comes after it. -/
def stopped (work : List EventLoop.Action) (after : List Action) :
    List Action :=
  (EventLoop.exchange 71 (text "ET / HTTP/1.1\r\n\r\n")
    (text "ok")).dropLast.map
      .loop ++ work.map .loop ++ [.loop .stop, .leave] ++ after ++ [.join]

/-- The response is drained before the loop is left. -/
theorem returned_delivered_drained :
    ∃ shutdown,
      machine.run (start 3 5)
          (stopped
            [.work 0 (some { conn := none, data := text "ok" }),
              .wait [EventLoop.readable 5], .handle, .drain [.took 2],
              .drain [], .reap] []) = some shutdown ∧
        shutdown.Delivered := by
  have finishes : ∃ shutdown,
      machine.run (start 3 5)
          (stopped
            [.work 0 (some { conn := none, data := text "ok" }),
              .wait [EventLoop.readable 5], .handle, .drain [.took 2],
              .drain [], .reap] []) = some shutdown ∧
        shutdown.stage = .returned :=
    Option.map_eq_some_iff.1 (by decide)
  rcases finishes with ⟨shutdown, ran, ended⟩
  have quiet : machine.Guarded Quiet (start 3 5)
      (stopped
        [.work 0 (some { conn := none, data := text "ok" }),
          .wait [EventLoop.readable 5], .handle, .drain [.took 2],
          .drain [], .reap] []) := by
    decide
  exact ⟨shutdown, ran, (returned_delivered_iff ran ended).2 quiet⟩

/-- The task ends after the loop has been left. -/
theorem returned_delivered_late :
    ¬ ∀ listenFd wakeupFd actions shutdown,
        machine.run (start listenFd wakeupFd) actions = some shutdown →
          shutdown.stage = .returned → shutdown.Delivered := by
  intro always
  have finishes : ∃ shutdown,
      machine.run (start 3 5)
          (stopped []
            [.work 0 (some { conn := none, data := text "ok" })]) =
          some shutdown ∧
        (shutdown.stage,
          shutdown.trace.loop.pendingWrites.queue.map PendingWrite.data) =
            (.returned, [text "ok"]) :=
    Option.map_eq_some_iff.1 (by decide)
  rcases finishes with ⟨shutdown, ran, both⟩
  rcases Prod.mk.inj both with ⟨ended, queued⟩
  have delivered := always 3 5 _ shutdown ran ended
  rw [delivered.empty] at queued
  cases queued

end Shutdown

end Cppws.App
