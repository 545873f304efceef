import Cppws.App.Accounts

/-!
# What is registered with the epoll instance

The descriptors of the server stay registered, and every other descriptor that
is registered belongs to a connection that is alive.  Between two iterations
all stored connections are alive, so the connection table and the epoll
instance agree.
-/

namespace Cppws.App

open Cppws.Core
open Cppws.Http
open Cppws.Net

namespace EventLoop

/-- A descriptor of the server, or of a stored connection that is alive. -/
inductive Served (loop : EventLoop) (fd : Fd) : Prop where
  | server (own : fd = loop.listenFd ∨ fd = loop.wakeupFd)
  | client (id : Nat) (client : Client)
      (stored : loop.connections fd = some id)
      (found : loop.heap id = some client)
      (alive : client.conn.isAlive = true)

/-- Exactly these descriptors are registered. -/
def Enrolled (loop : EventLoop) : Prop :=
  ∀ fd, (loop.kernel.interest fd).isSome ↔ loop.Served fd

theorem start_enrolled (listenFd wakeupFd : Fd) :
    (start listenFd wakeupFd).Enrolled := by
  intro fd
  show (if fd = listenFd ∨ fd = wakeupFd then some serverMask
    else none).isSome ↔ _
  constructor
  · intro registered
    by_contra unserved
    have foreign : ¬ (fd = listenFd ∨ fd = wakeupFd) := fun own =>
      unserved (.server own)
    rw [if_neg foreign] at registered
    cases registered
  · rintro (own | ⟨id, client, stored, _, _⟩)
    · have own : fd = listenFd ∨ fd = wakeupFd := own
      rw [if_pos own]
      rfl
    · cases stored

/-- The same descriptors are served when no connection changes sides. -/
theorem Served.congr (before after : EventLoop)
    (listenFd : after.listenFd = before.listenFd)
    (wakeupFd : after.wakeupFd = before.wakeupFd) {fd : Fd}
    (connections : after.connections fd = before.connections fd)
    (alive : ∀ id, before.connections fd = some id →
      (after.heap id).map (·.conn.isAlive) =
        (before.heap id).map (·.conn.isAlive)) :
    after.Served fd ↔ before.Served fd := by
  have moved : ∀ {first second : EventLoop},
      second.listenFd = first.listenFd → second.wakeupFd = first.wakeupFd →
        second.connections fd = first.connections fd →
          (∀ id, first.connections fd = some id →
            (second.heap id).map (·.conn.isAlive) =
              (first.heap id).map (·.conn.isAlive)) →
            first.Served fd → second.Served fd := by
    intro first second listenFd wakeupFd connections alive served
    cases served with
    | server own =>
        rw [← listenFd, ← wakeupFd] at own
        exact .server own
    | client id client stored found lives =>
        have same := alive id stored
        rw [found, Option.map_some, lives] at same
        rcases Option.map_eq_some_iff.1 same with ⟨other, found', lives'⟩
        exact .client id other (connections.trans stored) found' lives'
  constructor
  · apply moved listenFd.symm wakeupFd.symm connections.symm
    intro id stored
    exact (alive id (connections ▸ stored)).symm
  · exact moved listenFd wakeupFd connections alive

theorem Enrolled.frame {before after : EventLoop} (enrolled : before.Enrolled)
    (frame : Frame before after) : after.Enrolled := by
  intro fd
  rw [frame.registered, enrolled fd]
  refine (Served.congr before after frame.listenFd frame.wakeupFd ?_
    fun id _ => ?_).symm
  · rw [frame.connections]
  · rw [frame.heap]

/-- The queues and the phase do not matter. -/
theorem Enrolled.aside {loop : EventLoop} (enrolled : loop.Enrolled)
    (pendingWrites : TaskQueue PendingWrite) (tasks : List Nat)
    (running : Bool) (phase : Phase) :
    Enrolled
      { loop with
        pendingWrites := pendingWrites
        tasks := tasks
        running := running
        phase := phase } :=
  enrolled.frame (.of_kernel rfl rfl rfl rfl rfl rfl)

/-- A connection moves. -/
theorem Enrolled.put {loop : EventLoop} (enrolled : loop.Enrolled)
    (sound : loop.Sound) {id : Nat} {client moved : Client} {calls : List Call}
    (found : loop.heap id = some client)
    (moves : Moves client.conn moved.conn calls) :
    (loop.put id moved calls).Enrolled := by
  have others : ∀ other, other ≠ id →
      (loop.put id moved calls).heap other = loop.heap other :=
    fun other different => heap_put_of_ne loop moved calls different
  intro fd
  rcases (sound.placed id client found).kernel_put moves with
    ⟨kernel, _, alive, _⟩ | ⟨dead, _, _, own, stored, only, kernel⟩
  · rw [kernel, enrolled fd]
    refine (Served.congr loop (loop.put id moved calls) rfl rfl rfl
      fun other _ => ?_).symm
    by_cases same : other = id
    · rw [same, heap_put_self, found, Option.map_some, Option.map_some, alive]
    · rw [others other same]
  · rw [kernel]
    by_cases same : fd = own
    · subst same
      rw [close_self]
      constructor
      · nofun
      · rintro (server | ⟨other, entry, stored', found', alive⟩)
        · have unkeyed : loop.connections fd = none :=
            (sound.server fd server).1
          rw [stored] at unkeyed
          cases unkeyed
        · have sameId : some id = some other := stored.symm.trans stored'
          cases sameId
          rw [heap_put_self, Option.some.injEq] at found'
          rw [← found', dead] at alive
          cases alive
    · rw [(close_of_ne _ same).2, enrolled fd]
      refine (Served.congr loop (loop.put id moved calls) rfl rfl rfl
        fun other stored' => ?_).symm
      rw [others]
      rintro rfl
      exact same (only fd stored')

theorem Enrolled.acceptOne {before after : EventLoop}
    (enrolled : before.Enrolled) (sound : before.Sound) {fd : Fd}
    (accepted : before.acceptOne fd = some after) : after.Enrolled := by
  rcases acceptOne_accepts accepted with
    ⟨accepts, _, _, listenFd, wakeupFd, _⟩
  intro key
  cases accepts with
  | stored free unopened connections heap descriptor interest =>
      by_cases same : key = fd
      · rw [interest, same, Function.update_self]
        have stored : after.connections fd = some before.nextConnId := by
          rw [connections, Function.update_self]
        have found := congrFun heap before.nextConnId
        rw [Function.update_self] at found
        exact iff_of_true rfl (.client before.nextConnId _ stored found rfl)
      · rw [interest, Function.update_of_ne same, enrolled key]
        refine (Served.congr before after listenFd wakeupFd ?_
          fun id stored => ?_).symm
        · rw [connections, Function.update_of_ne same]
        · have older := sound.numbered id (sound.named key id stored)
          rw [heap, Function.update_of_ne (Nat.ne_of_lt older)]
  | dropped id taken unopened connections heap descriptor interest =>
      rw [interest, enrolled key]
      refine (Served.congr before after listenFd wakeupFd ?_
        fun other _ => ?_).symm
      · rw [connections]
      · rw [heap]

theorem Enrolled.acceptAll {clients : List Fd} {before after : EventLoop}
    (enrolled : before.Enrolled) (sound : before.Sound)
    (accepted : before.acceptAll clients = some after) : after.Enrolled := by
  induction clients generalizing before with
  | nil =>
      cases accepted
      exact enrolled
  | cons fd rest ih =>
      rcases Option.bind_eq_some_iff.1 accepted with ⟨next, first, accepted⟩
      exact ih (enrolled.acceptOne sound first) (sound.acceptOne first)
        accepted

theorem Enrolled.reaped {loop : EventLoop} (enrolled : loop.Enrolled)
    (sound : loop.Sound) : loop.reaped.Enrolled := by
  intro fd
  show (if loop.dead fd then none else loop.kernel.interest fd).isSome ↔ _
  cases dead : loop.dead fd with
  | false =>
      rw [if_neg nofun, enrolled fd]
      refine (Served.congr loop loop.reaped rfl rfl ?_ fun id _ => rfl).symm
      show (if loop.dead fd then none else loop.connections fd) = _
      rw [dead]
      rfl
  | true =>
      rw [if_pos rfl]
      constructor
      · nofun
      · rintro (own | ⟨id, client, stored, _, _⟩)
        · rcases dead_eq_true_iff.1 dead with ⟨id, client, stored, _⟩
          rw [(sound.server fd own).1] at stored
          cases stored
        · have stored : (if loop.dead fd then none
              else loop.connections fd) = some id := stored
          rw [dead] at stored
          cases stored

/-! ## Every step -/

theorem Enrolled.step {before after : EventLoop} {action : Action}
    (enrolled : before.Enrolled) (sound : before.Sound)
    (stepped : machine.step before action = some after)
    (works : ¬ after.ModifyThrew) : after.Enrolled := by
  cases step_effect stepped with
  | wait | stop => exact enrolled.aside _ _ _ _
  | accept clients last event rest _ _ next accepted =>
      exact (enrolled.acceptAll sound accepted).aside _ _ _ _
  | handle event rest _ _ _ handles =>
      cases handles with
      | closes id client keyed found closed =>
          refine (Enrolled.put enrolled sound found ?_).aside _ _ _ _
          exact .onClosed rfl rfl rfl
      | wakeup | stale | reads | writes | ignores =>
          exact enrolled.aside _ _ _ _
  | recv received event rest _ id client _ found _ reads =>
      cases reads with
      | more =>
          apply enrolled.put sound found
          exact .stays rfl rfl (fun _ => rfl) rfl
      | posts | submits | blocked =>
          refine (Enrolled.put enrolled sound found ?_).aside _ _ _ _
          exact .stays rfl rfl (fun _ => rfl) rfl
      | closes last readBuf read =>
          refine (Enrolled.put enrolled sound found ?_).aside _ _ _ _
          subst read
          exact .onClosed rfl rfl rfl
  | write answers event rest _ id client flushed keyed found flush _ _ writes =>
      cases lives : client.conn.isAlive with
      | false =>
          exact absurd
            ⟨_, (sound.placed id client found).writes_closed keyed lives flush
              writes⟩ works
      | true =>
          have moves : Moves client.conn flushed.conn flushed.calls :=
            .of_flushes (Connection.flushWrite_flushes flush) rfl lives lives
          cases writes with
          | drained =>
              refine Enrolled.frame ?_ (.modify _ _ _ _)
              exact enrolled.put sound found moves
          | partly =>
              refine (Enrolled.put enrolled sound found ?_).aside _ _ _ _
              exact moves
  | drain answers rest _ _ drains =>
      cases drains with
      | finishes | discards => exact enrolled.aside _ _ _ _
      | delivers pw queue _ id client flushed _ found alive delivered _ next
          same =>
          have delivering : next.Enrolled := by
            rw [same]
            refine (Enrolled.put enrolled sound found ?_).aside _ _ _ _
            exact .deliver alive delivered
          split_ifs
          · exact delivering.frame (.modify next _ _ _)
          · exact delivering
  | reap => exact enrolled.reaped sound
  | work index response _ finishes =>
      cases finishes with
      | throws | posts => exact enrolled.aside _ _ _ _

/--
Between two iterations every stored connection is alive and holds the
descriptor it is stored under, and what is registered are the keys of
`connections_` and the descriptors of the server.
-/
theorem connections_registered {listenFd wakeupFd : Fd} {loop : EventLoop}
    (reachable : machine.Reachable (start listenFd wakeupFd) loop)
    (ended : loop.phase = .waiting) :
    (∀ fd id, loop.connections fd = some id →
      ∃ client, loop.heap id = some client ∧
        client.conn.state ≠ .closed ∧ client.conn.socket = some fd) ∧
      ∀ fd, (loop.kernel.interest fd).isSome ↔
        (loop.connections fd).isSome ∨ fd = loop.listenFd ∨
          fd = loop.wakeupFd := by
  have works : ¬ loop.ModifyThrew := by
    rintro ⟨socket, threw⟩
    rw [ended] at threw
    cases threw
  rcases standing_and_of_reachable
      (fun _ _ _ standing (enrolled : Enrolled _) =>
        enrolled.step standing.sound)
      (start_enrolled listenFd wakeupFd) reachable works with
    ⟨standing, enrolled⟩
  have living : ∀ fd id, loop.connections fd = some id →
      ∃ client, loop.heap id = some client ∧
        client.conn.isAlive = true := by
    intro fd id stored
    rcases Option.isSome_iff_exists.1 (standing.sound.named fd id stored) with
      ⟨client, found⟩
    refine ⟨client, found, ?_⟩
    by_contra dead
    have tidy := standing.tidy ended fd
    rw [dead_eq_true_iff.2 ⟨id, client, stored, found, by simpa using dead⟩]
      at tidy
    cases tidy
  constructor
  · intro fd id stored
    rcases living fd id stored with ⟨client, found, alive⟩
    exact ⟨client, found, by simpa [Connection.isAlive] using alive,
      standing.sound.socket found stored alive⟩
  · intro fd
    rw [enrolled fd]
    constructor
    · rintro (own | ⟨id, client, stored, _, _⟩)
      · exact Or.inr own
      · rw [stored]
        exact Or.inl rfl
    · rintro (stored | own)
      · rcases Option.isSome_iff_exists.1 stored with ⟨id, stored⟩
        rcases living fd id stored with ⟨client, found, alive⟩
        exact .client id client stored found alive
      · exact .server own

/-- A client that hangs up is reaped, and its number is used again. -/
theorem connections_registered_reused :
    ∃ loop,
      machine.run (start 3 5)
          [.wait [readable 3], .accept [6] .again, .reap, .wait [hangup 6],
            .handle, .reap, .wait [readable 3], .accept [6] .again, .reap] =
          some loop ∧
        ∀ fd, (loop.kernel.interest fd).isSome ↔
          (loop.connections fd).isSome ∨ fd = loop.listenFd ∨
            fd = loop.wakeupFd := by
  have finishes : ∃ loop,
      machine.run (start 3 5)
          [.wait [readable 3], .accept [6] .again, .reap, .wait [hangup 6],
            .handle, .reap, .wait [readable 3], .accept [6] .again, .reap] =
          some loop ∧
        loop.phase = .waiting :=
    Option.map_eq_some_iff.1 (by decide)
  rcases finishes with ⟨loop, ran, ended⟩
  exact ⟨loop, ran, (connections_registered ⟨_, ran⟩ ended).2⟩

end EventLoop

end Cppws.App
