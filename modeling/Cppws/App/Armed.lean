import Cppws.App.Accounts

/-!
# Pending output is armed

A connection that is alive and has something to send is registered for
`EPOLLOUT`.  The mask changes where a connection is accepted, where a flush for
a response leaves something, and where a flush for an event leaves nothing; a
flush of a connection with nothing to send leaves nothing.
-/

namespace Cppws.Net.Connection

theorem opened_idle (socket : Fd) (id : Nat) : (opened socket id).Idle :=
  ⟨Buffer.readable_ofCapacity _, rfl⟩

/-- A flush that leaves nothing leaves the connection idle, or closed. -/
theorem Flushes.idle_of_remaining {conn : Connection} {answers : List Answer}
    {flushed : Flushed} (flushes : Flushes conn answers flushed)
    (nothing : flushed.remaining = 0) (alive : flushed.conn.isAlive = true) :
    flushed.conn.Idle := by
  cases flushes with
  | opened _ _ _ _ _ _ _ _ _ returned =>
      rw [returned] at nothing
      exact (bytesRemaining_eq_zero_iff _).1 nothing
  | shut _ _ _ last owner closed =>
      rw [closed, isAlive, onClosed_state] at alive
      cases alive

end Cppws.Net.Connection

namespace Cppws.App

open Cppws.Core
open Cppws.Http
open Cppws.Net

namespace EventLoop

/-- If the connection has something to send, it is registered for `EPOLLOUT`. -/
def ArmedAt (loop : EventLoop) (id : Nat) : Prop :=
  ∀ client fd, loop.heap id = some client → client.conn.isAlive = true →
    client.conn.socket = some fd → ¬ client.conn.Idle →
      ∃ mask, loop.kernel.interest fd = some mask ∧ mask.output = true

def Armed (loop : EventLoop) : Prop :=
  ∀ id, loop.ArmedAt id

theorem start_armed (listenFd wakeupFd : Fd) :
    (start listenFd wakeupFd).Armed := by
  intro id client fd found
  cases found

/-- Only connections and masks matter. -/
theorem Armed.aside {before after : EventLoop} (armed : before.Armed)
    (heap : after.heap = before.heap)
    (interest : after.kernel.interest = before.kernel.interest) :
    after.Armed := by
  intro id client fd found
  rw [heap] at found
  rw [interest]
  exact armed id client fd found

/-- A connection does not notice what another one does. -/
theorem ArmedAt.spared {loop : EventLoop} (sound : loop.Sound) {id other : Nat}
    (armed : loop.ArmedAt other) (different : other ≠ id)
    {client moved : Client} {calls : List Call}
    (found : loop.heap id = some client)
    (moves : Moves client.conn moved.conn calls) :
    (loop.put id moved calls).ArmedAt other := by
  intro entry fd known alive socket pending
  rw [heap_put_of_ne _ _ _ different] at known
  rcases armed entry fd known alive socket pending with ⟨mask, kept, output⟩
  refine ⟨mask, ?_, output⟩
  rcases (sound.placed id client found).kernel_put moves with
    ⟨kernel, _⟩ | ⟨_, _, _, own, stored, _, kernel⟩
  · rw [kernel]
    exact kept
  · have apart : fd ≠ own := by
      rintro rfl
      have keyed := sound.stored known socket
      rw [stored, Option.some.injEq] at keyed
      exact different keyed.symm
    rw [kernel, (close_of_ne _ apart).2]
    exact kept

/-- A connection that has no more to send than before stays armed. -/
theorem ArmedAt.moved {loop : EventLoop} (sound : loop.Sound) {id : Nat}
    (armed : loop.ArmedAt id) {client moved : Client} {calls : List Call}
    (found : loop.heap id = some client)
    (moves : Moves client.conn moved.conn calls)
    (fewer : moved.conn.isAlive = true → ¬ moved.conn.Idle →
      ¬ client.conn.Idle) :
    (loop.put id moved calls).ArmedAt id := by
  intro entry fd known alive socket pending
  rw [heap_put_self, Option.some.injEq] at known
  subst known
  rcases (sound.placed id client found).kernel_put moves with
    ⟨kernel, same, lives, _⟩ | ⟨dead, _⟩
  · rw [kernel]
    exact armed client fd found (lives ▸ alive) (same ▸ socket)
      (fewer alive pending)
  · rw [dead] at alive
    cases alive

/-- A connection moves and has no more to send than before. -/
theorem Armed.put {loop : EventLoop} (armed : loop.Armed) (sound : loop.Sound)
    {id : Nat} {client moved : Client} {calls : List Call}
    (found : loop.heap id = some client)
    (moves : Moves client.conn moved.conn calls)
    (fewer : moved.conn.isAlive = true → ¬ moved.conn.Idle →
      ¬ client.conn.Idle) :
    (loop.put id moved calls).Armed := by
  intro other
  by_cases same : other = id
  · rw [same]
    exact (armed id).moved sound found moves fewer
  · exact (armed other).spared sound same found moves

/-! ## Changing a mask -/

theorem interest_modify {loop : EventLoop} {fd : Fd} {events : Events}
    {next : Phase}
    (works : ¬ (loop.modify (some fd) events next).ModifyThrew) :
    (loop.modify (some fd) events next).kernel.interest =
      Function.update loop.kernel.interest fd (some events) := by
  unfold modify at works ⊢
  rw [Option.bind_some] at works ⊢
  cases modified : loop.kernel.modify fd events with
  | none =>
      rw [modified] at works
      exact absurd ⟨some fd, rfl⟩ works
  | some kernel =>
      unfold Kernel.modify at modified
      split_ifs at modified with registered
      cases modified
      rfl

/-- The mask of a connection is changed as it needs it. -/
theorem Armed.modify {loop : EventLoop} {id : Nat} {client : Client} {fd : Fd}
    {events : Events} {next : Phase} (sound : loop.Sound)
    (others : ∀ other, other ≠ id → loop.ArmedAt other)
    (keyed : loop.connections fd = some id)
    (found : loop.heap id = some client)
    (needed : client.conn.isAlive = true → ¬ client.conn.Idle →
      events.output = true)
    (works : ¬ (loop.modify (some fd) events next).ModifyThrew) :
    (loop.modify (some fd) events next).Armed := by
  have heap : (loop.modify (some fd) events next).heap = loop.heap :=
    (Frame.modify loop _ _ _).heap
  intro other entry own known alive socket pending
  rw [heap] at known
  rw [interest_modify works]
  have stored := sound.stored known socket
  by_cases same : own = fd
  · rw [same, keyed, Option.some.injEq] at stored
    subst stored
    rw [found, Option.some.injEq] at known
    subst known
    rw [same, Function.update_self]
    exact ⟨events, rfl, needed alive pending⟩
  · rw [Function.update_of_ne same]
    refine others other ?_ entry own known alive socket pending
    rintro rfl
    exact same (sound.key_eq known socket keyed).symm

/-! ## Every step -/

theorem Armed.acceptOne {before after : EventLoop} (armed : before.Armed)
    (sound : before.Sound) {fd : Fd}
    (accepted : before.acceptOne fd = some after) : after.Armed := by
  cases (acceptOne_accepts accepted).1 with
  | stored free unopened connections heap descriptor interest =>
      intro id client own found alive socket pending
      rw [heap] at found
      by_cases new : id = before.nextConnId
      · rw [new, Function.update_self, Option.some.injEq] at found
        rw [← found] at pending
        exact absurd (Connection.opened_idle fd _) pending
      · rw [Function.update_of_ne new] at found
        have different : own ≠ fd := by
          rintro rfl
          rw [sound.stored found socket] at free
          cases free
        rw [interest, Function.update_of_ne different]
        exact armed id client own found alive socket pending
  | dropped id taken unopened connections heap descriptor interest =>
      exact armed.aside heap interest

theorem Armed.acceptAll {clients : List Fd} {before after : EventLoop}
    (armed : before.Armed) (sound : before.Sound)
    (accepted : before.acceptAll clients = some after) : after.Armed := by
  induction clients generalizing before with
  | nil =>
      cases accepted
      exact armed
  | cons fd rest ih =>
      rcases Option.bind_eq_some_iff.1 accepted with ⟨next, first, accepted⟩
      exact ih (armed.acceptOne sound first) (sound.acceptOne first) accepted

theorem Armed.reaped {loop : EventLoop} (armed : loop.Armed)
    (sound : loop.Sound) : loop.reaped.Armed := by
  intro id client fd found alive socket pending
  have found : loop.heap id = some client := found
  rcases armed id client fd found alive socket pending with
    ⟨mask, registered, output⟩
  have living : ¬ loop.dead fd = true := by
    rw [dead_eq_true_iff]
    rintro ⟨other, entry, stored, known, dead⟩
    rw [sound.stored found socket, Option.some.injEq] at stored
    rw [← stored, found, Option.some.injEq] at known
    rw [← known, alive] at dead
    cases dead
  refine ⟨mask, ?_, output⟩
  show (if loop.dead fd then none else loop.kernel.interest fd) = some mask
  rw [if_neg living]
  exact registered

theorem not_isAlive_onClosed (conn : Connection) :
    ¬ conn.onClosed.1.isAlive = true := by
  rw [Connection.isAlive, Connection.onClosed_state]
  decide

theorem Armed.reads {before after : EventLoop} (armed : before.Armed)
    (sound : before.Sound) {event : EpollEvent} {rest : List EpollEvent}
    {received : Received} {id : Nat} {client : Client}
    (found : before.heap id = some client)
    (reads : Reads before event rest received id client after) :
    after.Armed := by
  cases reads with
  | more =>
      apply armed.put sound found
      · exact .stays rfl rfl (fun _ => rfl) rfl
      · exact fun _ pending => pending
  | posts | submits | blocked =>
      refine Armed.aside (Armed.put armed sound found ?_ ?_) rfl rfl
      · exact .stays rfl rfl (fun _ => rfl) rfl
      · exact fun _ pending => pending
  | closes last readBuf read =>
      refine Armed.aside (Armed.put armed sound found ?_ ?_) rfl rfl
      · subst read
        exact .onClosed rfl rfl rfl
      · exact fun alive _ => absurd alive (not_isAlive_onClosed _)

theorem Armed.writes {before after : EventLoop} (armed : before.Armed)
    (sound : before.Sound) {event : EpollEvent} {rest : List EpollEvent}
    {answers : List Answer} {id : Nat} {client : Client}
    {flushed : Connection.Flushed}
    (keyed : before.connections event.fd = some id)
    (found : before.heap id = some client)
    (lives : client.conn.isAlive = true)
    (flush : client.conn.flushWrite answers = some flushed)
    (writes : Writes before event rest id client flushed after)
    (works : ¬ after.ModifyThrew) : after.Armed := by
  have flushes := Connection.flushWrite_flushes flush
  have moves : Moves client.conn flushed.conn flushed.calls :=
    .of_flushes flushes rfl lives lives
  cases writes with
  | drained nothing =>
      refine Armed.modify ?_ ?_ keyed (heap_put_self _ _ _ _) ?_ works
      · exact sound.put found moves
      · exact fun other different =>
          (armed other).spared sound different found moves
      · exact fun alive pending =>
          absurd (flushes.idle_of_remaining nothing alive) pending
  | partly left =>
      refine Armed.aside (Armed.put armed sound found moves ?_) rfl rfl
      intro _ _ idle
      rw [Connection.flushWrite_of_idle idle, Option.some.injEq] at flush
      exact left (flush ▸ rfl)

/-- A delivery that leaves something leaves the socket. -/
theorem socket_of_left {pw : PendingWrite} {conn : Connection}
    {answers : List Answer} {flushed : Connection.Flushed}
    (delivered : pw.deliver conn answers = some flushed)
    (left : 0 < flushed.remaining) : flushed.conn.socket = conn.socket := by
  rcases PendingWrite.deliver_flushes delivered with
    ⟨calls, _, _, flush, rfl, flushes⟩
  cases flushes with
  | opened _ _ _ socket => exact socket.trans (handedOver_socket pw conn)
  | shut _ _ _ _ _ _ _ _ returned =>
      have left : 0 < flush.remaining := left
      rw [returned] at left
      cases left

theorem idle_of_delivered {pw : PendingWrite} {conn : Connection}
    {answers : List Answer} {flushed : Connection.Flushed}
    (delivered : pw.deliver conn answers = some flushed)
    (nothing : ¬ 0 < flushed.remaining)
    (alive : flushed.conn.isAlive = true) : flushed.conn.Idle := by
  rcases PendingWrite.deliver_flushes delivered with
    ⟨calls, _, _, flush, rfl, flushes⟩
  exact flushes.idle_of_remaining (Nat.eq_zero_of_not_pos nothing) alive

/-- A response is delivered, and the mask changed if something is left. -/
theorem Armed.delivers {before after : EventLoop} (armed : before.Armed)
    (sound : before.Sound) {pw : PendingWrite} {answers : List Answer}
    {id : Nat} {client moved : Client} {flushed : Connection.Flushed}
    {queue : TaskQueue PendingWrite} {rest : List EpollEvent}
    (found : before.heap id = some client)
    (alive : client.conn.isAlive = true)
    (delivered : pw.deliver client.conn answers = some flushed)
    (conn : moved.conn = flushed.conn)
    (next : after =
      { before.put id moved flushed.calls with pendingWrites := queue })
    (works : ¬ (if 0 < flushed.remaining then
        after.modify flushed.conn.socket writeMask (.draining rest)
      else after).ModifyThrew) :
    (if 0 < flushed.remaining then
        after.modify flushed.conn.socket writeMask (.draining rest)
      else after).Armed := by
  have moves : Moves client.conn moved.conn flushed.calls := by
    rw [conn]
    exact .deliver alive delivered
  have heap : after.heap id = some moved := by
    rw [next]
    exact heap_put_self before id moved flushed.calls
  have others : ∀ other, other ≠ id → after.ArmedAt other := by
    intro other different
    have spared := (armed other).spared sound different found moves
    rw [next]
    exact spared
  split_ifs at works ⊢ with left
  · have standing : after.Sound := by
      rw [next]
      exact (sound.put found moves).aside _ _ _ _
    cases sound.placed id client found with
    | closed dead =>
        rw [alive] at dead
        cases dead
    | alive fd _ socket stored =>
        have keyed : after.connections fd = some id := by
          rw [next]
          exact stored
        have held := (socket_of_left delivered left).trans socket
        rw [held] at works ⊢
        exact .modify standing others keyed heap (fun _ _ => rfl) works
  · intro other
    by_cases itself : other = id
    · intro entry fd known lives _ pending
      rw [itself, heap, Option.some.injEq] at known
      rw [← known, conn] at lives pending
      exact absurd (idle_of_delivered delivered left lives) pending
    · exact others other itself

theorem Armed.drains {before after : EventLoop} (armed : before.Armed)
    (sound : before.Sound) {rest : List EpollEvent} {answers : List Answer}
    (drains : Drains before rest answers after)
    (works : ¬ after.ModifyThrew) : after.Armed := by
  cases drains with
  | finishes | discards => exact armed.aside rfl rfl
  | delivers pw queue _ id client flushed _ found alive delivered _ next same =>
      exact armed.delivers sound found alive delivered rfl same works

theorem Armed.step {before after : EventLoop} {action : Action}
    (armed : before.Armed) (sound : before.Sound)
    (stepped : machine.step before action = some after)
    (works : ¬ after.ModifyThrew) : after.Armed := by
  cases step_effect stepped with
  | wait | stop => exact armed.aside rfl rfl
  | accept clients last event rest _ _ next accepted =>
      exact (armed.acceptAll sound accepted).aside rfl rfl
  | handle event rest _ _ _ handles =>
      cases handles with
      | closes id client keyed found closed =>
          refine Armed.aside (Armed.put armed sound found ?_ ?_) rfl rfl
          · exact .onClosed rfl rfl rfl
          · exact fun alive _ => absurd alive (not_isAlive_onClosed _)
      | wakeup | stale | reads | writes | ignores => exact armed.aside rfl rfl
  | recv received event rest _ id client _ found _ reads =>
      exact armed.reads sound found reads
  | write answers event rest _ id client flushed keyed found flush _ _ writes =>
      cases lives : client.conn.isAlive with
      | false =>
          exact absurd
            ⟨_, (sound.placed id client found).writes_closed keyed lives flush
              writes⟩ works
      | true => exact armed.writes sound keyed found lives flush writes works
  | drain answers rest _ _ drains => exact armed.drains sound drains works
  | reap => exact armed.reaped sound
  | work index response _ finishes =>
      cases finishes with
      | throws | posts => exact armed.aside rfl rfl

/--
Unless `epoll_.modify` has thrown, every stored connection that is alive and
has something to send is registered for `EPOLLOUT`, in every state of every run.
-/
theorem pending_armed {listenFd wakeupFd : Fd} {loop : EventLoop}
    (reachable : machine.Reachable (start listenFd wakeupFd) loop)
    (works : ¬ loop.ModifyThrew) {fd : Fd} {id : Nat} {client : Client}
    (stored : loop.find fd = some (id, client))
    (alive : client.conn.isAlive = true)
    (pending : client.conn.writeBuf.readable ≠ [] ∨
      client.conn.sending = true) :
    ∃ mask, loop.kernel.interest fd = some mask ∧ mask.output = true := by
  rcases standing_and_of_reachable
      (fun _ _ _ standing (armed : Armed _) => armed.step standing.sound)
      (start_armed listenFd wakeupFd) reachable works with ⟨standing, armed⟩
  rcases find_eq_some_iff.1 stored with ⟨keyed, found⟩
  refine armed id client fd found alive
    (standing.sound.socket found keyed alive) ?_
  rintro ⟨empty, done⟩
  rcases pending with left | sending
  · exact left empty
  · rw [done] at sending
    cases sending

/-- A response that the socket takes one byte of. -/
theorem pending_armed_partly :
    ∃ loop id client mask,
      machine.run (start 3 5)
          (exchange 71 (text "ET / HTTP/1.1\r\n\r\n") (text "ok") ++
            [.wait [readable 5], .handle,
              .drain [.took 1, .failed .again]]) = some loop ∧
        loop.find 6 = some (id, client) ∧ client.conn.isAlive = true ∧
          loop.kernel.interest 6 = some mask ∧ mask.output = true := by
  have finishes : ∃ loop,
      machine.run (start 3 5)
          (exchange 71 (text "ET / HTTP/1.1\r\n\r\n") (text "ok") ++
            [.wait [readable 5], .handle,
              .drain [.took 1, .failed .again]]) = some loop ∧
        (loop.phase, (loop.find 6).map fun found =>
          (found.2.conn.isAlive, found.2.conn.writeBuf.readable)) =
            (.draining [], some (true, text "k")) :=
    Option.map_eq_some_iff.1 (by decide)
  rcases finishes with ⟨loop, ran, both⟩
  rcases Prod.mk.inj both with ⟨phase, left⟩
  rcases Option.map_eq_some_iff.1 left with
    ⟨⟨id, client⟩, stored, state⟩
  rcases Prod.mk.inj state with ⟨alive, unsent⟩
  have works : ¬ loop.ModifyThrew := by
    rintro ⟨socket, threw⟩
    rw [phase] at threw
    cases threw
  have pending : client.conn.writeBuf.readable ≠ [] := by
    rw [unsent]
    decide
  rcases pending_armed ⟨_, ran⟩ works stored alive (Or.inl pending) with
    ⟨mask, registered, output⟩
  exact ⟨loop, id, client, mask, ran, stored, alive, registered, output⟩

end EventLoop

end Cppws.App
