import Cppws.App.Ownership

/-!
# When `epoll_.modify` throws

`flush_write` returns 0 both when everything has been sent and when it has
closed the connection, and `handle_event` calls `epoll_.modify` on a 0.  It
throws exactly if the connection was closed by that flush or earlier in the
batch.  `drain_pending_writes` calls it for what remains to be sent only, and
never throws.
-/

namespace Cppws.App

open Cppws.Core
open Cppws.Http
open Cppws.Net

/-! ## Flushes and what becomes of the connection -/

/-- A flush leaves the connection open unless an answer is fatal. -/
theorem isAlive_of_flushes {conn : Connection} {answers : List Answer}
    {flushed : Connection.Flushed}
    (flushes : Connection.Flushes conn answers flushed)
    (alive : conn.isAlive = true) (valid : conn.socket ≠ none)
    (used : flushed.rest = []) :
    flushed.conn.isAlive = true ↔
      ∀ answer ∈ answers, answer.fatal = false := by
  cases flushes with
  | opened spent split harmless _ _ _ _ _ _ _ settled =>
      rw [used, List.append_nil] at split
      rw [split]
      exact iff_of_true (Connection.isAlive_of_settled settled alive)
        (harmless valid)
  | shut spent split fatal last _ closed _ _ _ =>
      rw [used, List.append_nil] at split
      rw [split, closed, Output.not_isAlive (Connection.onClosed_state last)]
      refine iff_of_false Bool.false_ne_true ?_
      intro harmless
      rcases fatal valid with ⟨answer, member, ends⟩
      rw [harmless answer member] at ends
      cases ends

/-- A flush that returns more than 0 leaves the connection open. -/
theorem isAlive_of_remaining {conn : Connection} {answers : List Answer}
    {flushed : Connection.Flushed}
    (flushes : Connection.Flushes conn answers flushed)
    (alive : conn.isAlive = true) (left : flushed.remaining ≠ 0) :
    flushed.conn.isAlive = true := by
  cases flushes with
  | opened _ _ _ _ _ _ _ _ _ _ settled =>
      exact Connection.isAlive_of_settled settled alive
  | shut _ _ _ _ _ _ _ _ returned => exact absurd returned left

theorem isAlive_of_delivered {pw : PendingWrite} {conn : Connection}
    {answers : List Answer} {flushed : Connection.Flushed}
    (delivered : pw.deliver conn answers = some flushed)
    (left : flushed.remaining ≠ 0) : flushed.conn.isAlive = true := by
  rcases PendingWrite.deliver_flushes delivered with
    ⟨calls, _, _, flush, rfl, flushes⟩
  have lives : flush.conn.isAlive = true :=
    isAlive_of_remaining flushes (handedOver_isAlive pw conn) left
  exact lives

namespace EventLoop

/-- The connection that `handle_event` is about to flush. -/
def flushing (loop : EventLoop) : Option Connection :=
  match loop.phase with
  | .writing event _ => (loop.find event.fd).map fun found => found.2.conn
  | _ => none

/--
A flush of `handle_event` is for a connection that is alive, and none of its
system calls ends the connection.
-/
def Survives (loop : EventLoop) : Action → Prop
  | .write answers =>
      ∀ conn ∈ loop.flushing, conn.isAlive = true ∧
        ∀ answer ∈ answers, answer.fatal = false
  | _ => True

instance (loop : EventLoop) : ∀ action, Decidable (loop.Survives action)
  | .write _ => inferInstanceAs (Decidable (∀ conn ∈ _, _ ∧ _))
  | .wait _ | .accept _ _ | .handle | .recv _ | .drain _ | .reap | .work _ _
  | .stop => inferInstanceAs (Decidable True)

/-- The flush of an event throws exactly if it leaves the connection closed. -/
theorem writes_modifyThrew_iff {before after : EventLoop} {event : EpollEvent}
    {rest : List EpollEvent} {answers : List Answer} {id : Nat}
    {client : Client} {flushed : Connection.Flushed} (sound : before.Sound)
    (keyed : before.connections event.fd = some id)
    (found : before.heap id = some client)
    (alive : client.conn.isAlive = true)
    (flush : client.conn.flushWrite answers = some flushed)
    (writes : Writes before event rest id client flushed after) :
    after.ModifyThrew ↔ flushed.conn.isAlive = false := by
  have flushes := Connection.flushWrite_flushes flush
  have placed := (sound.put found
    (Moves.of_flushes flushes rfl alive alive)).placed id
      { client with conn := flushed.conn } (heap_put_self _ _ _ _)
  cases writes with
  | partly left =>
      refine iff_of_false ?_ ?_
      · rintro ⟨socket, phase⟩
        cases phase
      · rw [isAlive_of_remaining flushes alive left]
        exact nofun
  | drained nothing =>
      rw [ModifyThrew, phase_modify]
      cases placed with
      | alive fd lives _ _ registered only =>
          rw [← only event.fd keyed] at registered
          rw [if_pos registered]
          refine iff_of_false ?_ ?_
          · rintro ⟨socket, phase⟩
            cases phase
          · rw [show flushed.conn.isAlive = true from lives]
            exact nofun
      | closed dead _ _ gone =>
          rw [gone event.fd keyed]
          exact iff_of_true ⟨_, rfl⟩ dead

/-- `drain_pending_writes` never throws. -/
theorem drains_not_modifyThrew {before after : EventLoop}
    {rest : List EpollEvent} {answers : List Answer} (sound : before.Sound)
    (phase : before.phase = .draining rest)
    (drains : Drains before rest answers after) : ¬ after.ModifyThrew := by
  cases drains with
  | finishes =>
      rintro ⟨socket, threw⟩
      cases threw
  | discards =>
      rintro ⟨socket, threw⟩
      rw [phase] at threw
      cases threw
  | delivers pw queue _ id client flushed _ found alive delivered _ next same =>
      have undisturbed : next.phase = .draining rest := by
        rw [same]
        exact phase
      split_ifs with left
      · have moved : Placed
            (before.put id
              { client with
                conn := flushed.conn
                answered := client.answered + 1 }
              flushed.calls) id flushed.conn :=
          (sound.placed id client found).moved (.deliver alive delivered)
        have placed : next.Placed id flushed.conn := by
          rw [same]
          exact moved.frame rfl (fun fd => rfl)
        have lives := isAlive_of_delivered delivered (Nat.ne_of_gt left)
        cases placed with
        | closed dead =>
            rw [lives] at dead
            cases dead
        | alive fd _ socket _ registered _ =>
            rw [ModifyThrew, socket, phase_modify, if_pos registered]
            rintro ⟨socket, threw⟩
            cases threw
      · rintro ⟨socket, threw⟩
        rw [undisturbed] at threw
        cases threw

theorem modifyThrew_write_iff {before after : EventLoop}
    {answers : List Answer} {event : EpollEvent} {rest : List EpollEvent}
    {id : Nat} {client : Client} {flushed : Connection.Flushed}
    (sound : before.Sound) (phase : before.phase = .writing event rest)
    (keyed : before.connections event.fd = some id)
    (found : before.heap id = some client)
    (flush : client.conn.flushWrite answers = some flushed)
    (used : flushed.rest = [])
    (writes : Writes before event rest id client flushed after) :
    after.ModifyThrew ↔ ¬ before.Survives (.write answers) := by
  have flushed_conn : before.flushing = some client.conn := by
    rw [flushing, phase]
    simp only [find_eq_some_iff.2 ⟨keyed, found⟩, Option.map_some]
  have survives : before.Survives (.write answers) ↔
      client.conn.isAlive = true ∧
        ∀ answer ∈ answers, answer.fatal = false := by
    simp only [Survives, flushed_conn, Option.mem_some_iff, forall_eq']
  rw [survives]
  have placed := sound.placed id client found
  cases alive : client.conn.isAlive with
  | false =>
      refine iff_of_true ⟨_, placed.writes_closed keyed alive flush writes⟩
        ?_
      exact fun held => absurd held.1 Bool.false_ne_true
  | true =>
      have valid : client.conn.socket ≠ none := by
        cases placed with
        | alive fd _ socket _ _ _ =>
            rw [socket]
            exact Option.some_ne_none fd
        | closed dead =>
            rw [alive] at dead
            cases dead
      have survived := isAlive_of_flushes
        (Connection.flushWrite_flushes flush) alive valid used
      rw [writes_modifyThrew_iff sound keyed found alive flush writes,
        ← Bool.not_eq_true, survived]
      simp

/-- A step throws out of `epoll_.modify` exactly if it misses the condition. -/
theorem modifyThrew_iff {before after : EventLoop} {action : Action}
    (sound : before.Sound) (works : ¬ before.ModifyThrew)
    (stepped : machine.step before action = some after) :
    after.ModifyThrew ↔ ¬ before.Survives action := by
  have calm : ∀ {loop : EventLoop} {other : Action}, other = action →
      (∀ answers, other ≠ .write answers) → ¬ loop.ModifyThrew →
        (loop.ModifyThrew ↔ ¬ before.Survives action) := by
    rintro loop other rfl harmless untouched
    refine iff_of_false untouched (not_not.2 ?_)
    cases other with
    | write answers => exact absurd rfl (harmless answers)
    | wait | accept | handle | recv | drain | reap | work | stop => trivial
  cases step_effect stepped with
  | write answers event rest phase id client flushed keyed found flush used _
      writes =>
      exact modifyThrew_write_iff sound phase keyed found flush used writes
  | drain answers rest phase _ drains =>
      exact calm rfl nofun (drains_not_modifyThrew sound phase drains)
  | wait | reap =>
      refine calm rfl nofun ?_
      rintro ⟨socket, threw⟩
      cases threw
  | accept clients last =>
      refine calm rfl nofun ?_
      rintro ⟨socket, threw⟩
      cases last <;> cases threw
  | handle event rest _ _ _ handles =>
      refine calm rfl nofun ?_
      rintro ⟨socket, threw⟩
      cases handles <;> cases threw
  | recv received event rest phase id client _ _ _ reads =>
      refine calm rfl nofun ?_
      rintro ⟨socket, threw⟩
      cases reads with
      | more | posts | submits => exact works ⟨socket, threw⟩
      | closes => cases threw
      | blocked =>
          dsimp only at threw
          split_ifs at threw
  | work index response _ finishes =>
      refine calm rfl nofun ?_
      rintro ⟨socket, threw⟩
      cases finishes <;> exact works ⟨socket, threw⟩
  | stop => exact calm rfl nofun works

/-! ## Every run -/

/--
No call of `epoll_.modify` has thrown exactly if every flush of `handle_event`
was for a connection still alive and ran into no fatal error.
-/
theorem modify_registered_iff {listenFd wakeupFd : Fd} {actions : List Action}
    {loop : EventLoop}
    (ran : machine.run (start listenFd wakeupFd) actions = some loop) :
    ¬ loop.ModifyThrew ↔
      machine.Guarded Survives (start listenFd wakeupFd) actions := by
  refine Machine.not_failed_iff_guarded ?_ ?_ ?_
    (start_sound listenFd wakeupFd) ?_ ran
  · exact fun before action after sound works stepped =>
      modifyThrew_iff sound works stepped
  · exact fun before action after sound _ stepped works =>
      (sound.step stepped).resolve_right works
  · exact fun before action after threw stepped => threw.step stepped
  · rintro ⟨socket, threw⟩
    cases threw

/-- The first send takes one of two bytes, a later event brings the other. -/
def sentInTwo (last : Answer) : List Action :=
  exchange 71 (text "ET / HTTP/1.1\r\n\r\n") (text "ok") ++
    [.wait [readable 5], .handle,
      .drain [.took 1, .failed .again], .drain [], .reap,
      .wait [writable 6], .handle, .write [last]]

theorem modify_registered_sentInTwo :
    ∃ loop, machine.run (start 3 5) (sentInTwo (.took 1)) = some loop ∧
      ¬ loop.ModifyThrew := by
  have finishes : ∃ loop,
      machine.run (start 3 5) (sentInTwo (.took 1)) = some loop ∧
        loop.phase = .handling [] :=
    Option.map_eq_some_iff.1 (by decide)
  rcases finishes with ⟨loop, ran, _⟩
  exact ⟨loop, ran, (modify_registered_iff ran).2 (by decide)⟩

/-- The peer is gone when the rest is sent. -/
theorem modify_registered_brokenPipe :
    ¬ ∀ listenFd wakeupFd actions loop,
        machine.run (start listenFd wakeupFd) actions = some loop →
          ¬ loop.ModifyThrew := by
  intro always
  have finishes : ∃ loop,
      machine.run (start 3 5) (sentInTwo (.failed .pipe)) = some loop ∧
        loop.phase = .threw (.modify (some 6)) :=
    Option.map_eq_some_iff.1 (by decide)
  rcases finishes with ⟨loop, ran, threw⟩
  exact always 3 5 _ loop ran ⟨some 6, threw⟩

end EventLoop

end Cppws.App
