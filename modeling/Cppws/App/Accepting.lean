import Cppws.App.Ownership

/-!
# Accepted clients

A descriptor number is free again as soon as a connection has closed, but its
entry stays in `connections_` until the end of the batch, and `emplace` leaves
an entry alone.  A client that is accepted on such a number in the same batch
is closed again at once; every other client is kept.
-/

namespace Cppws.App

open Cppws.Core
open Cppws.Http
open Cppws.Net

namespace EventLoop

/-- The socket that was accepted as number `index` has a connection. -/
structure Owned (before after : EventLoop) (index : Nat) (fd : Fd) :
    Prop where
  stored : after.connections fd = some (before.nextConnId + index)
  alive : ∃ client, after.heap (before.nextConnId + index) = some client ∧
    client.conn.isAlive = true ∧ client.conn.socket = some fd
  isOpen : after.kernel.descriptor fd = some (before.kernel.opened + index)
  registered : (after.kernel.interest fd).isSome

/-- If `accept_new_connections` returns, every socket has a connection. -/
def KeepsClients (loop : EventLoop) : Action → Prop
  | .accept clients last =>
      last ≠ .other → ∀ after,
        machine.step loop (.accept clients last) = some after →
          ∀ index fd, clients[index]? = some fd → Owned loop after index fd
  | _ => True

/-- No number that `accept4` returns is still a key of `connections_`. -/
def Fresh (loop : EventLoop) : Action → Prop
  | .accept clients last =>
      last ≠ .other → ∀ fd ∈ clients, loop.connections fd = none
  | _ => True

instance (loop : EventLoop) : ∀ action, Decidable (loop.Fresh action)
  | .accept _ _ => inferInstanceAs (Decidable (_ → ∀ fd ∈ _, _))
  | .wait _ | .handle | .recv _ | .write _ | .drain _ | .reap | .work _ _
  | .stop => inferInstanceAs (Decidable True)

/-! ## What stays the same while clients are accepted -/

theorem acceptAll_cons {before after : EventLoop} {fd : Fd} {rest : List Fd}
    (accepted : before.acceptAll (fd :: rest) = some after) :
    ∃ next, before.acceptOne fd = some next ∧
      next.acceptAll rest = some after :=
  Option.bind_eq_some_iff.1 accepted

/-- An entry of `connections_` is never overwritten. -/
theorem acceptAll_connections {clients : List Fd} {before after : EventLoop}
    {fd : Fd} {id : Nat} (accepted : before.acceptAll clients = some after)
    (stored : before.connections fd = some id) :
    after.connections fd = some id := by
  induction clients generalizing before with
  | nil =>
      cases accepted
      exact stored
  | cons client rest ih =>
      rcases acceptAll_cons accepted with ⟨next, first, accepted⟩
      apply ih accepted
      cases (acceptOne_accepts first).1 with
      | stored free _ connections =>
          have different : fd ≠ client := by
            rintro rfl
            rw [stored] at free
            cases free
          rw [connections, Function.update_of_ne different]
          exact stored
      | dropped _ _ _ connections =>
          rw [connections]
          exact stored

/-- The connections there are do not change. -/
theorem acceptAll_heap {clients : List Fd} {before after : EventLoop}
    {id : Nat} (accepted : before.acceptAll clients = some after)
    (older : id < before.nextConnId) : after.heap id = before.heap id := by
  induction clients generalizing before with
  | nil =>
      cases accepted
      rfl
  | cons client rest ih =>
      rcases acceptAll_cons accepted with ⟨next, first, accepted⟩
      rcases acceptOne_accepts first with ⟨accepts, counted, _⟩
      have older' : id < next.nextConnId :=
        counted ▸ Nat.lt_succ_of_lt older
      rw [ih accepted older']
      cases accepts with
      | stored _ _ _ heap =>
          rw [heap, Function.update_of_ne (Nat.ne_of_lt older)]
      | dropped _ _ _ _ heap => rw [heap]

/-- An open descriptor is not returned again and stays as it is. -/
theorem acceptAll_open {clients : List Fd} {before after : EventLoop} {fd : Fd}
    {socket : Nat} (accepted : before.acceptAll clients = some after)
    (isOpen : before.kernel.descriptor fd = some socket) :
    fd ∉ clients ∧ after.kernel.descriptor fd = some socket ∧
      after.kernel.interest fd = before.kernel.interest fd := by
  induction clients generalizing before with
  | nil =>
      cases accepted
      exact ⟨List.not_mem_nil, isOpen, rfl⟩
  | cons client rest ih =>
      rcases acceptAll_cons accepted with ⟨next, first, accepted⟩
      have different : ∀ {loop : EventLoop},
          loop.kernel.descriptor client = none →
            loop.kernel.descriptor fd = some socket → fd ≠ client := by
        rintro loop unopened isOpen rfl
        rw [unopened] at isOpen
        cases isOpen
      have unchanged : fd ≠ client ∧
          next.kernel.descriptor fd = some socket ∧
            next.kernel.interest fd = before.kernel.interest fd := by
        cases (acceptOne_accepts first).1 with
        | stored _ unopened _ _ descriptor interest =>
            have other := different unopened isOpen
            rw [descriptor, interest, Function.update_of_ne other,
              Function.update_of_ne other]
            exact ⟨other, isOpen, rfl⟩
        | dropped _ _ unopened _ _ descriptor interest =>
            rw [descriptor, interest]
            exact ⟨different unopened isOpen, isOpen, rfl⟩
      rcases unchanged with ⟨other, isOpen', same⟩
      rcases ih accepted isOpen' with ⟨unlisted, stays, kept⟩
      exact ⟨List.not_mem_cons_of_ne_of_not_mem other unlisted, stays,
        kept.trans same⟩

theorem acceptAll_counted {clients : List Fd} {before after : EventLoop}
    (accepted : before.acceptAll clients = some after) :
    after.nextConnId = before.nextConnId + clients.length := by
  induction clients generalizing before with
  | nil =>
      cases accepted
      rfl
  | cons client rest ih =>
      rcases acceptAll_cons accepted with ⟨next, first, accepted⟩
      rw [ih accepted, (acceptOne_accepts first).2.1, List.length_cons,
        Nat.add_assoc, Nat.add_comm 1]

/-- A client has no connection exactly if its number is still a key. -/
theorem acceptAll_dropped {clients : List Fd} {before after : EventLoop}
    (sound : before.Sound) (accepted : before.acceptAll clients = some after)
    {index : Nat} {fd : Fd} (listed : clients[index]? = some fd) :
    after.heap (before.nextConnId + index) = none ↔
      before.connections fd ≠ none := by
  induction clients generalizing before index with
  | nil => cases listed
  | cons client rest ih =>
      rcases acceptAll_cons accepted with ⟨next, first, later⟩
      rcases acceptOne_accepts first with ⟨accepts, counted, _⟩
      cases index with
      | zero =>
          rw [List.getElem?_cons_zero, Option.some.injEq] at listed
          subst listed
          have older : before.nextConnId < next.nextConnId :=
            counted ▸ Nat.lt_succ_self _
          rw [Nat.add_zero, acceptAll_heap later older]
          cases accepts with
          | stored free _ _ heap =>
              rw [heap, Function.update_self]
              exact iff_of_false (Option.some_ne_none _) (not_not.2 free)
          | dropped id taken _ _ heap =>
              refine iff_of_true ?_ ?_
              · rw [heap]
                exact sound.unborn (Nat.le_refl _)
              · rw [taken]
                exact Option.some_ne_none _
      | succ index =>
          rw [List.getElem?_cons_succ] at listed
          have dropped := ih (sound.acceptOne first) later listed
          rw [counted, Nat.add_assoc, Nat.add_comm 1] at dropped
          refine dropped.trans ?_
          cases accepts with
          | stored _ _ connections _ descriptor =>
              have isOpen : next.kernel.descriptor client =
                  some before.kernel.opened := by
                rw [descriptor, Function.update_self]
              have different : fd ≠ client := by
                rintro rfl
                exact (acceptAll_open later isOpen).1
                  (List.mem_of_getElem? listed)
              rw [connections, Function.update_of_ne different]
          | dropped _ _ _ connections => rw [connections]

/-! ## Which clients are kept -/

/-- Clients on fresh numbers are kept. -/
theorem owned_of_fresh {clients : List Fd} {before after : EventLoop}
    (accepted : before.acceptAll clients = some after)
    (fresh : ∀ fd ∈ clients, before.connections fd = none)
    {index : Nat} {fd : Fd} (listed : clients[index]? = some fd) :
    Owned before after index fd := by
  induction clients generalizing before index with
  | nil => cases listed
  | cons client rest ih =>
      rcases acceptAll_cons accepted with ⟨next, first, accepted⟩
      rcases acceptOne_accepts first with
        ⟨accepts, counted, opened, _⟩
      cases accepts with
      | dropped id taken =>
          rw [fresh client List.mem_cons_self] at taken
          cases taken
      | stored _ _ connections heap descriptor interest =>
          have isOpen : next.kernel.descriptor client =
              some before.kernel.opened := by
            rw [descriptor, Function.update_self]
          rcases acceptAll_open accepted isOpen with
            ⟨unlisted, stays, kept⟩
          cases index with
          | zero =>
              rw [List.getElem?_cons_zero, Option.some.injEq] at listed
              subst listed
              have older : before.nextConnId < next.nextConnId :=
                counted ▸ Nat.lt_succ_self _
              have new := acceptAll_heap accepted older
              rw [heap, Function.update_self] at new
              refine ⟨?_, ⟨_, new, rfl, rfl⟩, stays, ?_⟩
              · apply acceptAll_connections accepted
                rw [connections, Function.update_self]
                rfl
              · rw [kept, interest, Function.update_self]
                rfl
          | succ index =>
              rw [List.getElem?_cons_succ] at listed
              have free : ∀ fd ∈ rest, next.connections fd = none := by
                intro fd member
                have different : fd ≠ client := by
                  rintro rfl
                  exact unlisted member
                rw [connections, Function.update_of_ne different]
                exact fresh fd (List.mem_cons_of_mem _ member)
              have owned := ih accepted free listed
              have shift : ∀ n, n + 1 + index = n + (index + 1) := by
                intro n
                rw [Nat.add_assoc, Nat.add_comm 1]
              constructor
              · rw [← shift, ← counted]
                exact owned.stored
              · rw [← shift, ← counted]
                exact owned.alive
              · rw [← shift, ← opened]
                exact owned.isOpen
              · exact owned.registered

/-- A client on a number that is still a key is dropped. -/
theorem not_owned_of_taken {clients : List Fd} {before after : EventLoop}
    (sound : before.Sound) (accepted : before.acceptAll clients = some after)
    {fd : Fd} {id index : Nat} (taken : before.connections fd = some id) :
    ¬ Owned before after index fd := by
  intro owned
  have stored := acceptAll_connections accepted taken
  rw [owned.stored, Option.some.injEq] at stored
  have older := sound.numbered id (sound.named fd id taken)
  rw [← stored] at older
  exact absurd older (Nat.not_lt.2 (Nat.le_add_right _ _))

theorem keepsClients_iff {before after : EventLoop} {action : Action}
    (sound : before.Sound)
    (stepped : machine.step before action = some after) :
    before.KeepsClients action ↔ before.Fresh action := by
  cases step_effect stepped with
  | wait | handle | recv | write | drain | reap | work | stop => exact Iff.rfl
  | accept clients last event rest phase listening next accepted =>
      simp only [KeepsClients, Fresh]
      constructor
      · intro keeps returned fd member
        rcases List.mem_iff_getElem?.1 member with ⟨index, listed⟩
        by_contra taken
        rcases Option.ne_none_iff_exists'.1 taken with ⟨id, taken⟩
        have owned := keeps returned _ stepped index fd listed
        exact not_owned_of_taken sound accepted taken
          ⟨owned.stored, owned.alive, owned.isOpen, owned.registered⟩
      · intro fresh returned other again index fd listed
        rw [stepped, Option.some.injEq] at again
        subst again
        have owned := owned_of_fresh accepted (fresh returned) listed
        exact ⟨owned.stored, owned.alive, owned.isOpen, owned.registered⟩

/-! ## Every run -/

/--
Every call of `accept_new_connections` in a run keeps its clients exactly if no
call gets a number under which a closed connection is still stored.
-/
theorem clients_kept_iff {listenFd wakeupFd : Fd} {actions : List Action}
    {loop : EventLoop}
    (ran : machine.run (start listenFd wakeupFd) actions = some loop) :
    machine.Guarded KeepsClients (start listenFd wakeupFd) actions ↔
      machine.Guarded Fresh (start listenFd wakeupFd) actions := by
  refine Machine.guarded_congr (fun loop => loop.Sound ∨ loop.ModifyThrew)
    ?_ ?_ (Or.inl (start_sound listenFd wakeupFd)) ran
  · rintro before action after (sound | ⟨socket, threw⟩) stepped
    · exact keepsClients_iff sound stepped
    · cases step_effect stepped with
      | accept _ _ _ _ phase =>
          rw [threw] at phase
          cases phase
      | wait | handle | recv | write | drain | reap | work | stop =>
          exact Iff.rfl
  · rintro before action after (sound | threw) stepped
    · exact sound.step stepped
    · exact Or.inr (threw.step stepped)

/-- A number is used again after its connection has been reaped. -/
theorem clients_kept_afterReaping :
    ∃ loop,
      machine.run (start 3 5)
          [.wait [readable 3], .accept [6, 7] .again, .reap,
            .wait [hangup 6], .handle, .reap,
            .wait [readable 3], .accept [6, 8] .aborted] = some loop ∧
        machine.Guarded KeepsClients (start 3 5)
          [.wait [readable 3], .accept [6, 7] .again, .reap,
            .wait [hangup 6], .handle, .reap,
            .wait [readable 3], .accept [6, 8] .aborted] := by
  have finishes : ∃ loop,
      machine.run (start 3 5)
          [.wait [readable 3], .accept [6, 7] .again, .reap,
            .wait [hangup 6], .handle, .reap,
            .wait [readable 3], .accept [6, 8] .aborted] = some loop ∧
        loop.phase = .handling [] :=
    Option.map_eq_some_iff.1 (by decide)
  rcases finishes with ⟨loop, ran, _⟩
  exact ⟨loop, ran, (clients_kept_iff ran).2 (by decide)⟩

/-- The number is used again in the batch that closes its connection. -/
theorem clients_kept_sameBatch :
    ¬ ∀ listenFd wakeupFd actions loop,
        machine.run (start listenFd wakeupFd) actions = some loop →
          ∀ action, loop.KeepsClients action := by
  intro always
  have finishes : ∃ after,
      machine.run (start 3 5)
          ([.wait [readable 3], .accept [6] .again, .reap,
            .wait [hangup 6, readable 3], .handle] ++
            [.accept [6] .again]) = some after ∧
        after.kernel.descriptor 6 = none :=
    Option.map_eq_some_iff.1 (by decide)
  rcases finishes with ⟨after, ran, closed⟩
  rw [Machine.run_append] at ran
  rcases Option.bind_eq_some_iff.1 ran with ⟨before, ran, last⟩
  rcases Machine.run_cons_eq_some.1 last with ⟨next, stepped, rest⟩
  cases rest
  have keeps : before.KeepsClients (.accept [6] .again) :=
    always 3 5 _ before ran _
  have owned := keeps (by decide) after stepped 0 6 rfl
  rw [owned.isOpen] at closed
  cases closed

end EventLoop

end Cppws.App
