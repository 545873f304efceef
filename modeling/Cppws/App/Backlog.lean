import Cppws.App.EventLoop

/-!
# The backlog of the listening socket

`accept_new_connections` with its loop: it accepts until `Socket::accept`
returns an invalid socket.  The listening socket is edge-triggered, so what is
left in its backlog then is not reported again.  An invalid socket stands for
an empty backlog and also for a connection that was aborted in it.
-/

namespace Cppws.App

open Cppws.Core
open Cppws.Http
open Cppws.Net

namespace EventLoop

/-- What `accept4` returns. -/
inductive Accepted where
  | client (fd : Fd)
  | refused (why : Refusal)
deriving DecidableEq

/-- What `Socket::accept` makes of it; an invalid socket is `none`. -/
def Accepted.socket : Accepted → Except Fault (Option Fd)
  | .client fd => .ok (some fd)
  | .refused .again => .ok none
  | .refused .aborted => .ok none
  | .refused .other => .error .accept

/-- `accept_new_connections`, with the outcomes of `accept4` left over. -/
def acceptNewConnections (loop : EventLoop) :
    List Accepted → Option (EventLoop × List Accepted)
  | [] => none
  | outcome :: rest =>
      match outcome.socket with
      | .ok (some fd) =>
          (loop.acceptOne fd).bind fun next => next.acceptNewConnections rest
      | .ok none => some (loop, rest)
      | .error fault => some ({ loop with phase := .threw fault }, rest)

/-- A connection in the backlog. -/
structure Queued where
  id : Nat
  /-- Its client is gone before it is accepted. -/
  aborted : Bool
deriving DecidableEq

/--
On this backlog `accept4` can return these outcomes, and the connections it has
returned then are the accepted ones.  New connections come in between.
-/
inductive Serves : List Queued → List Accepted → List Queued → Prop where
  | done (backlog : List Queued) : Serves backlog [] []
  | arrive {backlog accepted : List Queued} {outcomes : List Accepted}
      (queued : Queued)
      (later : Serves (backlog ++ [queued]) outcomes accepted) :
      Serves backlog outcomes accepted
  | client {backlog accepted : List Queued} {outcomes : List Accepted}
      {queued : Queued} (fd : Fd) (present : queued.aborted = false)
      (later : Serves backlog outcomes accepted) :
      Serves (queued :: backlog) (.client fd :: outcomes) (queued :: accepted)
  | aborted {backlog accepted : List Queued} {outcomes : List Accepted}
      {queued : Queued} (gone : queued.aborted = true)
      (later : Serves backlog outcomes accepted) :
      Serves (queued :: backlog) (.refused .aborted :: outcomes) accepted
  | empty {accepted : List Queued} {outcomes : List Accepted}
      (later : Serves [] outcomes accepted) :
      Serves [] (.refused .again :: outcomes) accepted

/-- The outcomes before the first `EAGAIN`. -/
def beforeEmpty (outcomes : List Accepted) : List Accepted :=
  outcomes.takeWhile (· ≠ .refused .again)

/--
Of the outcomes up to those left over, one is `EAGAIN`, and every connection
that was in the backlog has been accepted unless it was aborted.
-/
def EmptiesBacklog (outcomes rest : List Accepted) : Prop :=
  ∃ consumed, outcomes = consumed ++ rest ∧ .refused .again ∈ consumed ∧
    ∀ backlog accepted, Serves backlog consumed accepted →
      ∀ queued ∈ backlog, queued.aborted = false → queued ∈ accepted

/-! ## The calls of `accept4` -/

/-- `accept4` has returned sockets, and at last no socket. -/
theorem acceptNewConnections_eq_some {loop after : EventLoop}
    {outcomes rest : List Accepted} :
    loop.acceptNewConnections outcomes = some (after, rest) ↔
      ∃ clients last next,
        outcomes = clients.map .client ++ .refused last :: rest ∧
          loop.acceptAll clients = some next ∧
          after =
            if last = .other then { next with phase := .threw .accept }
            else next := by
  constructor
  · intro returned
    induction outcomes generalizing loop with
    | nil => cases returned
    | cons outcome outcomes ih =>
        cases outcome with
        | client fd =>
            rcases Option.bind_eq_some_iff.1 returned with
              ⟨first, accepted, returned⟩
            rcases ih returned with ⟨clients, last, next, rfl, all, ends⟩
            refine ⟨fd :: clients, last, next, rfl, ?_, ends⟩
            exact Option.bind_eq_some_iff.2 ⟨first, accepted, all⟩
        | refused last =>
            cases last with
            | again | aborted | other =>
                cases returned
                exact ⟨[], _, _, rfl, rfl, rfl⟩
  · rintro ⟨clients, last, next, rfl, all, rfl⟩
    induction clients generalizing loop with
    | nil =>
        cases all
        cases last with
        | again | aborted | other => rfl
    | cons fd clients ih =>
        rcases Option.bind_eq_some_iff.1 all with ⟨first, accepted, all⟩
        exact Option.bind_eq_some_iff.2 ⟨first, accepted, ih all⟩

/-- The call is the step of the event loop for the listening socket. -/
theorem step_accept {loop after : EventLoop} {outcomes rest : List Accepted}
    {event : EpollEvent} {events : List EpollEvent}
    (handles : loop.phase = .handling (event :: events))
    (listens : event.fd = loop.listenFd)
    (returned : loop.acceptNewConnections outcomes = some (after, rest)) :
    ∃ clients last,
      outcomes = clients.map .client ++ .refused last :: rest ∧
        machine.step loop (.accept clients last) =
          some { after with phase := last.next events } := by
  rcases acceptNewConnections_eq_some.1 returned with
    ⟨clients, last, next, split, all, rfl⟩
  refine ⟨clients, last, split, ?_⟩
  show EventLoop.step loop (.accept clients last) = _
  simp only [EventLoop.step, handles, if_pos listens, all, Option.map_some]
  split_ifs <;> rfl

/-- When the backlog has been empty, what was in it has been accepted. -/
theorem Serves.accepts {backlog accepted : List Queued}
    {outcomes : List Accepted} (serves : Serves backlog outcomes accepted)
    (emptied : .refused .again ∈ outcomes) :
    ∀ queued ∈ backlog, queued.aborted = false → queued ∈ accepted := by
  induction serves with
  | done backlog => cases emptied
  | arrive queued later ih =>
      intro other member
      exact ih emptied other (List.mem_append_left _ member)
  | client fd present later ih =>
      have remains := List.mem_of_ne_of_mem (by simp) emptied
      intro other member stays
      rcases List.mem_cons.1 member with rfl | member
      · exact List.mem_cons_self
      · exact List.mem_cons_of_mem _ (ih remains other member stays)
  | aborted gone later ih =>
      have remains := List.mem_of_ne_of_mem (by simp) emptied
      intro other member stays
      rcases List.mem_cons.1 member with rfl | member
      · rw [gone] at stays
        cases stays
      · exact ih remains other member stays
  | empty later ih =>
      intro other member
      cases member

theorem aborted_mem_beforeEmpty_iff (clients : List Fd) {last : Refusal}
    (rest : List Accepted) (working : last ≠ .other) :
    .refused .aborted ∈
        beforeEmpty (clients.map .client ++ .refused last :: rest) ↔
      last = .aborted := by
  induction clients with
  | nil =>
      cases last with
      | again => simp [beforeEmpty]
      | aborted => simp [beforeEmpty]
      | other => exact absurd rfl working
  | cons fd clients ih => simpa [beforeEmpty] using ih

/--
The loop empties the backlog exactly if no connection is reported as aborted
before the backlog is reported as empty.
-/
theorem backlog_emptied_iff {loop after : EventLoop}
    {outcomes rest : List Accepted} (working : .refused .other ∉ outcomes)
    (returned : loop.acceptNewConnections outcomes = some (after, rest)) :
    EmptiesBacklog outcomes rest ↔
      .refused .aborted ∉ beforeEmpty outcomes := by
  rcases acceptNewConnections_eq_some.1 returned with
    ⟨clients, last, next, rfl, -, -⟩
  have known : last ≠ .other := by
    rintro rfl
    exact working (by simp)
  rw [aborted_mem_beforeEmpty_iff clients rest known]
  have consumed : clients.map .client ++ .refused last :: rest =
      (clients.map .client ++ [.refused last]) ++ rest := by
    rw [List.append_assoc, List.singleton_append]
  constructor
  · rintro ⟨before, split, emptied, -⟩ rfl
    rw [consumed] at split
    cases List.append_cancel_right split
    simp at emptied
  · intro notAborted
    have again : last = .again := by
      cases last with
      | again => rfl
      | aborted => exact absurd rfl notAborted
      | other => exact absurd rfl known
    refine ⟨_, consumed, ?_, ?_⟩
    · simp [again]
    · intro backlog accepted serves
      exact serves.accepts (by simp [again])

theorem backlog_emptied_twice :
    EmptiesBacklog
        [.client 6, .client 7, .refused .again, .refused .aborted]
        [.refused .aborted] ↔
      .refused .aborted ∉
        beforeEmpty
          [.client 6, .client 7, .refused .again, .refused .aborted] :=
  have returned : ∃ after,
      (start 3 5).acceptNewConnections
          [.client 6, .client 7, .refused .again, .refused .aborted] =
        some (after, [.refused .aborted]) := ⟨_, rfl⟩
  returned.elim fun _ returned => backlog_emptied_iff (by decide) returned

/--
The first connection of the backlog is aborted, and the second one is not
accepted although `accept4` would return it.
-/
theorem backlog_left :
    (start 3 5).acceptNewConnections
        [.refused .aborted, .client 6, .refused .again] =
      some (start 3 5, [.client 6, .refused .again]) ∧
    Serves [⟨0, true⟩, ⟨1, false⟩] [.refused .aborted] [] ∧
    ¬ EmptiesBacklog [.refused .aborted, .client 6, .refused .again]
      [.client 6, .refused .again] := by
  refine ⟨rfl, .aborted rfl (.done _), ?_⟩
  rintro ⟨consumed, split, emptied, -⟩
  have short : consumed = [.refused .aborted] :=
    List.append_cancel_right split.symm
  rw [short] at emptied
  exact absurd emptied (by decide)

end EventLoop

end Cppws.App
