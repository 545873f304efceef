import Cppws.App.Accepting
import Cppws.App.Trace

/-!
# What a step works on

A step of the event loop works on one connection at most: the one of the event
that is handled, or of the response that is delivered.  What becomes of that
connection is what its own functions make of it, and all others stay as they
are.
-/

namespace Cppws.App

open Cppws.Core
open Cppws.Http
open Cppws.Net

namespace EventLoop

/-! ## The keys of connections -/

/-- The keys are the same, or there is no event left for them. -/
structure KeepsKeys (before after : EventLoop) : Prop where
  listenFd : after.listenFd = before.listenFd
  wakeupFd : after.wakeupFd = before.wakeupFd
  stored : ∀ {fd id}, before.connections fd = some id →
    after.connections fd = some id ∨ after.phase.events = []

theorem acceptAll_keepsKeys {clients : List Fd} {before after : EventLoop}
    (accepted : before.acceptAll clients = some after) (next : Phase) :
    KeepsKeys before { after with phase := next } := by
  have stored : ∀ {fd id}, before.connections fd = some id →
      after.connections fd = some id :=
    acceptAll_connections accepted
  rcases acceptAll_queues accepted with ⟨_, _, listenFd, wakeupFd⟩
  exact ⟨listenFd, wakeupFd, fun key => Or.inl (stored key)⟩

theorem step_keepsKeys {before after : EventLoop} {action : Action}
    (stepped : machine.step before action = some after) :
    KeepsKeys before after := by
  cases step_effect stepped with
  | wait | stop => exact ⟨rfl, rfl, Or.inl⟩
  | accept clients last event rest _ _ next accepted =>
      exact acceptAll_keepsKeys accepted _
  | handle event rest _ _ _ handles =>
      cases handles <;> exact ⟨rfl, rfl, Or.inl⟩
  | recv received event rest _ id client _ _ _ reads =>
      cases reads <;> exact ⟨rfl, rfl, Or.inl⟩
  | write answers event rest _ id client flushed _ _ _ _ _ writes =>
      cases writes with
      | drained =>
          unfold modify
          split <;> exact ⟨rfl, rfl, Or.inl⟩
      | partly => exact ⟨rfl, rfl, Or.inl⟩
  | drain answers rest _ _ drains =>
      cases drains with
      | finishes | discards => exact ⟨rfl, rfl, Or.inl⟩
      | delivers _ _ _ _ _ _ _ _ _ _ _ next same =>
          subst same
          split_ifs
          · unfold modify
            split <;> exact ⟨rfl, rfl, Or.inl⟩
          · exact ⟨rfl, rfl, Or.inl⟩
  | reap => exact ⟨rfl, rfl, fun _ => Or.inr rfl⟩
  | work index response _ finishes =>
      cases finishes <;> exact ⟨rfl, rfl, Or.inl⟩

/-! ## The connection that a step works on -/

/-- The event that is handled next. -/
def nextEvent (loop : EventLoop) : Option EpollEvent :=
  match loop.phase with
  | .handling (event :: _) =>
      if event.fd = loop.wakeupFd then none else some event
  | _ => none

/-- The connection that a step works on. -/
def subject (loop : EventLoop) : Action → Option (Nat × Client)
  | .handle => loop.nextEvent.bind fun event => loop.find event.fd
  | .recv _ => loop.currentClient
  | .write _ => loop.currentClient
  | .drain _ =>
      loop.pendingWrites.queue.head?.bind fun pw => loop.deref pw.conn
  | _ => none

/-- What a step makes of the connection it works on. -/
inductive Becomes (loop : EventLoop) (client : Client) :
    Action → Connection → Prop where
  | closes (event : EpollEvent) (next : loop.nextEvent = some event)
      (closing : event.isClosed = true) :
      Becomes loop client .handle client.conn.onClosed.1
  | waits (event : EpollEvent) (next : loop.nextEvent = some event)
      (open_ : event.isClosed = false) : Becomes loop client .handle client.conn
  | reads (received : Received) (moved : Connection)
      (same : moved =
        if (client.conn.readOnce received).2.2 = .callback then
          (readCallback (client.conn.readOnce received).1 client.parser).1
        else
          (client.conn.readOnce received).1) :
      Becomes loop client (.recv received) moved
  | writes (answers : List Answer) (flushed : Connection.Flushed)
      (flush : client.conn.flushWrite answers = some flushed) :
      Becomes loop client (.write answers) flushed.conn
  | delivers (answers : List Answer) (pw : PendingWrite)
      (flushed : Connection.Flushed)
      (delivered : pw.deliver client.conn answers = some flushed) :
      Becomes loop client (.drain answers) flushed.conn
  | discards (answers : List Answer) (dead : client.conn.isAlive = false) :
      Becomes loop client (.drain answers) client.conn

/-- A step works on no connection, or changes the one it works on. -/
inductive Works (loop : EventLoop) (action : Action) (next : EventLoop) :
    Prop where
  | aside (nobody : loop.subject action = none) (heap : next.heap = loop.heap)
      (nextConnId : next.nextConnId = loop.nextConnId)
  | changes (id : Nat) (client moved : Client)
      (subject : loop.subject action = some (id, client))
      (found : loop.heap id = some client)
      (replaces : Replaces loop next id moved)
      (becomes : Becomes loop client action moved.conn)

theorem Replaces.same {loop next : EventLoop} {id : Nat} {client : Client}
    (found : loop.heap id = some client) (heap : next.heap = loop.heap)
    (nextConnId : next.nextConnId = loop.nextConnId)
    (connections : next.connections = loop.connections) :
    Replaces loop next id client := by
  refine ⟨?_, nextConnId, connections⟩
  rw [heap, ← found, Function.update_eq_self]

theorem handle_works {loop : EventLoop} {event : EpollEvent}
    {rest : List EpollEvent} (phase : loop.phase = .handling (event :: rest)) :
    Works loop .handle (loop.handleEvent event rest) := by
  unfold handleEvent
  by_cases woken : event.fd = loop.wakeupFd
  · rw [if_pos woken]
    refine .aside ?_ rfl rfl
    simp only [subject, nextEvent, phase, if_pos woken, Option.bind_none]
  · have next : loop.nextEvent = some event := by
      simp only [nextEvent, phase, if_neg woken]
    have subject : loop.subject .handle = loop.find event.fd := by
      simp only [subject, next, Option.bind_some]
    rw [if_neg woken]
    cases found : loop.find event.fd with
    | none =>
        rw [found] at subject
        exact .aside subject rfl rfl
    | some entry =>
        rw [found] at subject
        have heap := (find_eq_some_iff.1 found).2
        dsimp only
        by_cases closed : event.isClosed = true
        · rw [if_pos closed]
          exact .changes entry.1 entry.2
            { entry.2 with conn := entry.2.conn.onClosed.1 } subject heap
            ⟨rfl, rfl, rfl⟩ (.closes event next closed)
        · rw [if_neg closed]
          have waits : Becomes loop entry.2 .handle entry.2.conn :=
            .waits event next (by simpa using closed)
          split_ifs <;>
            exact .changes entry.1 entry.2 entry.2 subject heap
              (.same heap rfl rfl rfl) waits

theorem drain_works {loop next : EventLoop} {rest : List EpollEvent}
    {answers : List Answer} (drains : Drains loop rest answers next) :
    Works loop (.drain answers) next := by
  cases drains with
  | finishes empty =>
      refine .aside ?_ rfl rfl
      simp only [subject, empty, List.head?_nil, Option.bind_none]
  | discards pw queue popped gone =>
      have subject : loop.subject (.drain answers) = loop.deref pw.conn := by
        simp only [subject, popped, List.head?_cons, Option.bind_some]
      cases found : loop.deref pw.conn with
      | none =>
          rw [found] at subject
          exact .aside subject rfl rfl
      | some entry =>
          rw [found] at subject
          have heap := (deref_eq_some_iff.1 found).2
          exact .changes entry.1 entry.2 entry.2 subject heap
            (.same heap rfl rfl rfl)
            (.discards answers (gone entry.1 entry.2 found))
  | delivers pw queue popped id client flushed named found alive delivered
      used after same =>
      have subject : loop.subject (.drain answers) = some (id, client) := by
        simp only [subject, popped, List.head?_cons, Option.bind_some]
        exact deref_eq_some_iff.2 ⟨named, found⟩
      have replaces : Replaces loop after id
          { client with
            conn := flushed.conn
            answered := client.answered + 1 } := by
        rw [same]
        exact ⟨rfl, rfl, rfl⟩
      exact .changes id client
        { client with conn := flushed.conn, answered := client.answered + 1 }
        subject found (replaces.modify_if _ _ _ _)
        (.delivers answers pw flushed delivered)

theorem step_works {loop next : EventLoop} {action : Action}
    (other : ∀ clients last, action ≠ .accept clients last)
    (stepped : machine.step loop action = some next) :
    Works loop action next := by
  have ran : loop.step action = some next := stepped
  cases action with
  | wait | reap | stop =>
      cases step_effect stepped
      exact .aside rfl rfl rfl
  | work =>
      cases step_effect stepped with
      | work _ _ _ finishes => cases finishes <;> exact .aside rfl rfl rfl
  | accept clients last => exact absurd rfl (other clients last)
  | handle =>
      simp only [step] at ran
      split at ran
      case h_1 event rest phase =>
        split_ifs at ran
        cases ran
        exact handle_works phase
      case h_2 => cases ran
  | recv received =>
      simp only [step] at ran
      split at ran
      case h_1 event rest phase =>
        rcases readSome_replaces ran with
          ⟨id, client, found, ⟨moved, replaces, same⟩, _⟩
        refine .changes id client moved ?_ (find_eq_some_iff.1 found).2 replaces
          (.reads received moved.conn same)
        simp only [subject, currentClient, phase]
        exact found
      case h_2 => cases ran
  | write answers =>
      cases step_effect stepped with
      | write _ event rest phase id client flushed keyed found flush _ _
          writes =>
          refine .changes id client _ ?_ found writes.replaces
            (.writes answers flushed flush)
          simp only [subject, currentClient, phase]
          exact find_eq_some_iff.2 ⟨keyed, found⟩
  | drain answers =>
      cases step_effect stepped with
      | drain _ _ _ _ drains => exact drain_works drains

end EventLoop

end Cppws.App
