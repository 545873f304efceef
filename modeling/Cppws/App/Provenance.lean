import Cppws.App.Trace
import Cppws.Net.Sending

/-!
# Responses reach their own client

The number of a descriptor is used again as soon as it is closed, and a
response comes back when its connection may be long gone.  A connection that
holds a descriptor still holds the kernel socket it was accepted on, and no two
connections were accepted on the same one.  So what is sent on a kernel socket
was handed over to the one connection of it, for requests read from it.
-/

namespace Cppws.App

open Cppws.Core
open Cppws.Http
open Cppws.Net

/-! ## The kernel socket of a connection -/

namespace EventLoop

/-- Every connection has a kernel socket of its own, and holds no other. -/
structure Homed (loop : EventLoop) (home : Nat → Option Nat) : Prop where
  known : ∀ id, (home id).isSome = (loop.heap id).isSome
  holds : ∀ id client fd, loop.heap id = some client →
    client.conn.socket = some fd → loop.kernel.descriptor fd = home id
  opened : ∀ id socket, home id = some socket → socket < loop.kernel.opened
  own : ∀ first second socket, home first = some socket →
    home second = some socket → first = second

theorem start_homed (listenFd wakeupFd : Fd) :
    (start listenFd wakeupFd).Homed fun _ => none := by
  constructor
  · exact fun id => rfl
  · intro id client fd found
    cases found
  · intro id socket found
    cases found
  · intro first second socket found
    cases found

/-- Event masks, queues and keys do not matter. -/
theorem Homed.aside {before after : EventLoop} {home : Nat → Option Nat}
    (homed : before.Homed home) (heap : after.heap = before.heap)
    (descriptor : after.kernel.descriptor = before.kernel.descriptor)
    (opened : after.kernel.opened = before.kernel.opened) :
    after.Homed home := by
  constructor
  · rw [heap]
    exact homed.known
  · rw [heap, descriptor]
    exact homed.holds
  · rw [opened]
    exact homed.opened
  · exact homed.own

theorem Homed.modify {loop : EventLoop} {home : Nat → Option Nat}
    (homed : loop.Homed home) (socket : Option Fd) (events : Events)
    (next : Phase) : (loop.modify socket events next).Homed home := by
  unfold EventLoop.modify
  split
  case h_1 kernel modified =>
    rcases Option.bind_eq_some_iff.1 modified with ⟨fd, _, modified⟩
    rcases Kernel.interest_of_modify modified with ⟨descriptor, opened, _⟩
    exact homed.aside rfl descriptor opened
  case h_2 => exact homed.aside rfl rfl rfl

/-- A connection keeps its socket or closes it. -/
theorem Homed.put {loop : EventLoop} {home : Nat → Option Nat}
    (homed : loop.Homed home) (sound : loop.Sound) {id : Nat}
    {client moved : Client} {calls : List Call}
    (found : loop.heap id = some client)
    (moves : Moves client.conn moved.conn calls) :
    (loop.put id moved calls).Homed home := by
  have placed := sound.placed id client found
  have opened : (loop.put id moved calls).kernel.opened =
      loop.kernel.opened := by
    rcases placed.kernel_put moves with
      ⟨kernel, _⟩ | ⟨_, _, _, fd, _, _, kernel⟩
    · rw [kernel]
    · rw [kernel]
      rfl
  constructor
  · intro other
    rw [heap_put_isSome moved calls found]
    exact homed.known other
  · intro other entry fd known socket
    rcases placed.kernel_put moves with
      ⟨kernel, same, _⟩ | ⟨_, closed, _, own, stored, _, kernel⟩
    · rw [kernel]
      by_cases itself : other = id
      · rw [itself, heap_put_self, Option.some.injEq] at known
        rw [itself]
        exact homed.holds id client fd found (same ▸ known ▸ socket)
      · rw [heap_put_of_ne _ _ _ itself] at known
        exact homed.holds other entry fd known socket
    · by_cases itself : other = id
      · rw [itself, heap_put_self, Option.some.injEq] at known
        rw [← known, closed] at socket
        cases socket
      · rw [heap_put_of_ne _ _ _ itself] at known
        have apart : fd ≠ own := by
          rintro rfl
          have keyed := sound.stored known socket
          rw [stored, Option.some.injEq] at keyed
          exact itself keyed.symm
        rw [kernel, (close_of_ne _ apart).1]
        exact homed.holds other entry fd known socket
  · rw [opened]
    exact homed.opened
  · exact homed.own

/-- Nothing is forgotten about the connections there are. -/
def Extends (home later : Nat → Option Nat) : Prop :=
  ∀ id socket, home id = some socket → later id = some socket

theorem Extends.update {home : Nat → Option Nat} {id : Nat}
    (unnumbered : home id = none) (socket : Nat) :
    Extends home (Function.update home id (some socket)) := by
  intro other own held
  rw [Function.update_of_ne, held]
  rintro rfl
  rw [unnumbered] at held
  cases held

/-- The next kernel socket is the home of no connection yet. -/
theorem Homed.own_update {loop : EventLoop} {home : Nat → Option Nat}
    (homed : loop.Homed home) (id : Nat) :
    ∀ first second socket,
      Function.update home id (some loop.kernel.opened) first =
        some socket →
      Function.update home id (some loop.kernel.opened) second =
        some socket → first = second := by
  have older : ∀ other socket, other ≠ id →
      Function.update home id (some loop.kernel.opened) other = some socket →
        socket ≠ loop.kernel.opened := by
    intro other socket old held
    rw [Function.update_of_ne old] at held
    exact Nat.ne_of_lt (homed.opened other socket held)
  intro first second socket one two
  by_cases newFirst : first = id
  · by_cases newSecond : second = id
    · exact newFirst.trans newSecond.symm
    · rw [newFirst, Function.update_self, Option.some.injEq] at one
      exact absurd one.symm (older second socket newSecond two)
  · by_cases newSecond : second = id
    · rw [newSecond, Function.update_self, Option.some.injEq] at two
      exact absurd two.symm (older first socket newFirst one)
    · rw [Function.update_of_ne newFirst] at one
      rw [Function.update_of_ne newSecond] at two
      exact homed.own first second socket one two

theorem Homed.acceptOne {before after : EventLoop} {home : Nat → Option Nat}
    (homed : before.Homed home) (sound : before.Sound) {fd : Fd}
    (accepted : before.acceptOne fd = some after) :
    let later :=
      if before.connections fd = none then
        Function.update home before.nextConnId (some before.kernel.opened)
      else
        home
    after.Homed later ∧ Extends home later := by
  rcases acceptOne_accepts accepted with ⟨accepts, _, counted, _⟩
  have unnumbered : home before.nextConnId = none := by
    by_contra present
    have exists_ := homed.known before.nextConnId
    rw [Option.isSome_iff_ne_none.2 present] at exists_
    exact Nat.lt_irrefl _ (sound.numbered _ exists_.symm)
  cases accepts with
  | stored free unopened connections heap descriptor interest =>
      rw [if_pos free]
      refine ⟨?_, Extends.update unnumbered _⟩
      constructor
      · intro id
        rw [heap]
        by_cases new : id = before.nextConnId
        · rw [new, Function.update_self, Function.update_self]
          rfl
        · rw [Function.update_of_ne new, Function.update_of_ne new]
          exact homed.known id
      · intro id client own found socket
        rw [heap] at found
        rw [descriptor]
        by_cases new : id = before.nextConnId
        · rw [new, Function.update_self, Option.some.injEq] at found
          rw [← found] at socket
          cases socket
          rw [new, Function.update_self, Function.update_self]
        · rw [Function.update_of_ne new] at found ⊢
          have different : own ≠ fd := by
            rintro rfl
            rw [sound.stored found socket] at free
            cases free
          rw [Function.update_of_ne different]
          exact homed.holds id client own found socket
      · intro id socket held
        rw [counted]
        by_cases new : id = before.nextConnId
        · rw [new, Function.update_self, Option.some.injEq] at held
          exact held ▸ Nat.lt_succ_self _
        · rw [Function.update_of_ne new] at held
          exact Nat.lt_succ_of_lt (homed.opened id socket held)
      · exact homed.own_update before.nextConnId
  | dropped id taken unopened connections heap descriptor interest =>
      have occupied : before.connections fd ≠ none := by
        rw [taken]
        exact nofun
      rw [if_neg occupied]
      refine ⟨?_, fun _ _ held => held⟩
      constructor
      · rw [heap]
        exact homed.known
      · rw [heap, descriptor]
        exact homed.holds
      · rw [counted]
        exact fun id socket held =>
          Nat.lt_succ_of_lt (homed.opened id socket held)
      · exact homed.own

theorem Homed.acceptAll {clients : List Fd} {before after : EventLoop}
    {home : Nat → Option Nat} (homed : before.Homed home)
    (sound : before.Sound) (accepted : before.acceptAll clients = some after) :
    after.Homed (before.acceptHomes home clients) ∧
      Extends home (before.acceptHomes home clients) := by
  induction clients generalizing before home with
  | nil =>
      cases accepted
      exact ⟨homed, fun _ _ held => held⟩
  | cons fd rest ih =>
      rcases Option.bind_eq_some_iff.1 accepted with ⟨next, first, accepted⟩
      rcases homed.acceptOne sound first with ⟨homed, extends_⟩
      rcases ih homed (sound.acceptOne first) accepted with
        ⟨homed, further⟩
      simp only [acceptHomes, first]
      exact ⟨homed, fun id socket held =>
        further id socket (extends_ id socket held)⟩

/-- A connection that holds no socket makes no calls. -/
theorem Homed.put_closed {loop : EventLoop} {home : Nat → Option Nat}
    (homed : loop.Homed home) {id : Nat} {client moved : Client}
    (found : loop.heap id = some client) (closed : moved.conn.socket = none) :
    (loop.put id moved []).Homed home := by
  constructor
  · intro other
    rw [heap_put_isSome moved [] found]
    exact homed.known other
  · intro other entry fd known socket
    by_cases itself : other = id
    · rw [itself, heap_put_self, Option.some.injEq] at known
      rw [← known, closed] at socket
      cases socket
    · rw [heap_put_of_ne _ _ _ itself] at known
      exact homed.holds other entry fd known socket
  · exact homed.opened
  · exact homed.own

theorem Homed.writes {before after : EventLoop} {home : Nat → Option Nat}
    (homed : before.Homed home) (sound : before.Sound) {event : EpollEvent}
    {rest : List EpollEvent} {answers : List Answer} {id : Nat}
    {client : Client} {flushed : Connection.Flushed}
    (found : before.heap id = some client)
    (flush : client.conn.flushWrite answers = some flushed)
    (writes : Writes before event rest id client flushed after) :
    after.Homed home := by
  have flushing : (before.put id { client with conn := flushed.conn }
      flushed.calls).Homed home := by
    cases sound.placed id client found with
    | alive fd lives =>
        exact homed.put sound found
          (.of_flushes (Connection.flushWrite_flushes flush) rfl lives lives)
    | closed dead socket file =>
        rw [(flushWrite_of_closed dead socket file flush).2]
        exact homed.put_closed found
          ((Connection.flushWrite_sends flush).socket socket)
  cases writes with
  | drained => exact flushing.modify _ _ _
  | partly => exact flushing.aside rfl rfl rfl

/-- Where connections are accepted in a step. -/
def homesAfter (loop : EventLoop) (home : Nat → Option Nat) :
    Action → Nat → Option Nat
  | .accept clients _ => loop.acceptHomes home clients
  | _ => home

theorem Homed.step {before after : EventLoop} {action : Action}
    {home : Nat → Option Nat} (homed : before.Homed home)
    (sound : before.Sound)
    (stepped : machine.step before action = some after) :
    after.Homed (before.homesAfter home action) ∧
      Extends home (before.homesAfter home action) := by
  have same : Extends home home := fun _ _ held => held
  cases step_effect stepped with
  | wait | stop => exact ⟨homed.aside rfl rfl rfl, same⟩
  | reap => exact ⟨homed.aside rfl rfl rfl, same⟩
  | accept clients last event rest _ _ next accepted =>
      rcases homed.acceptAll sound accepted with ⟨homed, extends_⟩
      exact ⟨homed.aside rfl rfl rfl, extends_⟩
  | handle event rest _ _ _ handles =>
      refine ⟨?_, same⟩
      cases handles with
      | closes id client keyed found closed =>
          refine Homed.aside (Homed.put homed sound found ?_) rfl rfl rfl
          exact .onClosed rfl rfl rfl
      | wakeup | stale | reads | writes | ignores =>
          exact homed.aside rfl rfl rfl
  | recv received event rest _ id client _ found _ reads =>
      refine ⟨?_, same⟩
      cases reads with
      | more =>
          apply homed.put sound found
          exact .stays rfl rfl (fun _ => rfl) rfl
      | posts | submits | blocked =>
          refine Homed.aside (Homed.put homed sound found ?_) rfl rfl rfl
          exact .stays rfl rfl (fun _ => rfl) rfl
      | closes last readBuf read =>
          refine Homed.aside (Homed.put homed sound found ?_) rfl rfl rfl
          subst read
          exact .onClosed rfl rfl rfl
  | write answers event rest _ id client flushed _ found flush _ _ writes =>
      exact ⟨homed.writes sound found flush writes, same⟩
  | drain answers rest _ _ drains =>
      refine ⟨?_, same⟩
      cases drains with
      | finishes | discards => exact homed.aside rfl rfl rfl
      | delivers pw queue _ id client flushed _ found alive delivered _ next
          same =>
          have delivering : next.Homed home := by
            rw [same]
            refine Homed.aside (Homed.put homed sound found ?_) rfl rfl rfl
            exact .deliver alive delivered
          split_ifs
          · exact delivering.modify _ _ _
          · exact delivering
  | work index response _ finishes =>
      refine ⟨?_, same⟩
      cases finishes with
      | throws | posts => exact homed.aside rfl rfl rfl

/-- A connection from which bytes were received holds its kernel socket. -/
theorem Homed.kernelSocket {loop : EventLoop} {home : Nat → Option Nat}
    (homed : loop.Homed home) {id : Nat} {client : Client}
    (found : loop.heap id = some client)
    (socket : client.conn.socket ≠ none) :
    loop.kernelSocket client.conn = home id ∧ home id ≠ none := by
  rcases Option.ne_none_iff_exists'.1 socket with ⟨fd, held⟩
  have holds := homed.holds id client fd found held
  constructor
  · rw [EventLoop.kernelSocket, held]
    exact holds
  · rw [← Option.isSome_iff_ne_none, homed.known id, found]
    rfl

end EventLoop

/-- `recv` returns bytes only on a valid descriptor. -/
theorem Client.socket_of_dispatch {client : Client} {received : Received}
    {dispatch : Dispatch} (asks : client.dispatch received = some dispatch) :
    client.conn.socket ≠ none := by
  intro none
  have failed : (client.conn.readOnce received).2.2 = .closed := by
    unfold Connection.readOnce
    cases made : client.conn.roomToRead with
    | none => rfl
    | some roomy =>
        rcases Connection.roomToRead_eq_some made with ⟨readBuf, same, _⟩
        have invalid : roomy.receives received = .failed .other := by
          rw [Connection.receives, if_pos]
          rw [same]
          exact none
        simp only [Connection.recv, invalid]
  rw [Client.dispatch, failed, if_neg fun same => by cases same] at asks
  cases asks

/-! ## Where the requests were read -/

/-- A connection has read, and from its own kernel socket only. -/
def ReadFrom (home : Nat → Option Nat) (conn : Nat) (readFrom : List Nat) :
    Prop :=
  readFrom ≠ [] ∧ ∀ socket ∈ readFrom, home conn = some socket

theorem ReadFrom.extend {home later : Nat → Option Nat} {conn : Nat}
    {readFrom : List Nat} (read : ReadFrom home conn readFrom)
    (extends_ : EventLoop.Extends home later) : ReadFrom later conn readFrom :=
  ⟨read.1, fun socket member => extends_ conn socket (read.2 socket member)⟩

namespace Trace

/-- Every response is for requests read by its own connection. -/
structure Sourced (trace : Trace) : Prop where
  read : ∀ id, ∀ socket ∈ trace.readFrom id, trace.home id = some socket
  jobs : ∀ job ∈ trace.jobs, ReadFrom trace.home job.conn job.readFrom
  waiting : ∀ entry ∈ trace.waiting, ∃ id, entry.pw.conn = some id ∧
    ReadFrom trace.home id entry.readFrom
  handed : ∀ entry held, .handed entry held ∈ trace.taken →
    ∃ id socket, entry.pw.conn = some id ∧ trace.home id = some socket ∧
      held = some socket ∧ ReadFrom trace.home id entry.readFrom

theorem start_sourced (listenFd wakeupFd : Fd) :
    (start listenFd wakeupFd).Sourced := by
  constructor
  · intro id socket member
    cases member
  · intro job member
    cases member
  · intro entry member
    cases member
  · intro entry held member
    cases member

@[simp]
theorem home_note (trace : Trace) (socket : Option Nat) (calls : List Call) :
    (trace.note socket calls).home = trace.home := by
  cases socket <;> rfl

@[simp]
theorem readFrom_note (trace : Trace) (socket : Option Nat)
    (calls : List Call) :
    (trace.note socket calls).readFrom = trace.readFrom := by
  cases socket <;> rfl

/-- The record grows by nothing that is new, and its homes are extended. -/
theorem Sourced.extend {before after : Trace} (sourced : before.Sourced)
    (extends_ : EventLoop.Extends before.home after.home)
    (readFrom : after.readFrom = before.readFrom)
    (jobs : ∀ job ∈ after.jobs, job ∈ before.jobs)
    (waiting : ∀ entry ∈ after.waiting, entry ∈ before.waiting)
    (taken : after.taken = before.taken) : after.Sourced := by
  constructor
  · intro id socket member
    rw [readFrom] at member
    exact extends_ id socket (sourced.read id socket member)
  · intro job member
    exact (sourced.jobs job (jobs job member)).extend extends_
  · intro entry member
    rcases sourced.waiting entry (waiting entry member) with
      ⟨id, named, read⟩
    exact ⟨id, named, read.extend extends_⟩
  · intro entry held member
    rw [taken] at member
    rcases sourced.handed entry held member with
      ⟨id, socket, named, homed, same, read⟩
    exact ⟨id, socket, named, extends_ id socket homed, same,
      read.extend extends_⟩

/-- Bytes were received from the kernel socket of their connection. -/
theorem Sourced.received {before : Trace} {next : EventLoop} {id socket : Nat}
    (sourced : before.Sourced) {client : Client} {dispatch : Dispatch}
    (recorded : before.Recorded)
    (held : before.loop.kernelSocket client.conn = some socket)
    (homed : before.home id = some socket)
    (asked : before.loop.Asked id (some dispatch) next) :
    (before.received next id client dispatch).Sourced := by
  have whole : ReadFrom before.home id
      (before.readFrom id ++
        (before.loop.kernelSocket client.conn).toList) := by
    rw [held]
    constructor
    · simp
    · intro other member
      rcases List.mem_append.1 member with old | new
      · exact sourced.read id other old
      · rw [List.mem_singleton.1 new]
        exact homed
  have read : ∀ other, ∀ from_ ∈ Function.update before.readFrom id
      (before.readFrom id ++
        (before.loop.kernelSocket client.conn).toList) other,
      before.home other = some from_ := by
    intro other from_ member
    by_cases same : other = id
    · rw [same, Function.update_self] at member
      rw [same]
      exact whole.2 from_ member
    · rw [Function.update_of_ne same] at member
      exact sourced.read other from_ member
  cases asked with
  | nothing _ silent =>
      rcases silent with none | nothing
      · cases none
      · cases nothing
        exact ⟨read, sourced.jobs, sourced.waiting, sourced.handed⟩
  | posts data _ tasks accepted pushed =>
      refine ⟨read, sourced.jobs, ?_, sourced.handed⟩
      intro entry member
      rcases List.mem_append.1 member with old | new
      · exact sourced.waiting entry old
      · rcases TaskQueue.push_eq_some pushed with
          ⟨closed, _, _⟩ | ⟨_, _, _, queued, _, _⟩
        · rw [recorded.opened] at closed
          cases closed
        · rw [added, queued, List.drop_left, List.map_singleton,
            List.mem_singleton] at new
          rw [new]
          exact ⟨id, rfl, whole⟩
  | submits request keepAlive =>
      refine ⟨read, ?_, sourced.waiting, sourced.handed⟩
      intro job member
      rcases List.mem_append.1 member with old | new
      · exact sourced.jobs job old
      · rw [List.mem_singleton.1 new]
        exact whole

/-- The connection of the event that is handled. -/
theorem found_of_current {loop : EventLoop} {id : Nat} {client : Client}
    (current : loop.currentClient = some (id, client)) :
    loop.heap id = some client := by
  unfold EventLoop.currentClient at current
  split at current
  case h_1 => exact (EventLoop.find_eq_some_iff.1 current).2
  case h_2 => exact (EventLoop.find_eq_some_iff.1 current).2
  case h_3 => cases current

/-- A state from which the event loop itself goes on is sound. -/
theorem sound_of_moved {loop next : EventLoop} {action : EventLoop.Action}
    (standing : loop.Sound ∨ loop.ModifyThrew)
    (moved : EventLoop.machine.step loop action = some next)
    (working : ∀ index response, action ≠ .work index response)
    (stopping : action ≠ .stop) : loop.Sound := by
  rcases standing with sound | ⟨socket, threw⟩
  · exact sound
  · cases EventLoop.step_effect moved with
    | wait _ phase | accept _ _ _ _ phase | handle _ _ phase
    | recv _ _ _ phase | write _ _ _ phase | drain _ _ phase | reap phase =>
        rw [threw] at phase
        cases phase
    | work index response => exact absurd rfl (working index response)
    | stop => exact absurd rfl stopping

theorem home_follow (trace : Trace) (next : EventLoop)
    (action : EventLoop.Action) :
    (trace.follow next action).home =
      trace.loop.homesAfter trace.home action := by
  cases action with
  | wait | accept | handle | reap | stop => rfl
  | recv received =>
      simp only [follow, EventLoop.homesAfter]
      split
      case h_1 id client _ =>
        split
        case h_1 dispatch _ => cases dispatch <;> rfl
        case h_2 => rfl
      case h_2 => rfl
  | write answers =>
      simp only [follow, EventLoop.homesAfter]
      split
      case h_1 => exact home_note _ _ _
      case h_2 => rfl
  | drain answers =>
      simp only [follow, EventLoop.homesAfter]
      split
      case h_1 entry rest _ =>
        simp only [drained]
        split
        case h_1 => rfl
        case h_2 id client _ =>
          split_ifs
          · exact home_note _ _ _
          · rfl
      case h_2 => rfl
  | work index response =>
      simp only [follow, EventLoop.homesAfter]
      split <;> rfl

/-- What holds of the connections and their kernel sockets. -/
structure Settled (trace : Trace) : Prop where
  recorded : trace.Recorded
  standing : trace.loop.Sound ∨ trace.loop.ModifyThrew
  homed : trace.loop.Homed trace.home

theorem start_settled (listenFd wakeupFd : Fd) :
    (start listenFd wakeupFd).Settled :=
  ⟨start_recorded listenFd wakeupFd,
    Or.inl (EventLoop.start_sound listenFd wakeupFd),
    EventLoop.start_homed listenFd wakeupFd⟩

theorem Settled.step {before after : Trace} {action : EventLoop.Action}
    (settled : before.Settled)
    (stepped : machine.step before action = some after) :
    after.Settled ∧ EventLoop.Extends before.home after.home := by
  have recorded := settled.recorded.step stepped
  rcases Option.map_eq_some_iff.1 stepped with ⟨next, moved, rfl⟩
  have moved : EventLoop.machine.step before.loop action = some next := moved
  have homed : next.Homed (before.loop.homesAfter before.home action) ∧
      EventLoop.Extends before.home
        (before.loop.homesAfter before.home action) := by
    by_cases works : ∃ index response, action = .work index response
    · rcases works with ⟨index, response, rfl⟩
      cases EventLoop.step_effect moved with
      | work _ _ _ finishes =>
          cases finishes with
          | throws | posts =>
              exact ⟨settled.homed.aside rfl rfl rfl, fun _ _ held => held⟩
    · by_cases stops : action = .stop
      · subst stops
        cases moved
        exact ⟨settled.homed.aside rfl rfl rfl, fun _ _ held => held⟩
      · have sound := sound_of_moved settled.standing moved
          (fun index response same => works ⟨index, response, same⟩) stops
        exact settled.homed.step sound moved
  have standing : next.Sound ∨ next.ModifyThrew := by
    rcases settled.standing with sound | threw
    · exact sound.step moved
    · exact Or.inr (threw.step moved)
  rw [← home_follow before next action] at homed
  refine ⟨⟨recorded, ?_, ?_⟩, homed.2⟩
  · rw [loop_follow]
    exact standing
  · rw [loop_follow]
    exact homed.1

theorem socket_of_alive {loop : EventLoop} (sound : loop.Sound) {id : Nat}
    {client : Client} (found : loop.heap id = some client)
    (alive : client.conn.isAlive = true) : client.conn.socket ≠ none := by
  cases sound.placed id client found with
  | alive fd _ held =>
      rw [held]
      exact nofun
  | closed dead =>
      rw [alive] at dead
      cases dead

/-- The next response is taken out of the queue. -/
theorem Sourced.taking {before after : Trace} (sourced : before.Sourced)
    {entry : Pushed} {rest : List Pushed} {taken : Taken}
    (waiting : before.waiting = entry :: rest)
    (home : after.home = before.home)
    (readFrom : after.readFrom = before.readFrom)
    (jobs : after.jobs = before.jobs) (left : after.waiting = rest)
    (took : after.taken = before.taken ++ [taken])
    (handed : ∀ other held, taken = .handed other held →
      ∃ id socket, entry.pw.conn = some id ∧
        before.home id = some socket ∧
        held = some socket ∧ other = entry) : after.Sourced := by
  constructor
  · rw [home, readFrom]
    exact sourced.read
  · rw [home, jobs]
    exact sourced.jobs
  · rw [home, left]
    intro other member
    apply sourced.waiting other
    rw [waiting]
    exact List.mem_cons_of_mem entry member
  · rw [home, took]
    intro other held member
    rcases List.mem_append.1 member with old | new
    · exact sourced.handed other held old
    · rcases handed other held (List.mem_singleton.1 new).symm with
        ⟨id, socket, named, homed, same, rfl⟩
      rcases sourced.waiting other (by rw [waiting]; exact List.mem_cons_self)
        with ⟨id', named', read⟩
      rw [named, Option.some.injEq] at named'
      exact ⟨id, socket, named, homed, same, named' ▸ read⟩

theorem Sourced.step {before after : Trace} {action : EventLoop.Action}
    (sourced : before.Sourced) (settled : before.Settled)
    (stepped : machine.step before action = some after) : after.Sourced := by
  have extends_ := (settled.step stepped).2
  have same : EventLoop.Extends before.home before.home :=
    fun _ _ held => held
  rcases settled.recorded.follows stepped with ⟨next, moved, follows⟩
  cases follows with
  | aside =>
      exact sourced.extend same rfl (fun _ member => member)
        (fun _ member => member) rfl
  | accepts =>
      exact sourced.extend extends_ rfl (fun _ member => member)
        (fun _ member => member) rfl
  | receives received id client current dispatch asks asked =>
      rcases settled.homed.kernelSocket (found_of_current current)
        (Client.socket_of_dispatch asks) with ⟨held, homed⟩
      rcases Option.ne_none_iff_exists'.1 homed with ⟨socket, homed⟩
      exact sourced.received settled.recorded (held.trans homed) homed asked
  | writes answers id client =>
      apply sourced.extend
      · rw [home_note]
        exact same
      · exact readFrom_note _ _ _
      · rw [jobs_note]
        exact fun _ member => member
      · rw [waiting_note]
        exact fun _ member => member
      · exact taken_note _ _ _
  | hands answers entry rest waiting id client named found alive flushed =>
      have sound := sound_of_moved settled.standing moved nofun nofun
      rcases settled.homed.kernelSocket found
        (socket_of_alive sound found alive) with ⟨held, homed⟩
      rcases Option.ne_none_iff_exists'.1 homed with ⟨own, homed⟩
      refine sourced.taking waiting ?_ ?_ ?_ ?_ rfl ?_
      · exact home_note _ _ _
      · exact readFrom_note _ _ _
      · exact jobs_note _ _ _
      · exact waiting_note _ _ _
      · intro handed kept equal
        cases equal
        exact ⟨id, own, named, homed, held.trans homed, rfl⟩
  | discards answers entry rest waiting conn =>
      exact sourced.taking waiting rfl rfl rfl rfl rfl nofun
  | throws index job =>
      exact sourced.extend same rfl
        (fun _ member => List.mem_of_mem_eraseIdx member)
        (fun _ member => member) rfl
  | posts index job task _ response =>
      have read := sourced.jobs job (List.mem_of_getElem? task)
      constructor
      · exact sourced.read
      · exact fun other member =>
          sourced.jobs other (List.mem_of_mem_eraseIdx member)
      · intro entry member
        rcases List.mem_append.1 member with old | new
        · exact sourced.waiting entry old
        · rw [List.mem_singleton.1 new]
          exact ⟨job.conn, rfl, read⟩
      · exact sourced.handed

end Trace

/-! ## What was sent for them -/

/-- The response, if it was handed over to the connection of a kernel socket. -/
def Taken.handedTo (socket : Nat) : Taken → Option Pushed
  | .handed entry held => if held = some socket then some entry else none
  | .discarded _ _ _ => none

namespace Trace

/-- The responses handed over to the connection of a kernel socket. -/
def handedTo (trace : Trace) (socket : Nat) : List Pushed :=
  trace.taken.filterMap (Taken.handedTo socket)

/-- What was sent, and is still to be sent, is of responses handed over. -/
structure Carried (trace : Trace) : Prop where
  data : ∀ id client socket, trace.loop.heap id = some client →
    trace.home id = some socket →
      sentData (trace.calls socket) ++ client.conn.writeBuf.readable =
        (trace.handedTo socket).flatMap fun entry => entry.pw.data
  left : ∀ id client socket, trace.loop.heap id = some client →
    trace.home id = some socket →
      client.conn.unsentFile = [] ∨ ∃ entry ∈ trace.handedTo socket,
        client.conn.unsentFile <:+ entry.pw.body
  file : ∀ socket bytes, .sendfile bytes ∈ trace.calls socket →
    bytes ≠ [] →
    ∃ entry ∈ trace.handedTo socket, bytes <:+: entry.pw.body
  unowned : ∀ socket, (∀ id, trace.home id ≠ some socket) →
    trace.calls socket = [] ∧ trace.handedTo socket = []

theorem start_carried (listenFd wakeupFd : Fd) :
    (start listenFd wakeupFd).Carried := by
  constructor
  · intro id client socket found
    cases found
  · intro id client socket found
    cases found
  · intro socket bytes member
    cases member
  · exact fun socket _ => ⟨rfl, rfl⟩

/-- No connection has more to send than before. -/
def Calm (before after : EventLoop) : Prop :=
  ∀ id moved, after.heap id = some moved →
    ∃ client, before.heap id = some client ∧
      moved.conn.writeBuf = client.conn.writeBuf ∧
        (moved.conn.unsentFile = client.conn.unsentFile ∨
          moved.conn.unsentFile = [])

theorem Calm.of_heap {before after : EventLoop}
    (heap : after.heap = before.heap) : Calm before after := by
  intro id moved found
  rw [heap] at found
  exact ⟨moved, found, rfl, Or.inl rfl⟩

theorem Calm.of_update {before after : EventLoop} {id : Nat}
    {client moved : Client} (found : before.heap id = some client)
    (heap : after.heap = Function.update before.heap id (some moved))
    (buffer : moved.conn.writeBuf = client.conn.writeBuf)
    (file : moved.conn.unsentFile = client.conn.unsentFile ∨
      moved.conn.unsentFile = []) : Calm before after := by
  intro other entry known
  rw [heap] at known
  by_cases same : other = id
  · rw [same, Function.update_self, Option.some.injEq] at known
    rw [same, ← known]
    exact ⟨client, found, buffer, file⟩
  · rw [Function.update_of_ne same] at known
    exact ⟨entry, known, rfl, Or.inl rfl⟩

theorem onClosed_calm (conn : Connection) :
    conn.onClosed.1.writeBuf = conn.writeBuf ∧
      (conn.onClosed.1.unsentFile = conn.unsentFile ∨
        conn.onClosed.1.unsentFile = []) := by
  unfold Connection.onClosed
  split
  · exact ⟨rfl, Or.inl rfl⟩
  · exact ⟨rfl, Or.inr rfl⟩

/-- Events and reading leave what is to be sent alone. -/
theorem Calm.step {before after : EventLoop} {action : EventLoop.Action}
    (stepped : EventLoop.machine.step before action = some after)
    (accepting : ∀ clients last, action ≠ .accept clients last)
    (writing : ∀ answers, action ≠ .write answers)
    (draining : ∀ answers, action ≠ .drain answers) :
    Calm before after := by
  cases EventLoop.step_effect stepped with
  | wait | reap | stop => exact .of_heap rfl
  | accept clients last => exact absurd rfl (accepting clients last)
  | handle event rest _ _ _ handles =>
      cases handles with
      | closes id client keyed found closed =>
          rcases onClosed_calm client.conn with ⟨buffer, file⟩
          exact .of_update found rfl buffer file
      | wakeup | stale | reads | writes | ignores => exact .of_heap rfl
  | recv received event rest _ id client _ found _ reads =>
      cases reads with
      | more | posts | submits | blocked =>
          exact .of_update found rfl rfl (Or.inl rfl)
      | closes last readBuf read =>
          rcases onClosed_calm last with ⟨buffer, file⟩
          subst read
          exact .of_update found rfl buffer file
  | write answers => exact absurd rfl (writing answers)
  | drain answers => exact absurd rfl (draining answers)
  | work index response _ finishes =>
      cases finishes <;> exact .of_heap rfl

theorem Carried.calm {before after : Trace} (carried : before.Carried)
    (calm : Calm before.loop after.loop) (home : after.home = before.home)
    (calls : after.calls = before.calls)
    (handed : ∀ socket, after.handedTo socket = before.handedTo socket) :
    after.Carried := by
  constructor
  · intro id moved socket found held
    rcases calm id moved found with ⟨client, known, buffer, _⟩
    rw [home] at held
    rw [calls, handed, buffer]
    exact carried.data id client socket known held
  · intro id moved socket found held
    rcases calm id moved found with ⟨client, known, _, file⟩
    rw [home] at held
    rw [handed]
    rcases file with same | nothing
    · rw [same]
      exact carried.left id client socket known held
    · exact Or.inl nothing
  · intro socket bytes member
    rw [calls] at member
    rw [handed]
    exact carried.file socket bytes member
  · intro socket unowned
    rw [home] at unowned
    rw [calls, handed]
    exact carried.unowned socket unowned

/-- Connections are accepted, each on a kernel socket nobody has used. -/
theorem Carried.accepts {before after : Trace} (carried : before.Carried)
    (sound : before.loop.Sound) (homed : before.loop.Homed before.home)
    {clients : List Fd} {next : EventLoop}
    (accepted : before.loop.acceptAll clients = some next)
    (heap : after.loop.heap = next.heap)
    (homedAfter : after.loop.Homed after.home)
    (extends_ : EventLoop.Extends before.home after.home)
    (calls : after.calls = before.calls)
    (handed : ∀ socket, after.handedTo socket = before.handedTo socket) :
    after.Carried := by
  have old : ∀ id client socket, before.loop.heap id = some client →
      after.home id = some socket → before.home id = some socket := by
    intro id client socket known held
    have homes := homed.known id
    rw [known] at homes
    rcases Option.isSome_iff_exists.1 homes with ⟨own, own_eq⟩
    rw [extends_ id own own_eq] at held
    exact own_eq.trans held
  have fresh : ∀ id socket, before.loop.heap id = none →
      after.home id = some socket →
        ∀ other, before.home other ≠ some socket := by
    intro id socket absent held other taken
    have same := homedAfter.own other id socket
      (extends_ other socket taken) held
    have homes := homed.known id
    rw [← same, taken, same, absent] at homes
    cases homes
  constructor
  · intro id client socket found held
    rw [calls, handed]
    rw [heap] at found
    rcases EventLoop.acceptAll_new sound accepted id with
      kept | ⟨absent, new, found', _, _, fd, conn⟩
    · rw [kept] at found
      exact carried.data id client socket found
        (old id client socket found held)
    · rcases carried.unowned socket (fresh id socket absent held) with
        ⟨noCalls, nothing⟩
      rw [found, Option.some.injEq] at found'
      rw [noCalls, nothing, found', conn]
      exact Buffer.readable_ofCapacity Net.defaultCapacity
  · intro id client socket found held
    rw [handed]
    rw [heap] at found
    rcases EventLoop.acceptAll_new sound accepted id with
      kept | ⟨absent, new, found', _, _, fd, conn⟩
    · rw [kept] at found
      exact carried.left id client socket found
        (old id client socket found held)
    · rw [found, Option.some.injEq] at found'
      rw [found', conn]
      exact Or.inl rfl
  · intro socket bytes member
    rw [calls] at member
    rw [handed]
    exact carried.file socket bytes member
  · intro socket unowned
    rw [calls, handed]
    exact carried.unowned socket fun id held =>
      unowned id (extends_ id socket held)

/-- What a flush begins with belongs to a response that was handed over. -/
theorem Carried.begun {trace : Trace} (carried : trace.Carried)
    {id socket : Nat} {client : Client} {more : List Pushed}
    {begun : Connection} (found : trace.loop.heap id = some client)
    (held : trace.home id = some socket)
    (file : begun.unsentFile = client.conn.unsentFile ∨
      ∃ entry ∈ more, begun.unsentFile = entry.pw.body) :
    begun.unsentFile = [] ∨
      ∃ entry ∈ trace.handedTo socket ++ more,
        begun.unsentFile <:+ entry.pw.body := by
  rcases file with same | ⟨entry, member, same⟩
  · rw [same]
    rcases carried.left id client socket found held with
      nothing | ⟨entry, member, part⟩
    · exact Or.inl nothing
    · exact Or.inr ⟨entry, List.mem_append_left _ member, part⟩
  · rw [same]
    exact Or.inr ⟨entry, List.mem_append_right _ member, List.suffix_refl _⟩

/-- A flush for a connection that may have been handed more to send. -/
theorem Carried.sends {before after : Trace} (carried : before.Carried)
    (homed : before.loop.Homed before.home) {id socket : Nat}
    {client moved : Client} {more : List Pushed} {begun : Connection}
    {calls : List Call} (found : before.loop.heap id = some client)
    (held : before.home id = some socket)
    (data : begun.writeBuf.readable =
      client.conn.writeBuf.readable ++ more.flatMap fun entry => entry.pw.data)
    (file : begun.unsentFile = client.conn.unsentFile ∨
      ∃ entry ∈ more, begun.unsentFile = entry.pw.body)
    (sends : Connection.Sends begun calls moved.conn)
    (heap : after.loop.heap =
      Function.update before.loop.heap id (some moved))
    (home : after.home = before.home)
    (noted : after.calls =
      Function.update before.calls socket (before.calls socket ++ calls))
    (handed : ∀ other, after.handedTo other =
      before.handedTo other ++ if other = socket then more else []) :
    after.Carried := by
  have handedHere : after.handedTo socket = before.handedTo socket ++ more := by
    rw [handed, if_pos rfl]
  have handedThere : ∀ other, other ≠ socket →
      after.handedTo other = before.handedTo other := by
    intro other different
    rw [handed, if_neg different, List.append_nil]
  have callsHere : after.calls socket = before.calls socket ++ calls := by
    rw [noted, Function.update_self]
  have callsThere : ∀ other, other ≠ socket →
      after.calls other = before.calls other := by
    intro other different
    rw [noted, Function.update_of_ne different]
  have foreign : ∀ other own, other ≠ id →
      before.home other = some own → own ≠ socket := by
    rintro other own different theirs rfl
    exact different (homed.own other id own theirs held)
  have begunFrom := carried.begun found held file
  rw [← handedHere] at begunFrom
  rcases sends.file with ⟨rest, split, left⟩
  constructor
  · intro other entry own known theirs
    rw [heap] at known
    rw [home] at theirs
    by_cases same : other = id
    · rw [same, Function.update_self, Option.some.injEq] at known
      rw [same, held, Option.some.injEq] at theirs
      rw [← known, ← theirs, callsHere, handedHere, sentData_append,
        List.append_assoc, sends.data, data, ← List.append_assoc,
        carried.data id client socket found held, List.flatMap_append]
    · rw [Function.update_of_ne same] at known
      have apart := foreign other own same theirs
      rw [callsThere own apart, handedThere own apart]
      exact carried.data other entry own known theirs
  · intro other entry own known theirs
    rw [heap] at known
    rw [home] at theirs
    by_cases same : other = id
    · rw [same, Function.update_self, Option.some.injEq] at known
      rw [same, held, Option.some.injEq] at theirs
      rw [← known, ← theirs]
      rcases left with rest_eq | nothing
      · rw [rest_eq]
        rcases begunFrom with empty | ⟨source, member, part⟩
        · rw [empty] at split
          exact Or.inl (List.append_eq_nil_iff.1 split).2
        · have suffix_ : rest <:+ begun.unsentFile := ⟨_, split⟩
          exact Or.inr ⟨source, member, suffix_.trans part⟩
      · exact Or.inl nothing
    · rw [Function.update_of_ne same] at known
      rw [handedThere own (foreign other own same theirs)]
      exact carried.left other entry own known theirs
  · intro own bytes member nonempty
    by_cases same : own = socket
    · rw [same, callsHere] at member
      rw [same]
      rcases List.mem_append.1 member with old | new
      · rcases carried.file socket bytes old nonempty with
          ⟨entry, among, part⟩
        rw [handedHere]
        exact ⟨entry, List.mem_append_left _ among, part⟩
      · have sent : bytes <:+: begun.unsentFile :=
          (infix_sentFile new).trans (List.IsPrefix.isInfix ⟨_, split⟩)
        rcases begunFrom with empty | ⟨source, among, part⟩
        · rw [empty, List.infix_nil] at sent
          exact absurd sent nonempty
        · exact ⟨source, among, sent.trans part.isInfix⟩
    · rw [callsThere own same] at member
      rw [handedThere own same]
      exact carried.file own bytes member nonempty
  · intro own unowned
    rw [home] at unowned
    have apart : own ≠ socket := by
      rintro rfl
      exact unowned id held
    rw [callsThere own apart, handedThere own apart]
    exact carried.unowned own unowned

/-- What `flush_write` begins with for a response just handed over. -/
theorem begun_of_handed (entry : Pushed) (conn : Connection) :
    (entry.pw.handedOver conn).writeBuf.readable =
        conn.writeBuf.readable ++ [entry].flatMap
          (fun entry => entry.pw.data) ∧
      ((entry.pw.handedOver conn).unsentFile = conn.unsentFile ∨
        ∃ other ∈ [entry],
          (entry.pw.handedOver conn).unsentFile = other.pw.body) := by
  constructor
  · rw [PendingWrite.readable_handedOver, List.flatMap_singleton]
  · unfold PendingWrite.handedOver
    cases file : entry.pw.fileFd with
    | none => exact Or.inl rfl
    | some opened =>
        refine Or.inr ⟨entry, List.mem_singleton_self _, ?_⟩
        rw [PendingWrite.body, file]
        rfl

theorem deliver_sends {pw : PendingWrite} {conn : Connection}
    {answers : List Answer} {flushed : Connection.Flushed}
    (delivered : pw.deliver conn answers = some flushed) :
    Connection.Sends (pw.handedOver conn) flushed.calls flushed.conn := by
  rcases PendingWrite.deliver_flushWrite delivered with
    ⟨calls, silent, _, flush, rfl, ran⟩
  have released : Connection.Sends (pw.handedOver conn) calls
      (pw.handedOver conn) :=
    .of_silent silent rfl (Or.inl rfl) fun none => none
  exact released.trans (Connection.flushWrite_sends ran)

theorem Carried.step {before after : Trace} {action : EventLoop.Action}
    (carried : before.Carried) (settled : before.Settled)
    (stepped : machine.step before action = some after) : after.Carried := by
  rcases settled.step stepped with ⟨settledAfter, extends_⟩
  rcases settled.recorded.follows stepped with ⟨next, moved, follows⟩
  cases follows with
  | aside _ accepting writing draining =>
      refine carried.calm ?_ rfl rfl fun _ => rfl
      by_cases drains : ∃ answers, action = .drain answers
      · rcases drains with ⟨answers, same⟩
        exact .of_heap (draining answers same)
      · exact .step moved accepting writing fun answers same =>
          drains ⟨answers, same⟩
  | accepts clients last =>
      have sound := sound_of_moved settled.standing moved nofun nofun
      cases EventLoop.step_effect moved with
      | accept _ _ _ _ _ _ opened accepted =>
          exact carried.accepts sound settled.homed accepted rfl
            settledAfter.homed extends_ rfl fun _ => rfl
  | receives received id client current dispatch =>
      have calm := Calm.step moved nofun nofun nofun
      cases dispatch <;> exact carried.calm calm rfl rfl fun _ => rfl
  | writes answers id client current flushed flush heap =>
      have found := found_of_current current
      have sends := Connection.flushWrite_sends flush
      have homes := settled.homed.known id
      rw [found] at homes
      rcases Option.isSome_iff_exists.1 homes with ⟨own, held⟩
      have begun : client.conn.writeBuf.readable =
          client.conn.writeBuf.readable ++
            ([] : List Pushed).flatMap fun entry => entry.pw.data :=
        (List.append_nil _).symm
      have unhanded : ∀ trace : Trace, ∀ other, trace.handedTo other =
          trace.handedTo other ++ if other = own then [] else [] := by
        intro trace other
        rw [ite_self, List.append_nil]
      by_cases closed : client.conn.socket = none
      · have silent : before.loop.kernelSocket client.conn = none := by
          rw [EventLoop.kernelSocket, closed]
          rfl
        rw [silent]
        refine carried.sends settled.homed found held begun (Or.inl rfl)
          (sends.idle closed) heap rfl ?_ (unhanded _)
        rw [List.append_nil, Function.update_eq_self]
        rfl
      · rw [(settled.homed.kernelSocket found closed).1, held]
        exact carried.sends settled.homed found held begun (Or.inl rfl) sends
          heap rfl rfl (unhanded _)
  | hands answers entry rest waiting id client named found alive flushed
      delivered heap =>
      have sound := sound_of_moved settled.standing moved nofun nofun
      rcases settled.homed.kernelSocket found
        (socket_of_alive sound found alive) with ⟨same, homed⟩
      rcases Option.ne_none_iff_exists'.1 homed with ⟨own, held⟩
      rcases begun_of_handed entry client.conn with ⟨begun, file⟩
      rw [same, held]
      refine carried.sends settled.homed found held begun file
        (deliver_sends delivered) heap rfl rfl fun other => ?_
      show List.filterMap _ (before.taken ++ [.handed entry (some own)]) = _
      rw [List.filterMap_append, handedTo]
      by_cases here : other = own
      · simp [Taken.handedTo, here]
      · simp [Taken.handedTo, here, Ne.symm here]
  | discards answers entry rest waiting conn _ _ heap =>
      refine carried.calm (.of_heap heap) rfl rfl fun socket => ?_
      show List.filterMap _ (before.taken ++ _) = _
      rw [List.filterMap_append]
      exact List.append_nil _
  | throws index job =>
      exact carried.calm (.step moved nofun nofun nofun) rfl rfl fun _ => rfl
  | posts index job =>
      exact carried.calm (.step moved nofun nofun nofun) rfl rfl fun _ => rfl

/-! ## Every run -/

/--
In every state of every run: what `send` has put on a kernel socket is the
beginning of the responses handed over to its connection, what `sendfile` has
put on it are pieces of their files, and all of them are for requests read from
this kernel socket.  A response was handed over only to a connection that still
held the kernel socket it was accepted on.
-/
theorem responses_sourced {listenFd wakeupFd : Fd}
    {actions : List EventLoop.Action} {trace : Trace}
    (ran : machine.run (start listenFd wakeupFd) actions = some trace) :
    (∀ socket,
      sentData (trace.calls socket) <+:
          ((trace.handedTo socket).flatMap fun entry => entry.pw.data) ∧
        (∀ bytes, .sendfile bytes ∈ trace.calls socket → bytes ≠ [] →
          ∃ entry ∈ trace.handedTo socket, bytes <:+: entry.pw.body) ∧
        ∀ entry ∈ trace.handedTo socket, entry.readFrom ≠ [] ∧
          ∀ origin ∈ entry.readFrom, origin = socket) ∧
      ∀ entry held, .handed entry held ∈ trace.taken →
        ∃ id, entry.pw.conn = some id ∧ held = trace.home id ∧
          held ≠ none := by
  have reachable : machine.Reachable (start listenFd wakeupFd) trace :=
    ⟨actions, ran⟩
  have kept : ∀ (before : Trace) (action : EventLoop.Action) (after : Trace),
      before.Settled ∧ before.Sourced ∧ before.Carried →
        machine.step before action = some after →
          after.Settled ∧ after.Sourced ∧ after.Carried := by
    rintro before action after ⟨settled, sourced, carried⟩ stepped
    exact ⟨(settled.step stepped).1, sourced.step settled stepped,
      carried.step settled stepped⟩
  rcases reachable.invariant kept
    ⟨start_settled .., start_sourced .., start_carried ..⟩ with
    ⟨settled, sourced, carried⟩
  constructor
  · intro socket
    refine ⟨?_, carried.file socket, ?_⟩
    · by_cases owned : ∃ id, trace.home id = some socket
      · rcases owned with ⟨id, held⟩
        have homes := settled.homed.known id
        rw [held] at homes
        rcases Option.isSome_iff_exists.1 homes.symm with ⟨client, found⟩
        exact ⟨_, carried.data id client socket found held⟩
      · rw [(carried.unowned socket fun id held => owned ⟨id, held⟩).1]
        exact List.nil_prefix
    · intro entry member
      rcases List.mem_filterMap.1 member with ⟨taken, among, handed⟩
      cases taken with
      | discarded => cases handed
      | handed other held =>
          simp only [Taken.handedTo] at handed
          split_ifs at handed with own
          cases handed
          rcases sourced.handed entry held among with
            ⟨id, other, named, homed, same, read⟩
          rw [own, Option.some.injEq] at same
          refine ⟨read.1, fun origin from_ => ?_⟩
          have home := read.2 origin from_
          rw [homed, Option.some.injEq] at home
          exact home.symm.trans same.symm
  · intro entry held member
    rcases sourced.handed entry held member with
      ⟨id, socket, named, homed, same, _⟩
    refine ⟨id, named, same.trans homed.symm, ?_⟩
    rw [same]
    exact nofun

/--
A client leaves before its response comes back, and another one is accepted on
the same descriptor and sends a request too.
-/
def reused : List EventLoop.Action :=
  [.wait [EventLoop.readable 3], .accept [6] .again, .reap,
    .wait [EventLoop.readable 6], .handle,
    .recv (.data 71 (text "ET / HTTP/1.1\r\n\r\n")),
    .recv (.failed .again), .reap, .wait [EventLoop.hangup 6], .handle, .reap,
    .wait [EventLoop.readable 3], .accept [6] .again, .reap,
    .wait [EventLoop.readable 6], .handle,
    .recv (.data 71 (text "ET / HTTP/1.1\r\n\r\n")),
    .recv (.failed .again), .reap,
    .work 0 (some { conn := none, data := text "old" }),
    .work 0 (some { conn := none, data := text "new" }),
    .wait [EventLoop.readable 5], .handle, .drain [], .drain [.took 3],
    .drain []]

theorem responses_sourced_reused :
    ∃ trace, machine.run (start 3 5) reused = some trace ∧
      sentData (trace.calls 3) = text "new" ∧
        ∀ entry ∈ trace.handedTo 3, entry.readFrom ≠ [] ∧
          ∀ origin ∈ entry.readFrom, origin = 3 := by
  have finishes : ∃ trace, machine.run (start 3 5) reused = some trace ∧
      sentData (trace.calls 3) = text "new" :=
    Option.map_eq_some_iff.1 (by decide)
  rcases finishes with ⟨trace, ran, sent⟩
  exact ⟨trace, ran, sent, ((responses_sourced ran).1 3).2.2⟩

end Trace

end Cppws.App
