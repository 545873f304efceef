import Cppws.App.PeerStream
import Cppws.App.Registration
import Cppws.App.Subject

/-!
# What the peer of a connection has sent

The event loop with the byte streams of its peers.  A peer sends bytes and
shuts down its sending side at any time; `recv` returns the next bytes of its
stream, and the end of it when there are none left; `epoll_wait` reports a
hangup after the peer has shut down only, in any event and batch.
`handle_event` looks at the hangup first: what has not been read by then is
lost.
-/

namespace Cppws.App

open Cppws.Core
open Cppws.Http
open Cppws.Net

/-! ## The event loop with the streams of its peers -/

namespace EventLoop

/-- The step reports an error on its connection. -/
def reportsError (loop : EventLoop) : Action → Bool
  | .handle => loop.nextEvent.any EpollEvent.isError
  | .recv received => receiveError received
  | .write answers => answers.any Answer.fatal
  | .drain answers => answers.any Answer.fatal
  | _ => false

/-- The connection has been accepted, and is not open any more. -/
def Ended (loop : EventLoop) (id : Nat) : Prop :=
  id < loop.nextConnId ∧
    ∀ client ∈ loop.heap id, client.conn.socket = none

instance (loop : EventLoop) (id : Nat) : Decidable (loop.Ended id) :=
  inferInstanceAs (Decidable (_ ∧ _))

/-- An open connection whose hangup is handled next, without an error. -/
def hungUp (loop : EventLoop) : Option Nat :=
  loop.nextEvent.bind fun event =>
    (loop.find event.fd).bind fun found =>
      if event.isHangup && !event.isError && found.2.conn.socket.isSome then
        some found.1
      else
        none

end EventLoop

structure Streams where
  loop : EventLoop
  /-- The stream of the peer of every connection. -/
  stream : Nat → Stream := fun _ => {}

namespace Streams

inductive Action where
  /-- The peer of a connection sends some bytes. -/
  | send (id : Nat) (bytes : Bytes)
  /-- It shuts down its sending side. -/
  | shutdown (id : Nat)
  | loop (action : EventLoop.Action)

/-- The kernel reports what the peers have done. -/
def Reports (state : Streams) : EventLoop.Action → Prop
  | .wait batch =>
      ∀ event ∈ batch, event.isHangup = true →
        ∀ id ∈ state.loop.connections event.fd,
          (state.stream id).shut = true
  | .recv received =>
      ∀ found ∈ state.loop.currentClient, found.2.conn.socket ≠ none →
        (state.stream found.1).Gives received
  | _ => True

instance (state : Streams) : ∀ action, Decidable (state.Reports action)
  | .wait _ => inferInstanceAs (Decidable (∀ event ∈ _, _))
  | .recv _ => inferInstanceAs (Decidable (∀ found ∈ _, _))
  | .accept _ _ | .handle | .write _ | .drain _ | .reap | .work _ _ | .stop =>
      inferInstanceAs (Decidable True)

/-- The stream of a connection after a step that works on it. -/
def advance (state : Streams) (id : Nat) (client : Client)
    (action : EventLoop.Action) : Stream :=
  let stream :=
    match action with
    | .recv received => (state.stream id).read client.conn received
    | _ => state.stream id
  stream.mark client.conn (state.loop.reportsError action)

/-- The streams after a step of the event loop. -/
def follow (state : Streams) (next : EventLoop) (action : EventLoop.Action) :
    Streams where
  loop := next
  stream :=
    match state.loop.subject action with
    | some (id, client) =>
        Function.update state.stream id (state.advance id client action)
    | none => state.stream

def step (state : Streams) : Action → Option Streams
  | .send id bytes =>
      if (state.stream id).shut then
        none
      else
        some
          { state with
            stream :=
              Function.update state.stream id
                ((state.stream id).send bytes) }
  | .shutdown id =>
      some
        { state with
          stream :=
            Function.update state.stream id
              { state.stream id with shut := true } }
  | .loop action =>
      if state.Reports action then
        (state.loop.step action).map fun next => state.follow next action
      else
        none

def machine : Machine Streams Action where
  step := step

def start (listenFd wakeupFd : Fd) : Streams where
  loop := .start listenFd wakeupFd

/--
The read callback has been shown all that the peer of a connection has sent
when the connection is closed, unless there was an error on it.
-/
def Heard (state : Streams) : Prop :=
  ∀ id, state.loop.Ended id → (state.stream id).faulty = false →
    (state.stream id).shown = (state.stream id).sent

/--
No hangup is handled and no client is dropped for want of a free key while
there is something to be read from it, and nothing is sent to one dropped.
-/
def ReadsFirst (state : Streams) : Action → Prop
  | .send id bytes =>
      state.loop.Ended id → (state.stream id).faulty = false → bytes = []
  | .loop .handle =>
      ∀ id ∈ state.loop.hungUp, (state.stream id).faulty = false →
        (state.stream id).pending = []
  | .loop (.accept clients _) =>
      ∀ client ∈ clients.zipIdx,
        state.loop.connections client.1 ≠ none →
        (state.stream (state.loop.nextConnId + client.2)).pending = []
  | _ => True

instance (state : Streams) : ∀ action, Decidable (state.ReadsFirst action)
  | .send _ _ => inferInstanceAs (Decidable (_ → _ → _))
  | .loop .handle => inferInstanceAs (Decidable (∀ id ∈ _, _))
  | .loop (.accept _ _) => inferInstanceAs (Decidable (∀ client ∈ _, _))
  | .shutdown _ | .loop (.wait _) | .loop (.recv _) | .loop (.write _)
  | .loop (.drain _) | .loop .reap | .loop (.work _ _) | .loop .stop =>
      inferInstanceAs (Decidable True)

end Streams

namespace Streams

/-! ## The invariant -/

/-- What holds of a connection and the stream of its peer. -/
structure Heeded (state : Streams) (id : Nat) : Prop where
  numbered : state.loop.heap id ≠ none → id < state.loop.nextConnId
  tells : ∀ client, state.loop.heap id = some client →
    Tells client.conn (state.stream id)
  whole : (state.stream id).Whole
  /-- Only connections have errors. -/
  working : state.loop.heap id = none → (state.stream id).faulty = false

structure Attentive (listenFd wakeupFd : Fd) (state : Streams) : Prop where
  reachable : EventLoop.machine.Reachable (.start listenFd wakeupFd) state.loop
  heeded : ∀ id, state.Heeded id
  /-- A hangup still to be handled is one of a peer that has shut down. -/
  reported : ∀ event ∈ state.loop.phase.events, event.isHangup = true →
    event.fd = state.loop.listenFd ∨ event.fd = state.loop.wakeupFd ∨
      ∃ id, state.loop.connections event.fd = some id ∧
        (state.stream id).shut = true

theorem start_attentive (listenFd wakeupFd : Fd) :
    (start listenFd wakeupFd).Attentive listenFd wakeupFd where
  reachable := ⟨[], rfl⟩
  heeded := fun id =>
    { numbered := fun known => absurd rfl known
      tells := fun client found => by cases found
      whole := rfl
      working := fun _ => rfl }
  reported := fun event member => by cases member

/-- What is pending on a connection that has ended is lost. -/
def Lost (state : Streams) (id : Nat) : Prop :=
  state.loop.Ended id ∧ (state.stream id).faulty = false ∧
    (state.stream id).pending ≠ []

theorem Heeded.lost_iff {state : Streams} {id : Nat} {client : Client}
    (heeded : state.Heeded id) (found : state.loop.heap id = some client) :
    state.Lost id ↔ Loses client.conn (state.stream id) := by
  have bounded : id < state.loop.nextConnId := by
    apply heeded.numbered
    rw [found]
    exact Option.some_ne_none _
  have ended : state.loop.Ended id ↔ client.conn.socket = none := by
    unfold EventLoop.Ended
    rw [found]
    simp [bounded]
  rw [Lost, Loses, ended]

theorem Attentive.heard_iff {listenFd wakeupFd : Fd} {state : Streams}
    (attentive : state.Attentive listenFd wakeupFd) :
    state.Heard ↔ ¬ ∃ id, state.Lost id := by
  have nothing : ∀ id, (state.stream id).shown = (state.stream id).sent ↔
      (state.stream id).pending = [] := by
    intro id
    rw [← (attentive.heeded id).whole]
    exact List.self_eq_append_right
  constructor
  · rintro heard ⟨id, ended, working, pending⟩
    exact pending ((nothing id).1 (heard id ended working))
  · intro unlost id ended working
    by_contra missed
    exact unlost ⟨id, ended, working, mt (nothing id).2 missed⟩

theorem readsFirst_of_aside {state : Streams} {action : EventLoop.Action}
    (other : ∀ clients last, action ≠ .accept clients last)
    (nobody : state.loop.subject action = none) :
    state.ReadsFirst (.loop action) := by
  cases action with
  | wait | recv | write | drain | reap | work | stop => trivial
  | accept clients last => exact absurd rfl (other clients last)
  | handle =>
      intro id hung
      rcases Option.bind_eq_some_iff.1 hung with ⟨event, next, hung⟩
      rcases Option.bind_eq_some_iff.1 hung with ⟨found, known, _⟩
      rw [EventLoop.subject, next, Option.bind_some, known] at nobody
      cases nobody

/-- What is known of the event loop while it handles events. -/
theorem Attentive.standing {listenFd wakeupFd : Fd} {state : Streams}
    (attentive : state.Attentive listenFd wakeupFd) {phase : Phase}
    (current : state.loop.phase = phase)
    (works : ∀ socket, phase ≠ .threw (.modify socket)) :
    state.loop.Standing ∧ state.loop.Enrolled := by
  have running : ¬ state.loop.ModifyThrew := by
    rintro ⟨socket, threw⟩
    exact works socket (current.symm.trans threw)
  exact EventLoop.standing_and_of_reachable
    (fun _ _ _ standing (enrolled : EventLoop.Enrolled _) =>
      enrolled.step standing.sound)
    (EventLoop.start_enrolled listenFd wakeupFd) attentive.reachable running

/-- The event that is handled next, for a connection that is found. -/
structure Handling (loop : EventLoop) (event : EpollEvent) (id : Nat)
    (client : Client) : Prop where
  next : loop.nextEvent = some event
  keyed : loop.connections event.fd = some id
  member : event ∈ loop.phase.events
  other : event.fd ≠ loop.listenFd ∧ event.fd ≠ loop.wakeupFd
  running : ∀ socket, loop.phase ≠ .threw (.modify socket)
  hungUp : loop.hungUp =
    if event.isHangup && !event.isError && client.conn.socket.isSome then
      some id
    else
      none

theorem handling_of_step {loop next : EventLoop} {event : EpollEvent}
    {id : Nat} {client : Client}
    (stepped : EventLoop.machine.step loop .handle = some next)
    (upcoming : loop.nextEvent = some event)
    (subject : loop.subject .handle = some (id, client)) :
    Handling loop event id client := by
  rw [EventLoop.subject, upcoming, Option.bind_some] at subject
  have keyed := (EventLoop.find_eq_some_iff.1 subject).1
  cases EventLoop.step_effect stepped with
  | handle first rest phase other =>
      have same := upcoming
      rw [EventLoop.nextEvent, phase] at same
      dsimp only at same
      split_ifs at same with woken
      cases same
      refine ⟨upcoming, keyed, ?_, ⟨other, woken⟩, ?_, ?_⟩
      · rw [phase]
        exact List.mem_cons_self
      · intro socket threw
        rw [phase] at threw
        cases threw
      · rw [EventLoop.hungUp, upcoming, Option.bind_some, subject,
          Option.bind_some]

theorem readsFirst_handle_iff {state : Streams} {event : EpollEvent} {id : Nat}
    {client : Client} (handling : Handling state.loop event id client) :
    state.ReadsFirst (.loop .handle) ↔
      (event.isHangup = true → event.isError = false →
        client.conn.socket ≠ none → (state.stream id).faulty = false →
          (state.stream id).pending = []) := by
  rw [ReadsFirst, handling.hungUp, ← Option.isSome_iff_ne_none]
  cases event.isHangup <;> cases event.isError <;>
    cases client.conn.socket.isSome <;> simp

/-- A hangup loses what is pending, unless there was an error as well. -/
theorem Attentive.passes_closing {listenFd wakeupFd : Fd} {state : Streams}
    (attentive : state.Attentive listenFd wakeupFd) {next : EventLoop}
    {event : EpollEvent} {id : Nat} {client : Client}
    (stepped : EventLoop.machine.step state.loop .handle = some next)
    (upcoming : state.loop.nextEvent = some event)
    (subject : state.loop.subject .handle = some (id, client))
    (found : state.loop.heap id = some client)
    (closing : event.isClosed = true) :
    Passes client.conn (state.stream id) client.conn.onClosed.1
      (state.advance id client .handle)
        (¬ state.ReadsFirst (.loop .handle)) := by
  have tells := (attentive.heeded id).tells client found
  have handling := handling_of_step stepped upcoming subject
  have sound := (attentive.standing rfl handling.running).1.sound
  have alive : client.conn.socket ≠ none → client.conn.isAlive = true := by
    intro open_
    cases sound.placed id client found with
    | alive _ lives => exact lives
    | closed _ socket => exact absurd socket open_
  have reported : event.isHangup = true → (state.stream id).shut = true := by
    intro hangup
    rcases attentive.reported event handling.member hangup with
      listening | woken | ⟨other, keyed, shut⟩
    · exact absurd listening handling.other.1
    · exact absurd woken handling.other.2
    · rw [handling.keyed, Option.some.injEq] at keyed
      exact keyed ▸ shut
  have passes := onClosed_passes tells alive closing reported
  have marked : state.advance id client .handle =
      (state.stream id).mark client.conn event.isError := by
    show (state.stream id).mark client.conn
      (state.loop.nextEvent.any EpollEvent.isError) = _
    rw [upcoming]
    rfl
  have hangup : event.isError = false → event.isHangup = true := by
    intro noError
    rw [EpollEvent.isClosed, noError, Bool.or_false] at closing
    exact closing
  rw [marked]
  refine ⟨passes.tells, passes.whole,
    passes.loses.trans (or_congr_right ?_)⟩
  rw [readsFirst_handle_iff handling]
  tauto

/-- What a step makes of its connection and of the stream of the peer. -/
theorem Attentive.passes {listenFd wakeupFd : Fd} {state : Streams}
    (attentive : state.Attentive listenFd wakeupFd)
    {action : EventLoop.Action} {next : EventLoop} {id : Nat}
    {client : Client} {moved : Connection}
    (reports : state.Reports action)
    (stepped : EventLoop.machine.step state.loop action = some next)
    (subject : state.loop.subject action = some (id, client))
    (found : state.loop.heap id = some client)
    (becomes : state.loop.Becomes client action moved) :
    Passes client.conn (state.stream id) moved (state.advance id client action)
      (¬ state.ReadsFirst (.loop action)) := by
  have tells := (attentive.heeded id).tells client found
  -- A step that meets the condition anyway.
  have meets : ∀ {after : Stream}, state.ReadsFirst (.loop action) →
      Passes client.conn (state.stream id) moved after False →
        Passes client.conn (state.stream id) moved after
          (¬ state.ReadsFirst (.loop action)) := by
    intro after met passes
    refine ⟨passes.tells, passes.whole, passes.loses.trans ?_⟩
    rw [or_false, or_iff_left (not_not.2 met)]
  cases becomes with
  | closes event upcoming closing =>
      exact attentive.passes_closing stepped upcoming subject found closing
  | waits event next open_ =>
      have handling := handling_of_step stepped next subject
      rw [EpollEvent.isClosed, Bool.or_eq_false_iff] at open_
      have marked : state.advance id client .handle = state.stream id := by
        show (state.stream id).mark client.conn
          (state.loop.nextEvent.any EpollEvent.isError) = _
        rw [next, Option.any_some, open_.2, Stream.mark, Bool.and_false,
          Bool.or_false]
      rw [marked]
      refine meets ((readsFirst_handle_iff handling).2 ?_) (.refl tells)
      intro hangup
      rw [open_.1] at hangup
      cases hangup
  | reads received moved same =>
      have room : 0 < client.conn.readBuf.writableBytes := by
        cases EventLoop.step_effect stepped with
        | recv _ _ _ phase =>
            have standing := (attentive.standing phase
              fun _ same => by cases same).1
            exact standing.roomy id client found
      have gives := reports (id, client) subject
      exact meets trivial (read_passes client.parser tells room gives same)
  | writes answers flushed flush =>
      exact meets trivial
        (flushes_passes tells (Connection.flushWrite_flushes flush))
  | delivers answers pw flushed delivered =>
      exact meets trivial (delivered_passes tells delivered)
  | discards answers dead =>
      have closed : client.conn.socket = none := by
        cases EventLoop.step_effect stepped with
        | drain _ _ phase =>
            have standing := (attentive.standing phase
              fun _ same => by cases same).1
            cases standing.sound.placed id client found with
            | alive _ lives =>
                rw [dead] at lives
                cases lives
            | closed _ socket => exact socket
      have marked : state.advance id client (.drain answers) =
          state.stream id := Stream.mark_of_closed closed _
      rw [marked]
      exact meets trivial (.refl tells)

/-! ## What a step loses -/

/-- The event loop does not shut down the sending side of a peer. -/
theorem shut_follow (state : Streams) (next : EventLoop)
    (action : EventLoop.Action) (id : Nat) :
    ((state.follow next action).stream id).shut = (state.stream id).shut := by
  cases subject : state.loop.subject action with
  | none => simp only [follow, subject]
  | some entry =>
      simp only [follow, subject]
      by_cases same : id = entry.1
      · subst same
        rw [Function.update_self]
        cases action <;> rfl
      · rw [Function.update_of_ne same]

theorem Attentive.still_reported {listenFd wakeupFd : Fd} {state : Streams}
    (attentive : state.Attentive listenFd wakeupFd)
    {action : EventLoop.Action} {next : EventLoop}
    (reports : state.Reports action)
    (stepped : EventLoop.machine.step state.loop action = some next) :
    ∀ event ∈ next.phase.events, event.isHangup = true →
      event.fd = next.listenFd ∨ event.fd = next.wakeupFd ∨
        ∃ id, next.connections event.fd = some id ∧
          ((state.follow next action).stream id).shut = true := by
  intro event member hangup
  have keeps := EventLoop.step_keepsKeys stepped
  simp only [shut_follow, keeps.listenFd, keeps.wakeupFd]
  -- A key of the batch is not lost before the batch has been handled.
  have kept : ∀ id, state.loop.connections event.fd = some id →
      next.connections event.fd = some id := by
    intro id stored
    exact (keeps.stored stored).resolve_right (List.ne_nil_of_mem member)
  rcases EventLoop.step_events stepped with
    fewer | ⟨batch, waits, events, reported⟩
  · rcases attentive.reported event (fewer.subset member) hangup with
      listening | woken | ⟨id, stored, shut⟩
    · exact Or.inl listening
    · exact Or.inr (Or.inl woken)
    · exact Or.inr (Or.inr ⟨id, kept id stored, shut⟩)
  · subst waits
    have enrolled : state.loop.Enrolled := by
      cases EventLoop.step_effect stepped with
      | wait _ waiting =>
          exact (attentive.standing waiting fun _ same => by cases same).2
    rw [events] at member
    rcases reported.2 event member with ⟨mask, registered, _⟩
    have served := (enrolled event.fd).1
      (Option.isSome_iff_exists.2 ⟨mask, registered⟩)
    rcases served with own | ⟨id, client, stored, _, _⟩
    · rcases own with listening | woken
      · exact Or.inl listening
      · exact Or.inr (Or.inl woken)
    · have shut := reports event member hangup id stored
      exact Or.inr (Or.inr ⟨id, kept id stored, shut⟩)

/-- A step keeps the invariant, and loses something exactly if `loss`. -/
structure Leads (listenFd wakeupFd : Fd) (state after : Streams)
    (loss : Prop) : Prop where
  attentive : after.Attentive listenFd wakeupFd
  lost : (∃ id, after.Lost id) ↔ (∃ id, state.Lost id) ∨ loss

/-- Only one connection can have lost something. -/
theorem exists_lost_iff {state after : Streams} {id : Nat} {loss : Prop}
    (own : after.Lost id ↔ state.Lost id ∨ loss)
    (others : ∀ other, other ≠ id →
      (after.Lost other ↔ state.Lost other)) :
    (∃ other, after.Lost other) ↔
      (∃ other, state.Lost other) ∨ loss := by
  constructor
  · rintro ⟨other, lost⟩
    by_cases same : other = id
    · subst same
      exact (own.1 lost).imp_left fun lost => ⟨other, lost⟩
    · exact Or.inl ⟨other, (others other same).1 lost⟩
  · rintro (⟨other, lost⟩ | loss)
    · by_cases same : other = id
      · subst same
        exact ⟨other, own.2 (Or.inl lost)⟩
      · exact ⟨other, (others other same).2 lost⟩
    · exact ⟨id, own.2 (Or.inr loss)⟩

section

variable {state after : Streams} {id : Nat}

theorem lost_congr (heap : after.loop.heap id = state.loop.heap id)
    (nextConnId : after.loop.nextConnId = state.loop.nextConnId)
    (stream : after.stream id = state.stream id) :
    after.Lost id ↔ state.Lost id := by
  rw [Lost, Lost, EventLoop.Ended, EventLoop.Ended, heap, nextConnId, stream]

theorem Heeded.congr (heeded : state.Heeded id)
    (heap : after.loop.heap id = state.loop.heap id)
    (nextConnId : after.loop.nextConnId = state.loop.nextConnId)
    (stream : after.stream id = state.stream id) : after.Heeded id := by
  constructor
  · rw [heap, nextConnId]
    exact heeded.numbered
  · rw [heap, stream]
    exact heeded.tells
  · rw [stream]
    exact heeded.whole
  · rw [heap, stream]
    exact heeded.working

/-- A step concerns one connection and the stream of its peer only. -/
structure Touches (state after : Streams) (id : Nat) : Prop where
  heap : ∀ other, other ≠ id →
    after.loop.heap other = state.loop.heap other
  nextConnId : after.loop.nextConnId = state.loop.nextConnId
  stream : ∀ other, other ≠ id → after.stream other = state.stream other

theorem Touches.heeded (touches : Touches state after id)
    (heeded : ∀ other, state.Heeded other) (own : after.Heeded id)
    (other : Nat) : after.Heeded other := by
  by_cases same : other = id
  · exact same ▸ own
  · exact (heeded other).congr (touches.heap other same) touches.nextConnId
      (touches.stream other same)

theorem Touches.lost (touches : Touches state after id) {loss : Prop}
    (own : after.Lost id ↔ state.Lost id ∨ loss) :
    (∃ other, after.Lost other) ↔ (∃ other, state.Lost other) ∨ loss :=
  exists_lost_iff own fun other different =>
    lost_congr (touches.heap other different) touches.nextConnId
      (touches.stream other different)

end

theorem Attentive.aside {listenFd wakeupFd : Fd} {state : Streams}
    (attentive : state.Attentive listenFd wakeupFd)
    {action : EventLoop.Action} {next : EventLoop}
    (reports : state.Reports action)
    (stepped : EventLoop.machine.step state.loop action = some next)
    (nobody : state.loop.subject action = none)
    (heap : next.heap = state.loop.heap)
    (nextConnId : next.nextConnId = state.loop.nextConnId) :
    Leads listenFd wakeupFd state (state.follow next action) False := by
  have stream : (state.follow next action).stream = state.stream := by
    simp only [follow, nobody]
  constructor
  · constructor
    · exact attentive.reachable.step stepped
    · exact fun id => (attentive.heeded id).congr (congrFun heap id) nextConnId
        (congrFun stream id)
    · exact attentive.still_reported reports stepped
  · rw [or_false]
    exact exists_congr fun id =>
      lost_congr (congrFun heap id) nextConnId (congrFun stream id)

theorem Attentive.changes {listenFd wakeupFd : Fd} {state : Streams}
    (attentive : state.Attentive listenFd wakeupFd)
    {action : EventLoop.Action} {next : EventLoop} {id : Nat}
    {client moved : Client} (reports : state.Reports action)
    (stepped : EventLoop.machine.step state.loop action = some next)
    (subject : state.loop.subject action = some (id, client))
    (found : state.loop.heap id = some client)
    (replaces : EventLoop.Replaces state.loop next id moved)
    (becomes : state.loop.Becomes client action moved.conn) :
    Leads listenFd wakeupFd state (state.follow next action)
      (¬ state.ReadsFirst (.loop action)) := by
  have passes := attentive.passes reports stepped subject found becomes
  have heeded := attentive.heeded id
  have stored : (state.follow next action).loop.heap id = some moved :=
    replaces.heap_self
  have own : (state.follow next action).stream id =
      state.advance id client action := by
    simp only [follow, subject, Function.update_self]
  have touches : Touches state (state.follow next action) id := by
    refine ⟨fun other => replaces.heap_of_ne, replaces.nextConnId, ?_⟩
    intro other different
    simp only [follow, subject, Function.update_of_ne different]
  have kept : (state.follow next action).Heeded id := by
    constructor
    · intro _
      rw [touches.nextConnId]
      apply heeded.numbered
      rw [found]
      exact Option.some_ne_none _
    · intro entry known
      rw [stored, Option.some.injEq] at known
      rw [← known, own]
      exact passes.tells
    · rw [own]
      exact passes.whole heeded.whole
    · intro absent
      rw [stored] at absent
      cases absent
  constructor
  · constructor
    · exact attentive.reachable.step stepped
    · exact touches.heeded attentive.heeded kept
    · exact attentive.still_reported reports stepped
  · apply touches.lost
    rw [kept.lost_iff stored, heeded.lost_iff found, own]
    exact passes.loses

/-- Accepted clients have nothing to be told yet. -/
theorem Attentive.acceptAll {listenFd wakeupFd : Fd} {state : Streams}
    (attentive : state.Attentive listenFd wakeupFd) {clients : List Fd}
    {last : EventLoop.Refusal} {next : EventLoop}
    (stepped : EventLoop.machine.step state.loop (.accept clients last) =
      some next) :
    (state.follow next (.accept clients last)).Attentive listenFd wakeupFd := by
  have reports : state.Reports (.accept clients last) := trivial
  have reported := attentive.still_reported reports stepped
  have reachable := attentive.reachable.step stepped
  cases EventLoop.step_effect stepped with
  | accept _ _ event rest phase _ next accepted =>
      have sound :=
        (attentive.standing phase fun _ same => by cases same).1.sound
      refine ⟨reachable, fun id => ?_, reported⟩
      constructor
      case numbered =>
        intro known
        exact (sound.acceptAll accepted).numbered id
          (Option.isSome_iff_ne_none.2 known)
      case whole => exact (attentive.heeded id).whole
      case tells =>
        intro client found
        rcases EventLoop.acceptAll_opened sound accepted found with
          kept | ⟨_, fd, made⟩
        · exact (attentive.heeded id).tells client kept
        · rw [made]
          exact ⟨rfl, fun closed => by cases closed⟩
      case working =>
        intro absent
        apply (attentive.heeded id).working
        rcases EventLoop.acceptAll_new sound accepted id with
          kept | ⟨before, _⟩
        · exact kept ▸ absent
        · exact before

/-- An accepted client that is dropped has lost what it has sent before. -/
theorem Attentive.accepts {listenFd wakeupFd : Fd} {state : Streams}
    (attentive : state.Attentive listenFd wakeupFd) {clients : List Fd}
    {last : EventLoop.Refusal} {next : EventLoop}
    (stepped : EventLoop.machine.step state.loop (.accept clients last) =
      some next) :
    Leads listenFd wakeupFd state (state.follow next (.accept clients last))
      (¬ state.ReadsFirst (.loop (.accept clients last))) := by
  refine ⟨attentive.acceptAll stepped, ?_⟩
  cases EventLoop.step_effect stepped with
  | accept _ _ event rest phase _ next accepted =>
      have sound :=
        (attentive.standing phase fun _ same => by cases same).1.sound
      have counted := EventLoop.acceptAll_counted accepted
      have unborn : ∀ index,
          state.loop.heap (state.loop.nextConnId + index) = none :=
        fun index => sound.unborn (Nat.le_add_right _ index)
      constructor
      · rintro ⟨id, ⟨bounded, ended⟩, working, pending⟩
        have bounded : id < state.loop.nextConnId + clients.length :=
          counted ▸ bounded
        by_cases older : id < state.loop.nextConnId
        · refine Or.inl ⟨id, ⟨older, ?_⟩, working, pending⟩
          rw [← EventLoop.acceptAll_heap accepted older]
          exact ended
        · refine Or.inr fun reads => pending ?_
          rcases Nat.exists_eq_add_of_le (Nat.le_of_not_lt older) with
            ⟨index, rfl⟩
          have listed := List.getElem?_eq_getElem
            (Nat.add_lt_add_iff_left.1 bounded)
          -- A client that has a connection is open.
          have dropped : next.heap (state.loop.nextConnId + index) = none := by
            by_contra present
            rcases Option.ne_none_iff_exists'.1 present with ⟨client, found⟩
            have closed := ended client found
            rcases EventLoop.acceptAll_opened sound accepted found with
              kept | ⟨_, fd, made⟩
            · rw [unborn] at kept
              cases kept
            · rw [made] at closed
              cases closed
          exact reads (clients[index], index)
            (List.mk_mem_zipIdx_iff_getElem?.2 listed)
            ((EventLoop.acceptAll_dropped sound accepted listed).1 dropped)
      · rintro (⟨id, ⟨older, ended⟩, lost⟩ | missed)
        · refine ⟨id, ⟨counted.symm ▸ Nat.lt_add_right _ older, ?_⟩,
            lost⟩
          show ∀ client ∈ next.heap id, client.conn.socket = none
          rw [EventLoop.acceptAll_heap accepted older]
          exact ended
        · simp only [ReadsFirst, not_forall] at missed
          rcases missed with ⟨⟨fd, index⟩, member, taken, pending⟩
          have listed := List.mk_mem_zipIdx_iff_getElem?.1 member
          have dropped :=
            (EventLoop.acceptAll_dropped sound accepted listed).2 taken
          refine ⟨state.loop.nextConnId + index, ⟨?_, ?_⟩, ?_, pending⟩
          · rcases List.getElem?_eq_some_iff.1 listed with ⟨inside, _⟩
            exact counted.symm ▸ Nat.add_lt_add_left inside _
          · intro client found
            have found : next.heap (state.loop.nextConnId + index) =
                some client := found
            rw [dropped] at found
            cases found
          · exact (attentive.heeded _).working (unborn index)

/-- A peer does something, which the event loop does not see. -/
theorem Attentive.peer {listenFd wakeupFd : Fd} {state : Streams}
    (attentive : state.Attentive listenFd wakeupFd) {id : Nat}
    {stream : Stream} {loss : Prop}
    (shut : (state.stream id).shut = true → stream.shut = true)
    (faulty : stream.faulty = (state.stream id).faulty)
    (whole : (state.stream id).Whole → stream.Whole)
    (own : state.loop.Ended id ∧ stream.faulty = false ∧
      stream.pending ≠ [] ↔ state.Lost id ∨ loss) :
    Leads listenFd wakeupFd state
      { state with stream := Function.update state.stream id stream } loss := by
  let after : Streams :=
    { state with stream := Function.update state.stream id stream }
  have itself : after.stream id = stream := Function.update_self ..
  have touches : Touches state after id := by
    refine ⟨fun _ _ => rfl, rfl, fun other different => ?_⟩
    exact Function.update_of_ne different _ _
  have shuts : ∀ other, (state.stream other).shut = true →
      (after.stream other).shut = true := by
    intro other
    by_cases same : other = id
    · rw [same, itself]
      exact shut
    · rw [touches.stream other same]
      exact fun told => told
  have heeded := attentive.heeded id
  have kept : after.Heeded id := by
    constructor
    · exact heeded.numbered
    · intro client found
      have tells := heeded.tells client found
      refine ⟨tells.consumed, fun closed working => ?_⟩
      rw [itself] at working ⊢
      exact shut (tells.told closed (faulty ▸ working))
    · rw [itself]
      exact whole heeded.whole
    · intro absent
      rw [itself, faulty]
      exact heeded.working absent
  constructor
  · refine ⟨attentive.reachable, touches.heeded attentive.heeded kept, ?_⟩
    intro event member hangup
    refine (attentive.reported event member hangup).imp_right ?_
    refine Or.imp_right ?_
    rintro ⟨other, stored, told⟩
    exact ⟨other, stored, shuts other told⟩
  · apply touches.lost
    show state.loop.Ended id ∧ (after.stream id).faulty = false ∧
      (after.stream id).pending ≠ [] ↔ _
    rw [itself]
    exact own

/-- What every step does. -/
theorem Attentive.step {listenFd wakeupFd : Fd} {state after : Streams}
    (attentive : state.Attentive listenFd wakeupFd) {action : Action}
    (stepped : machine.step state action = some after) :
    Leads listenFd wakeupFd state after (¬ state.ReadsFirst action) := by
  have ran : Streams.step state action = some after := stepped
  cases action with
  | send id bytes =>
      simp only [Streams.step] at ran
      split_ifs at ran
      cases ran
      refine attentive.peer (fun told => told) rfl ?_ ?_
      · intro whole
        show (state.stream id).shown ++ ((state.stream id).pending ++ bytes) = _
        rw [← List.append_assoc, whole]
        rfl
      · show _ ∧ _ ∧ (state.stream id).pending ++ bytes ≠ [] ↔ _
        rw [Lost, ReadsFirst, Ne, List.append_eq_nil_iff]
        tauto
  | shutdown id =>
      cases ran
      refine attentive.peer (fun _ => rfl) rfl (fun whole => whole) ?_
      exact (or_iff_left (not_not.2 trivial)).symm
  | loop action =>
      simp only [Streams.step] at ran
      split_ifs at ran with reports
      rcases Option.map_eq_some_iff.1 ran with ⟨next, moves, rfl⟩
      by_cases accepts : ∃ clients last, action = .accept clients last
      · rcases accepts with ⟨clients, last, rfl⟩
        exact attentive.accepts moves
      · have other : ∀ clients last, action ≠ .accept clients last :=
          fun clients last same => accepts ⟨clients, last, same⟩
        cases EventLoop.step_works other moves with
        | changes id client moved subject found replaces becomes =>
            exact attentive.changes reports moves subject found replaces
              becomes
        | aside nobody heap nextConnId =>
            have leads :=
              attentive.aside reports moves nobody heap nextConnId
            have reads := readsFirst_of_aside other nobody
            refine ⟨leads.attentive, leads.lost.trans ?_⟩
            exact or_congr_right (iff_of_false id (not_not.2 reads))

/-- What has been lost stays so. -/
theorem Attentive.still_lost {listenFd wakeupFd : Fd} {state after : Streams}
    (attentive : state.Attentive listenFd wakeupFd) {action : Action}
    (stepped : machine.step state action = some after)
    (lost : ∃ id, state.Lost id) : ∃ id, after.Lost id :=
  (attentive.step stepped).lost.2 (Or.inl lost)

/--
Whatever the peers send and however it is reported, the read callback has been
shown all of it when a connection is closed exactly if everything has been
read by the time a hangup is handled and no client is dropped with it.
-/
theorem heard_iff_readsFirst {listenFd wakeupFd : Fd} {actions : List Action}
    {state : Streams}
    (ran : machine.run (start listenFd wakeupFd) actions = some state) :
    state.Heard ↔
      machine.Guarded ReadsFirst (start listenFd wakeupFd) actions := by
  let failed : Streams → Prop := fun state =>
    state.Attentive listenFd wakeupFd ∧ ∃ id, state.Lost id
  have attentive : state.Attentive listenFd wakeupFd :=
    Machine.Reachable.invariant ⟨actions, ran⟩
      (fun _ _ _ kept stepped => (kept.step stepped).attentive)
      (start_attentive listenFd wakeupFd)
  have initially : ¬ failed (start listenFd wakeupFd) := by
    rintro ⟨_, id, ended, _⟩
    exact Nat.not_lt_zero _ ended.1
  have agrees : ¬ failed state ↔
      machine.Guarded ReadsFirst (start listenFd wakeupFd) actions := by
    refine Machine.not_failed_iff_guarded ?_ ?_ ?_
      (start_attentive listenFd wakeupFd) initially ran
    · intro before action after kept works stepped
      have leads := kept.step stepped
      have unlost : ¬ ∃ id, before.Lost id :=
        fun lost => works ⟨kept, lost⟩
      have loses : failed after ↔ ∃ id, after.Lost id :=
        and_iff_right leads.attentive
      rw [loses, leads.lost, or_iff_right unlost]
    · intro before action after kept _ stepped _
      exact (kept.step stepped).attentive
    · rintro before action after ⟨kept, lost⟩ stepped
      exact ⟨(kept.step stepped).attentive, kept.still_lost stepped lost⟩
  rw [attentive.heard_iff, ← agrees, not_congr (and_iff_right attentive)]

/-- A client is accepted and sends two bytes. -/
def greeting : List Action :=
  [.loop (.wait [EventLoop.readable 3]), .loop (.accept [6] .again),
    .loop .reap, .send 0 (text "GE")]

/-- The bytes are reported before the peer shuts down. -/
def apart : List Action :=
  greeting ++
    [.loop (.wait [EventLoop.readable 6]), .loop .handle,
      .loop (.recv (.data 71 [69])), .shutdown 0, .loop (.recv .eof)]

/-- `EPOLLIN` and `EPOLLRDHUP` come in one event. -/
def together : List Action :=
  greeting ++
    [.shutdown 0,
      .loop (.wait [{ events := { input := true, rdhup := true }, fd := 6 }]),
      .loop .handle]

theorem heard_iff_readsFirst_apart :
    ∃ state, machine.run (start 3 5) apart = some state ∧
      state.loop.Ended 0 ∧ (state.stream 0).shown = text "GE" ∧
        state.Heard := by
  have finishes : ∃ state, machine.run (start 3 5) apart = some state ∧
      (decide (state.loop.Ended 0), (state.stream 0).shown) =
        (true, text "GE") :=
    Option.map_eq_some_iff.1 (by decide)
  rcases finishes with ⟨state, ran, same⟩
  rw [Prod.mk.injEq, decide_eq_true_iff] at same
  have guarded : machine.Guarded ReadsFirst (start 3 5) apart := by
    decide
  exact ⟨state, ran, same.1, same.2, (heard_iff_readsFirst ran).2 guarded⟩

/-- What the callback sees depends on how the same bytes are reported. -/
theorem heard_together :
    (¬ ∀ listenFd wakeupFd actions state,
        machine.run (start listenFd wakeupFd) actions = some state →
          state.Heard) ∧
      ∃ one two, machine.run (start 3 5) apart = some one ∧
        machine.run (start 3 5) together = some two ∧
          one.loop.Ended 0 ∧ two.loop.Ended 0 ∧
            (one.stream 0).faulty = false ∧ (two.stream 0).faulty = false ∧
              (one.stream 0).sent = (two.stream 0).sent ∧
                (one.stream 0).shown = text "GE" ∧
                  (two.stream 0).shown = [] := by
  let told : Streams → Bool × Bool × Bytes × Bytes := fun state =>
    (decide (state.loop.Ended 0), (state.stream 0).faulty,
      (state.stream 0).sent, (state.stream 0).shown)
  have first : ∃ state, machine.run (start 3 5) apart = some state ∧
      told state = (true, false, text "GE", text "GE") :=
    Option.map_eq_some_iff.1 (by decide)
  have second : ∃ state, machine.run (start 3 5) together = some state ∧
      told state = (true, false, text "GE", []) :=
    Option.map_eq_some_iff.1 (by decide)
  rcases first with ⟨one, ran, same⟩
  rcases second with ⟨two, ran', same'⟩
  simp only [told, Prod.mk.injEq, decide_eq_true_iff] at same same'
  rcases same with ⟨ended, faulty, sent, shown⟩
  rcases same' with ⟨ended', faulty', sent', shown'⟩
  constructor
  · intro heard
    have all := heard 3 5 together two ran' 0 ended' faulty'
    rw [sent', shown'] at all
    cases all
  · exact ⟨one, two, ran, ran', ended, ended', faulty, faulty',
      sent.trans sent'.symm, shown, shown'⟩

end Streams

end Cppws.App
