import Cppws.App.Answering
import Cppws.App.PeerStream
import Cppws.App.Provenance

/-!
# What a kernel socket carries

The bytes that go out on the kernel socket of a connection are those of the
responses that were posted to it, in the order in which they were posted, as
long as `drain_pending_writes` takes out a response only when the file of the
one before has been sent.
-/

namespace Cppws.App

open Cppws.Core
open Cppws.Http (Bytes)
open Cppws.Net

/-! ## Flushing -/

/-- An open connection that a flush closes holds no socket. -/
theorem flushes_moves {conn : Connection} {answers : List Answer}
    {flushed : Connection.Flushed} (alive : conn.isAlive = true)
    (flushes : Connection.Flushes conn answers flushed) :
    wire flushed.calls <+: conn.unsent ∧
      (flushed.conn.socket ≠ none →
        wire flushed.calls ++ flushed.conn.unsent = conn.unsent) := by
  cases flushes with
  | opened _ _ _ _ _ _ _ _ output =>
      exact ⟨⟨_, output⟩, fun _ => output⟩
  | shut _ _ _ last owner closed _ output =>
      refine ⟨output, fun open_ => absurd ?_ open_⟩
      have notClosed : last.state ≠ .closed := by
        rw [owner.state]
        simpa [Connection.isAlive] using alive
      rw [closed, Connection.onClosed, if_neg notClosed]

/-- What handing over adds when nothing is left of the file before. -/
theorem unsent_of_file_sent (pw : PendingWrite) {conn : Connection}
    (sent : conn.unsentFile = []) :
    (pw.handedOver conn).unsent = conn.unsent ++ pw.bytes := by
  unfold Connection.unsent
  rw [PendingWrite.readable_handedOver, sent, List.append_nil,
    List.append_assoc, PendingWrite.bytes, PendingWrite.body,
    PendingWrite.handedOver]
  cases pw.fileFd with
  | none =>
      have same : (conn.enqueueWrite pw.data).unsentFile = conn.unsentFile :=
        rfl
      simp only [same, sent]
  | some file => rfl

theorem alive_of_socket {loop : EventLoop} (sound : loop.Sound) {id : Nat}
    {client : Client} (found : loop.heap id = some client)
    (socket : client.conn.socket ≠ none) : client.conn.isAlive = true := by
  cases sound.placed id client found with
  | alive fd lives => exact lives
  | closed _ none => exact absurd none socket

/-! ## Connections and their kernel sockets -/

section Homed

variable {loop : EventLoop} {home : Nat → Option Nat} {id : Nat}

theorem client_of_home (homed : loop.Homed home) {socket : Nat}
    (held : home id = some socket) :
    ∃ client, loop.heap id = some client := by
  have known := homed.known id
  rw [held, Option.isSome_some] at known
  exact Option.isSome_iff_exists.1 known.symm

theorem home_of_client (homed : loop.Homed home) {client : Client}
    (found : loop.heap id = some client) :
    ∃ socket, home id = some socket := by
  have known := homed.known id
  rw [found, Option.isSome_some] at known
  exact Option.isSome_iff_exists.1 known

theorem home_eq_none_iff (homed : loop.Homed home) :
    home id = none ↔ loop.heap id = none := by
  rw [← Option.not_isSome_iff_eq_none, ← Option.not_isSome_iff_eq_none,
    homed.known id]

end Homed

/-- No open connection has more or less to send than before. -/
def Still (before after : EventLoop) : Prop :=
  ∀ id moved, after.heap id = some moved → moved.conn.socket ≠ none →
    ∃ client, before.heap id = some client ∧ client.conn.socket ≠ none ∧
      moved.conn.unsent = client.conn.unsent

theorem Still.of_heap {before after : EventLoop}
    (heap : after.heap = before.heap) : Still before after := by
  intro id moved found socket
  rw [heap] at found
  exact ⟨moved, found, socket, rfl⟩

theorem Still.of_update {before after : EventLoop} {id : Nat}
    {client moved : Client} (found : before.heap id = some client)
    (heap : after.heap = Function.update before.heap id (some moved))
    (same : moved.conn.socket ≠ none →
      client.conn.socket ≠ none ∧ moved.conn.unsent = client.conn.unsent) :
    Still before after := by
  intro other entry known socket
  rw [heap] at known
  by_cases here : other = id
  · rw [here, Function.update_self, Option.some.injEq] at known
    rw [here]
    exact ⟨client, found, known ▸ same (known ▸ socket)⟩
  · rw [Function.update_of_ne here] at known
    exact ⟨entry, known, socket, rfl⟩

theorem onClosed_still {conn : Connection}
    (open_ : conn.onClosed.1.socket ≠ none) :
    conn.socket ≠ none ∧ conn.onClosed.1.unsent = conn.unsent := by
  unfold Connection.onClosed at open_ ⊢
  split_ifs at open_ ⊢
  · exact ⟨open_, rfl⟩
  · exact absurd rfl open_

/-- Events and reading leave what is to be sent alone. -/
theorem Still.step {before after : EventLoop} {action : EventLoop.Action}
    (stepped : EventLoop.machine.step before action = some after)
    (accepting : ∀ clients last, action ≠ .accept clients last)
    (writing : ∀ answers, action ≠ .write answers)
    (draining : ∀ answers, action ≠ .drain answers) :
    Still before after := by
  cases EventLoop.step_effect stepped with
  | wait | reap | stop => exact .of_heap rfl
  | accept clients last => exact absurd rfl (accepting clients last)
  | handle event rest _ _ _ handles =>
      cases handles with
      | closes id client keyed found closed =>
          exact .of_update found rfl onClosed_still
      | wakeup | stale | reads | writes | ignores => exact .of_heap rfl
  | recv received event rest _ id client _ found _ reads =>
      cases reads with
      | more | posts | submits | blocked =>
          exact .of_update found rfl fun open_ => ⟨open_, rfl⟩
      | closes last readBuf read =>
          subst read
          exact .of_update found rfl onClosed_still
  | write answers => exact absurd rfl (writing answers)
  | drain answers => exact absurd rfl (draining answers)
  | work index response _ finishes =>
      cases finishes <;> exact .of_heap rfl

theorem Still.recv {before after : EventLoop} {received : Received}
    (stepped : EventLoop.machine.step before (.recv received) = some after) :
    Still before after := by
  apply Still.step stepped
  · intro _ _ same
    cases same
  · intro _ same
    cases same
  · intro _ same
    cases same

theorem Still.work {before after : EventLoop} {index : Nat}
    {response : Option PendingWrite}
    (stepped : EventLoop.machine.step before (.work index response) =
      some after) : Still before after := by
  apply Still.step stepped
  · intro _ _ same
    cases same
  · intro _ same
    cases same
  · intro _ same
    cases same

/-- The event loop goes on from a sound state. -/
theorem sound_of_own {before after : EventLoop} {action : EventLoop.Action}
    (standing : before.Sound ∨ before.ModifyThrew)
    (stepped : EventLoop.machine.step before action = some after)
    (own : (∃ answers, action = .write answers) ∨
      (∃ answers, action = .drain answers) ∨
        ∃ clients last, action = .accept clients last) : before.Sound := by
  apply Trace.sound_of_moved standing stepped
  · rcases own with ⟨_, rfl⟩ | ⟨_, rfl⟩ | ⟨_, _, rfl⟩ <;>
      (intro _ _ same; cases same)
  · rcases own with ⟨_, rfl⟩ | ⟨_, rfl⟩ | ⟨_, _, rfl⟩ <;>
      (intro same; cases same)

namespace Trace

/-! ## Responses in their order -/

/-- The responses that were posted to a connection. -/
def postedTo (trace : Trace) (id : Nat) : List Pushed :=
  trace.pushed.filter fun entry => entry.pw.conn = some id

/-- Those that were taken out of the queue again. -/
def takenTo (trace : Trace) (id : Nat) : List Pushed :=
  (trace.taken.map Taken.entry).filter fun entry => entry.pw.conn = some id

theorem takenTo_prefix (trace : Trace) (id : Nat) :
    trace.takenTo id <+: trace.postedTo id := by
  rw [postedTo, pushed, List.filter_append]
  exact List.prefix_append _ _

/-- A response is taken out when nothing is left of the file before it. -/
def FileSent (trace : Trace) : EventLoop.Action → Prop
  | .drain _ => ∀ entry ∈ trace.waiting.head?,
      ∀ found ∈ trace.loop.deref entry.pw.conn,
        found.2.conn.isAlive = true → found.2.conn.unsentFile = []
  | _ => True

instance (trace : Trace) : ∀ action, Decidable (trace.FileSent action)
  | .drain _ =>
      inferInstanceAs (Decidable (∀ entry ∈ trace.waiting.head?,
        ∀ found ∈ trace.loop.deref entry.pw.conn,
          found.2.conn.isAlive = true → found.2.conn.unsentFile = []))
  | .wait _ | .accept _ _ | .handle | .recv _ | .write _ | .reap | .work _ _
  | .stop => inferInstanceAs (Decidable True)

/-- The bytes of some responses. -/
def bytesOf (entries : List Pushed) : Bytes :=
  entries.flatMap fun entry => entry.pw.bytes

/-- What went out are the responses, and an open connection has the rest. -/
structure Flowing (trace : Trace) : Prop where
  /-- Only connections that were accepted are posted to. -/
  known : ∀ entry ∈ trace.pushed, ∀ id, entry.pw.conn = some id →
    trace.home id ≠ none
  begins : ∀ id socket, trace.home id = some socket →
    trace.handedTo socket <+: trace.takenTo id ∧
      wire (trace.calls socket) <+: bytesOf (trace.handedTo socket)
  holds : ∀ id client socket, trace.loop.heap id = some client →
    trace.home id = some socket → client.conn.socket ≠ none →
      trace.handedTo socket = trace.takenTo id ∧
        wire (trace.calls socket) ++ client.conn.unsent =
          bytesOf (trace.handedTo socket)

theorem start_flowing (listenFd wakeupFd : Fd) :
    (start listenFd wakeupFd).Flowing := by
  constructor
  · intro entry member
    cases member
  · intro id socket held
    cases held
  · intro id client socket found
    cases found

theorem takenTo_of_taken {before after : Trace}
    (taken : after.taken = before.taken) (id : Nat) :
    after.takenTo id = before.takenTo id := by
  rw [takenTo, takenTo, taken]

theorem handedTo_of_taken {before after : Trace}
    (taken : after.taken = before.taken) (socket : Nat) :
    after.handedTo socket = before.handedTo socket := by
  rw [handedTo, handedTo, taken]

/-- Nothing is sent and nothing is taken out of the queue. -/
theorem Flowing.still {before after : Trace} (flowing : before.Flowing)
    (still : Still before.loop after.loop) (home : after.home = before.home)
    (calls : after.calls = before.calls) (taken : after.taken = before.taken)
    (known : ∀ entry ∈ after.pushed, ∀ id, entry.pw.conn = some id →
      before.home id ≠ none) : after.Flowing := by
  constructor
  · rw [home]
    exact known
  · intro id socket held
    rw [home] at held
    rw [calls, takenTo_of_taken taken, handedTo_of_taken taken]
    exact flowing.begins id socket held
  · intro id moved socket found held open_
    rcases still id moved found open_ with ⟨client, known, socketed, unsent⟩
    rw [home] at held
    rw [calls, takenTo_of_taken taken, handedTo_of_taken taken, unsent]
    exact flowing.holds id client socket known held socketed

/-- Connections are accepted, each on a kernel socket nobody has used. -/
theorem Flowing.accepts {before after : Trace} (flowing : before.Flowing)
    (settled : before.Settled) (carried : before.Carried)
    (sound : before.loop.Sound) {clients : List Fd} {next : EventLoop}
    (accepted : before.loop.acceptAll clients = some next)
    (heap : after.loop.heap = next.heap)
    (homed : after.loop.Homed after.home)
    (extends_ : EventLoop.Extends before.home after.home)
    (calls : after.calls = before.calls) (taken : after.taken = before.taken)
    (pushed : after.pushed = before.pushed) : after.Flowing := by
  -- A kernel socket is that of an old connection, or nobody has used it.
  have cases_ : ∀ id socket, after.home id = some socket →
      before.home id = some socket ∨
        before.loop.heap id = none ∧ before.takenTo id = [] ∧
          before.calls socket = [] ∧ before.handedTo socket = [] := by
    intro id socket held
    cases old : before.home id with
    | some own =>
        rw [extends_ id own old] at held
        exact Or.inl held
    | none =>
        have unowned : ∀ other, before.home other ≠ some socket := by
          intro other theirs
          have same := homed.own other id socket
            (extends_ other socket theirs) held
          rw [same, old] at theirs
          cases theirs
        rcases carried.unowned socket unowned with ⟨noCalls, nothing⟩
        refine Or.inr ⟨?_, ?_, noCalls, nothing⟩
        · exact (home_eq_none_iff settled.homed).1 old
        · rw [takenTo, List.filter_eq_nil_iff]
          intro entry member named
          have among : entry ∈ before.pushed := List.mem_append_left _ member
          exact flowing.known entry among id (of_decide_eq_true named) old
  constructor
  · intro entry member id named
    rw [pushed] at member
    rcases Option.ne_none_iff_exists'.1 (flowing.known entry member id named)
      with ⟨own, held⟩
    rw [extends_ id own held]
    exact nofun
  · intro id socket held
    rw [calls, takenTo_of_taken taken, handedTo_of_taken taken]
    rcases cases_ id socket held with old | ⟨_, _, noCalls, nothing⟩
    · exact flowing.begins id socket old
    · rw [noCalls, nothing]
      exact ⟨List.nil_prefix, List.nil_prefix⟩
  · intro id client socket found held open_
    rw [heap] at found
    rw [calls, takenTo_of_taken taken, handedTo_of_taken taken]
    rcases cases_ id socket held with
      old | ⟨absent, untaken, noCalls, nothing⟩
    · rcases EventLoop.acceptAll_new sound accepted id with
        kept | ⟨absent, _⟩
      · rw [kept] at found
        exact flowing.holds id client socket found old open_
      · rw [(home_eq_none_iff settled.homed).2 absent] at old
        cases old
    · rcases EventLoop.acceptAll_new sound accepted id with
        kept | ⟨_, new, found', _, _, fd, conn⟩
      · rw [kept, absent] at found
        cases found
      · rw [found, Option.some.injEq] at found'
        rw [noCalls, nothing, untaken, found', conn]
        exact ⟨rfl, rfl⟩

/-- A flush for an open connection that may have been handed a response. -/
theorem Flowing.sends {before after : Trace} (flowing : before.Flowing)
    (settled : before.Settled) {id socket : Nat} {client moved : Client}
    {begun : Connection} {calls : List Call} (more : List Pushed)
    (found : before.loop.heap id = some client)
    (held : before.home id = some socket)
    (open_ : client.conn.socket ≠ none)
    (unsent : begun.unsent = client.conn.unsent ++ bytesOf more)
    (moves : wire calls <+: begun.unsent ∧
      (moved.conn.socket ≠ none →
        wire calls ++ moved.conn.unsent = begun.unsent))
    (heap : after.loop.heap =
      Function.update before.loop.heap id (some moved))
    (home : after.home = before.home)
    (noted : after.calls =
      Function.update before.calls socket (before.calls socket ++ calls))
    (handed : ∀ other, after.handedTo other =
      before.handedTo other ++ if other = socket then more else [])
    (taken : ∀ other, after.takenTo other =
      before.takenTo other ++ if other = id then more else [])
    (pushed : after.pushed = before.pushed) : after.Flowing := by
  rcases flowing.holds id client socket found held open_ with ⟨same, whole⟩
  have foreign : ∀ other own, other ≠ id →
      before.home other = some own → own ≠ socket := by
    rintro other own different theirs rfl
    exact different (settled.homed.own other id own theirs held)
  have callsHere : after.calls socket = before.calls socket ++ calls := by
    rw [noted, Function.update_self]
  have handedHere : after.handedTo socket = before.handedTo socket ++ more := by
    rw [handed, if_pos rfl]
  have takenHere : after.takenTo id = before.takenTo id ++ more := by
    rw [taken, if_pos rfl]
  have elsewhere : ∀ other own, other ≠ id →
      before.home other = some own →
      after.calls own = before.calls own ∧
        after.handedTo own = before.handedTo own ∧
          after.takenTo other = before.takenTo other := by
    intro other own different theirs
    have apart := foreign other own different theirs
    refine ⟨?_, ?_, ?_⟩
    · rw [noted, Function.update_of_ne apart]
    · rw [handed, if_neg apart, List.append_nil]
    · rw [taken, if_neg different, List.append_nil]
  have all : bytesOf (before.handedTo socket ++ more) =
      wire (before.calls socket) ++ begun.unsent := by
    rw [unsent, ← List.append_assoc, whole]
    exact List.flatMap_append
  constructor
  · rw [pushed, home]
    exact flowing.known
  · intro other own theirs
    rw [home] at theirs
    by_cases here : other = id
    · rw [here, held, Option.some.injEq] at theirs
      rw [here, ← theirs, handedHere, takenHere, callsHere, wire_append, all,
        same]
      exact ⟨List.prefix_refl _, (List.prefix_append_right_inj _).2 moves.1⟩
    · rcases elsewhere other own here theirs with ⟨calls, handed, taken⟩
      rw [calls, handed, taken]
      exact flowing.begins other own theirs
  · intro other entry own known theirs socketed
    rw [heap] at known
    rw [home] at theirs
    by_cases here : other = id
    · rw [here, Function.update_self, Option.some.injEq] at known
      rw [here, held, Option.some.injEq] at theirs
      rw [here, ← theirs, handedHere, takenHere, callsHere, wire_append, all,
        same, List.append_assoc, ← known, moves.2 (known ▸ socketed)]
      exact ⟨rfl, rfl⟩
    · rw [Function.update_of_ne here] at known
      rcases elsewhere other own here theirs with ⟨calls, handed, taken⟩
      rw [calls, handed, taken]
      exact flowing.holds other entry own known theirs socketed

/-- A response is dropped because its connection is closed. -/
theorem Flowing.discards {before after : Trace} (flowing : before.Flowing)
    (entry : Pushed) (home : after.home = before.home)
    (heap : after.loop.heap = before.loop.heap)
    (calls : after.calls = before.calls)
    (handed : ∀ socket, after.handedTo socket = before.handedTo socket)
    (taken : ∀ id, after.takenTo id = before.takenTo id ++
      if entry.pw.conn = some id then [entry] else [])
    (pushed : after.pushed = before.pushed)
    (gone : ∀ id client, entry.pw.conn = some id →
      before.loop.heap id = some client → client.conn.socket = none) :
    after.Flowing := by
  constructor
  · rw [pushed, home]
    exact flowing.known
  · intro id socket held
    rw [home] at held
    rw [calls, handed, taken]
    rcases flowing.begins id socket held with ⟨handed, sent⟩
    exact ⟨handed.trans (List.prefix_append _ _), sent⟩
  · intro id client socket found held open_
    rw [heap] at found
    rw [home] at held
    have other : entry.pw.conn ≠ some id := fun named =>
      open_ (gone id client named found)
    rw [calls, handed, taken, if_neg other, List.append_nil]
    exact flowing.holds id client socket found held open_

theorem takenTo_append {before after : Trace} {taken : Taken}
    {entry : Pushed} (took : after.taken = before.taken ++ [taken])
    (same : taken.entry = entry) (id : Nat) :
    after.takenTo id = before.takenTo id ++
      if entry.pw.conn = some id then [entry] else [] := by
  rw [takenTo, took, List.map_append, List.filter_append, takenTo,
    List.map_singleton, same, List.filter_singleton]
  by_cases named : entry.pw.conn = some id <;> simp [named]

theorem takenTo_append_of_named {before after : Trace} {taken : Taken}
    {entry : Pushed} {id : Nat} (took : after.taken = before.taken ++ [taken])
    (same : taken.entry = entry) (named : entry.pw.conn = some id)
    (other : Nat) :
    after.takenTo other = before.takenTo other ++
      if other = id then [entry] else [] := by
  rw [takenTo_append took same, named]
  by_cases here : other = id
  · rw [if_pos here, here, if_pos rfl]
  · rw [if_neg here, if_neg fun same => here (Option.some.inj same).symm]

theorem handedTo_append {before after : Trace} {entry : Pushed} {own : Nat}
    (took : after.taken = before.taken ++ [.handed entry (some own)])
    (other : Nat) :
    after.handedTo other = before.handedTo other ++
      if other = own then [entry] else [] := by
  rw [handedTo, took, List.filterMap_append, handedTo]
  by_cases here : other = own
  · simp [Taken.handedTo, here]
  · simp [Taken.handedTo, here, Ne.symm here]

/-- A connection that is posted to has a kernel socket of its own. -/
theorem home_of_received {before : Trace} (settled : before.Settled) {id : Nat}
    {client : Client} {received : Received} {dispatch : Dispatch}
    (current : before.loop.currentClient = some (id, client))
    (asks : client.dispatch received = some dispatch) :
    before.home id ≠ none :=
  (settled.homed.kernelSocket (found_of_current current)
    (Client.socket_of_dispatch asks)).2

/-- A parse error is answered with one response. -/
theorem pushed_refused {before : Trace} {next : EventLoop} {id : Nat}
    {data : Bytes} (client : Client) (recorded : before.Recorded)
    (asked : before.loop.Asked id (some (.postResponse data)) next) :
    ∃ entry : Pushed, entry.pw = { conn := some id, data := data } ∧
      (before.received next id client (.postResponse data)).pushed =
        before.pushed ++ [entry] := by
  cases asked with
  | nothing _ silent =>
      rcases silent with none | nothing
      · cases none
      · cases nothing
  | posts data _ _ _ pushed =>
      rcases TaskQueue.push_eq_some pushed with
        ⟨closed, _, _⟩ | ⟨_, _, _, queued, _, _⟩
      · rw [recorded.opened] at closed
        cases closed
      · refine ⟨?entry, ?same, ?pushed⟩
        case entry =>
          exact
            { pw := { conn := some id, data := data }
              ticket := none
              readFrom := before.readFrom id ++
                (before.loop.kernelSocket client.conn).toList }
        case same => rfl
        case pushed =>
          have one :
              before.added next = [{ conn := some id, data := data }] := by
            rw [added, queued, List.drop_left]
          show before.taken.map Taken.entry ++ (before.waiting ++
            (before.added next).map _) = _
          rw [one, List.map_singleton, ← List.append_assoc]
          rfl

theorem known_received {before : Trace} {next : EventLoop} {id : Nat}
    {dispatch : Dispatch} (client : Client) (flowing : before.Flowing)
    (recorded : before.Recorded) (homed : before.home id ≠ none)
    (asked : before.loop.Asked id (some dispatch) next) :
    ∀ entry ∈ (before.received next id client dispatch).pushed,
      ∀ other, entry.pw.conn = some other → before.home other ≠ none := by
  cases dispatch with
  | nothing | submit => exact flowing.known
  | postResponse data =>
      rcases pushed_refused client recorded asked with ⟨added, same, pushed⟩
      intro entry member other named
      rw [pushed] at member
      rcases List.mem_append.1 member with old | new
      · exact flowing.known entry old other named
      · rw [List.mem_singleton.1 new, same] at named
        cases named
        exact homed

theorem Flowing.step {before after : Trace} {action : EventLoop.Action}
    (flowing : before.Flowing) (settled : before.Settled)
    (sourced : before.Sourced) (carried : before.Carried)
    (guard : before.FileSent action)
    (stepped : machine.step before action = some after) : after.Flowing := by
  rcases settled.step stepped with ⟨settledAfter, extends_⟩
  rcases settled.recorded.follows stepped with ⟨next, moved, follows⟩
  cases follows with
  | aside _ accepting writing draining =>
      refine flowing.still ?_ rfl rfl rfl flowing.known
      by_cases drains : ∃ answers, action = .drain answers
      · rcases drains with ⟨answers, same⟩
        exact .of_heap (draining answers same)
      · exact .step moved accepting writing fun answers same =>
          drains ⟨answers, same⟩
  | accepts clients last =>
      have sound := sound_of_own settled.standing moved
        (Or.inr (Or.inr ⟨clients, last, rfl⟩))
      cases EventLoop.step_effect moved with
      | accept _ _ _ _ _ _ opened accepted =>
          exact flowing.accepts settled carried sound accepted rfl
            settledAfter.homed extends_ rfl rfl rfl
  | receives received id client current dispatch asks asked =>
      have still := Still.recv moved
      have known := known_received client flowing settled.recorded
        (home_of_received settled current asks) asked
      cases dispatch <;> exact flowing.still still rfl rfl rfl known
  | writes answers id client current flushed flush heap =>
      have found := found_of_current current
      have sound := sound_of_own settled.standing moved
        (Or.inl ⟨answers, rfl⟩)
      have pushed : ∀ socket, ({ before with loop := next }.note socket
          flushed.calls).pushed = before.pushed := by
        intro socket
        rw [Trace.pushed, taken_note, waiting_note, Trace.pushed]
      have taken := taken_note { before with loop := next }
        (before.loop.kernelSocket client.conn) flushed.calls
      by_cases closed : client.conn.socket = none
      · have silent : before.loop.kernelSocket client.conn = none := by
          rw [EventLoop.kernelSocket, closed]
          rfl
        rw [silent]
        refine flowing.still (.of_update found heap fun open_ => ?_) rfl rfl
          rfl flowing.known
        exact absurd ((Connection.flushWrite_sends flush).socket closed) open_
      · rcases settled.homed.kernelSocket found closed with ⟨same, homed⟩
        rcases Option.ne_none_iff_exists'.1 homed with ⟨own, held⟩
        rw [same, held] at taken ⊢
        refine flowing.sends settled [] found held closed
          (List.append_nil _).symm
          (flushes_moves (alive_of_socket sound found closed)
            (Connection.flushWrite_flushes flush))
          heap rfl rfl ?_ ?_ (pushed _)
        · intro other
          rw [handedTo_of_taken taken, ite_self, List.append_nil]
          rfl
        · intro other
          rw [takenTo_of_taken taken, ite_self, List.append_nil]
          rfl
  | hands answers entry rest waiting id client named found alive flushed
      delivered heap =>
      have sound := sound_of_own settled.standing moved
        (Or.inr (Or.inl ⟨answers, rfl⟩))
      have open_ := socket_of_alive sound found alive
      rcases settled.homed.kernelSocket found open_ with ⟨same, homed⟩
      rcases Option.ne_none_iff_exists'.1 homed with ⟨own, held⟩
      have done : client.conn.unsentFile = [] := by
        refine guard entry ?_ (id, client) ?_ alive
        · rw [waiting]
          rfl
        · rw [named, EventLoop.deref, Option.bind_some, found]
          rfl
      have unsent : (entry.pw.handedOver client.conn).unsent =
          client.conn.unsent ++ bytesOf [entry] := by
        rw [unsent_of_file_sent entry.pw done, bytesOf,
          List.flatMap_singleton]
      rcases PendingWrite.deliver_flushes delivered with
        ⟨calls, silent, _, flush, rfl, flushes⟩
      have moves := flushes_moves (handedOver_isAlive entry.pw client.conn)
        flushes
      rw [← List.nil_append (wire flush.calls), ← silent, ← wire_append]
        at moves
      rw [same, held]
      exact flowing.sends settled [entry] found held open_ unsent
        moves heap rfl rfl (handedTo_append rfl)
        (takenTo_append_of_named rfl rfl named)
        (pushed_taken waiting rfl rfl rfl)
  | discards answers entry rest waiting conn gone dead heap =>
      have sound := sound_of_own settled.standing moved
        (Or.inr (Or.inl ⟨answers, rfl⟩))
      refine flowing.discards entry rfl heap rfl ?_ ?_
        (pushed_taken waiting rfl rfl rfl) ?_
      · intro socket
        show List.filterMap _ (before.taken ++ _) = _
        rw [List.filterMap_append]
        exact List.append_nil _
      · exact takenTo_append rfl rfl
      · intro id client named found
        rw [named, EventLoop.deref, Option.bind_some, found] at gone
        cases sound.placed id client found with
        | alive _ lives =>
            have never := dead client.conn gone
            rw [lives] at never
            cases never
        | closed _ none => exact none
  | throws index job =>
      exact flowing.still (.work moved) rfl rfl rfl
        flowing.known
  | posts index job task _ response =>
      refine flowing.still (.work moved) rfl rfl rfl ?_
      intro entry member id named
      rcases List.mem_append.1 member with old | waits
      · exact flowing.known entry (List.mem_append_left _ old) id named
      rcases List.mem_append.1 waits with old | new
      · exact flowing.known entry (List.mem_append_right _ old) id named
      · rw [List.mem_singleton.1 new] at named
        cases named
        have read := sourced.jobs job (List.mem_of_getElem? task)
        rcases List.exists_mem_of_ne_nil _ read.1 with ⟨origin, among⟩
        rw [read.2 origin among]
        intro never
        cases never

end Trace

end Cppws.App
