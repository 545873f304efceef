import Cppws.App.Accounts
import Cppws.Net.Clearing

/-!
# Connections that are to be closed

`on_writable` closes a connection that is not kept alive once everything has
been sent, but nothing calls it: `handle_event` and `drain_pending_writes` call
`flush_write`, which leaves such a connection open.  It is closed in the same
iteration only if a later event of the batch closes it or reads from it, and
the reading does not come to an end with nothing to read.
-/

namespace Cppws.App

open Cppws.Core
open Cppws.Http
open Cppws.Net

namespace Client

/-- It is to be closed once it has been handed over `more` responses. -/
structure Due (client : Client) (more : Nat) : Prop where
  promised : client.conn.keepAlive = false
  last : client.recognised = client.answered + more
  some : 0 < client.answered + more

/-- It is to be closed, and everything has been sent. -/
structure Finished (client : Client) : Prop where
  due : client.Due 0
  sent : client.conn.Idle

instance (client : Client) (more : Nat) : Decidable (client.Due more) :=
  decidable_of_iff
    (client.conn.keepAlive = false ∧
      client.recognised = client.answered + more ∧
        0 < client.answered + more)
    ⟨fun held => ⟨held.1, held.2.1, held.2.2⟩,
      fun due => ⟨due.promised, due.last, due.some⟩⟩

instance (client : Client) : Decidable client.Finished :=
  decidable_of_iff (client.Due 0 ∧ client.conn.Idle)
    ⟨fun held => ⟨held.1, held.2⟩,
      fun finished => ⟨finished.due, finished.sent⟩⟩

end Client

/-- An event of the batch closes the connection or reads from it. -/
def Attends (batch : List EpollEvent) (fd : Fd) : Prop :=
  ∃ event ∈ batch, event.fd = fd ∧
    (event.isClosed = true ∨ event.isReadable = true)

instance (batch : List EpollEvent) (fd : Fd) : Decidable (Attends batch fd) :=
  inferInstanceAs (Decidable (∃ event ∈ batch, _))

theorem attends_cons {event : EpollEvent} {rest : List EpollEvent} {fd : Fd} :
    Attends (event :: rest) fd ↔
      event.fd = fd ∧ (event.isClosed = true ∨ event.isReadable = true) ∨
        Attends rest fd := by
  simp only [Attends, List.mem_cons, exists_eq_or_imp]

theorem Attends.of_ne {event : EpollEvent} {rest : List EpollEvent} {fd : Fd}
    (different : fd ≠ event.fd) :
    Attends rest fd ↔ Attends (event :: rest) fd := by
  rw [attends_cons]
  constructor
  · exact Or.inr
  · exact fun held => held.resolve_left fun itself => different itself.1.symm

/-- What is left of the iteration closes the connection or reads from it. -/
def Phase.Reaches (phase : Phase) (fd : Fd) : Prop :=
  match phase with
  | .waiting => False
  | .handling batch => Attends batch fd
  | .draining rest => Attends rest fd
  | .reading event rest => event.fd = fd ∨ Attends rest fd
  | .writing _ rest => Attends rest fd
  | .threw _ => False

namespace EventLoop

/-- The connection whose event is being handled. -/
def current (loop : EventLoop) : Option Client :=
  match loop.phase with
  | .reading event _ => (loop.find event.fd).map Prod.snd
  | .writing event _ => (loop.find event.fd).map Prod.snd
  | _ => none

/--
A step that leaves a connection to be closed with nothing to send leaves an
event of the batch that closes it or reads from it.
-/
def Follows (loop : EventLoop) : Action → Prop
  | .recv received =>
      received = .failed .again → ∀ client ∈ loop.current,
        client.conn.isAlive = true → ¬ client.Finished
  | .write answers =>
      ∀ client ∈ loop.current, client.conn.Clears answers →
        ¬ client.Due 0
  | .drain answers =>
      ∀ pw ∈ loop.pendingWrites.queue.head?,
        ∀ found ∈ loop.deref pw.conn,
        found.2.conn.isAlive = true → found.2.Due 1 →
          (pw.handedOver found.2.conn).Clears answers →
            ∀ fd ∈ found.2.conn.socket, Attends loop.phase.events fd
  | _ => True

instance (loop : EventLoop) : ∀ action, Decidable (loop.Follows action)
  | .recv _ => inferInstanceAs (Decidable (_ → ∀ client ∈ _, _ → _))
  | .write _ => inferInstanceAs (Decidable (∀ client ∈ _, _ → _))
  | .drain _ => inferInstanceAs (Decidable (∀ pw ∈ _, ∀ found ∈ _, _))
  | .wait _ | .accept _ _ | .handle | .reap | .work _ _ | .stop =>
      inferInstanceAs (Decidable True)

/-- At the end of an iteration nothing that is stored is to be closed. -/
def ClosesFinished (loop : EventLoop) : Prop :=
  loop.phase = .waiting → ∀ fd id client,
    loop.find fd = some (id, client) → ¬ client.Finished

/-- What is left of the iteration takes care of a connection. -/
def CoveredAt (loop : EventLoop) (id : Nat) : Prop :=
  ∀ client fd, loop.heap id = some client → client.conn.isAlive = true →
    client.conn.socket = some fd → client.Finished → loop.phase.Reaches fd

/-- What is left of the iteration takes care of every connection. -/
def Covered (loop : EventLoop) : Prop :=
  ∀ id, loop.CoveredAt id

/-! ## One connection at a time -/

theorem coveredAt_congr {before after : EventLoop} {id : Nat}
    (heap : after.heap id = before.heap id)
    (reaches : ∀ client fd, before.heap id = some client →
      client.conn.isAlive = true → client.conn.socket = some fd →
        (after.phase.Reaches fd ↔ before.phase.Reaches fd)) :
    after.CoveredAt id ↔ before.CoveredAt id := by
  unfold CoveredAt
  rw [heap]
  constructor
  · intro covered client fd found alive socket finished
    exact (reaches client fd found alive socket).1
      (covered client fd found alive socket finished)
  · intro covered client fd found alive socket finished
    exact (reaches client fd found alive socket).2
      (covered client fd found alive socket finished)

theorem coveredAt_of_closed {loop : EventLoop} {id : Nat} {client : Client}
    (found : loop.heap id = some client)
    (dead : client.conn.isAlive = false) : loop.CoveredAt id := by
  intro other fd known alive
  rw [found, Option.some.injEq] at known
  rw [← known, dead] at alive
  cases alive

theorem coveredAt_of_not_due {loop : EventLoop} {id : Nat} {client : Client}
    (found : loop.heap id = some client) (due : ¬ client.Due 0) :
    loop.CoveredAt id := by
  intro other fd known alive socket finished
  rw [found, Option.some.injEq] at known
  exact absurd (known ▸ finished.due) due

/-- A connection that the rest of the iteration does not reach. -/
theorem coveredAt_iff_of_unreached {loop : EventLoop} {id : Nat}
    {client : Client} {fd : Fd} (found : loop.heap id = some client)
    (alive : client.conn.isAlive = true)
    (socket : client.conn.socket = some fd)
    (unreached : ¬ loop.phase.Reaches fd) :
    loop.CoveredAt id ↔ ¬ client.Finished := by
  constructor
  · intro covered finished
    exact unreached (covered client fd found alive socket finished)
  · intro unfinished other own known _ _ finished
    rw [found, Option.some.injEq] at known
    exact absurd (known ▸ finished) unfinished

/-- A step that concerns one connection. -/
theorem covered_iff_of_subject {before after : EventLoop} (subject : Nat)
    {guard : Prop}
    (others : ∀ id, id ≠ subject →
      (after.CoveredAt id ↔ before.CoveredAt id))
    (itself : after.CoveredAt subject ↔ before.CoveredAt subject ∧ guard) :
    after.Covered ↔ before.Covered ∧ guard := by
  constructor
  · intro covered
    have both := itself.1 (covered subject)
    refine ⟨fun id => ?_, both.2⟩
    by_cases same : id = subject
    · exact same ▸ both.1
    · exact (others id same).1 (covered id)
  · rintro ⟨covered, guarded⟩ id
    by_cases same : id = subject
    · exact same ▸ itself.2 ⟨covered subject, guarded⟩
    · exact (others id same).2 (covered id)

/-- A step that changes one connection. -/
theorem covered_iff_of_changed {before after : EventLoop} {id : Nat}
    {moved : Client} {guard : Prop}
    (heap : after.heap = Function.update before.heap id (some moved))
    (elsewhere : ∀ other entry fd, other ≠ id →
      before.heap other = some entry → entry.conn.socket = some fd →
        (after.phase.Reaches fd ↔ before.phase.Reaches fd))
    (itself : after.CoveredAt id ↔ before.CoveredAt id ∧ guard) :
    after.Covered ↔ before.Covered ∧ guard := by
  refine covered_iff_of_subject id (fun other different => ?_) itself
  refine coveredAt_congr ?_ fun entry fd found _ socket =>
    elsewhere other entry fd different found socket
  rw [heap, Function.update_of_ne different]

/-- A connection that is being read from. -/
theorem coveredAt_of_reading {loop : EventLoop} {id : Nat} {client : Client}
    {event : EpollEvent} {rest : List EpollEvent}
    (phase : loop.phase = .reading event rest)
    (found : loop.heap id = some client)
    (own : ∀ fd, client.conn.socket = some fd → event.fd = fd) :
    loop.CoveredAt id := by
  intro other fd known _ socket _
  rw [found, Option.some.injEq] at known
  rw [phase]
  exact Or.inl (own fd (known ▸ socket))

/-- A step that concerns no connection. -/
theorem covered_iff_of_none {before after : EventLoop} {guard : Prop}
    (all : ∀ id, after.CoveredAt id ↔ before.CoveredAt id) (met : guard) :
    after.Covered ↔ before.Covered ∧ guard := by
  rw [and_iff_left met]
  exact forall_congr' all

/-! ## One step at a time -/

theorem covered_handles {before after : EventLoop} {event : EpollEvent}
    {rest : List EpollEvent} (sound : before.Sound)
    (phase : before.phase = .handling (event :: rest))
    (handles : Handles before event rest after) :
    after.Covered ↔ before.Covered ∧ True := by
  have elsewhere : ∀ {loop : EventLoop} {id : Nat},
      loop.heap id = before.heap id →
        (∀ fd, loop.phase.Reaches fd ↔ Attends rest fd) →
          (∀ client, before.heap id = some client →
            client.conn.socket ≠ some event.fd) →
            (loop.CoveredAt id ↔ before.CoveredAt id) := by
    intro loop id heap left other
    refine coveredAt_congr heap fun client fd found _ socket => ?_
    rw [left, phase]
    apply Attends.of_ne
    rintro rfl
    exact other client found socket
  cases handles with
  | wakeup woken =>
      refine covered_iff_of_none (fun id => ?_) trivial
      refine elsewhere rfl (fun fd => Iff.rfl) fun client found socket => ?_
      have stored := sound.stored found socket
      rw [(sound.server event.fd (Or.inr woken)).1] at stored
      cases stored
  | stale _ unknown =>
      refine covered_iff_of_none (fun id => ?_) trivial
      refine elsewhere rfl (fun fd => Iff.rfl) fun client found socket => ?_
      have known := find_eq_some_iff.2 ⟨sound.stored found socket, found⟩
      rw [unknown] at known
      cases known
  | closes id client keyed found closed =>
      refine covered_iff_of_subject id (fun other different => ?_) ?_
      · refine elsewhere (Function.update_of_ne different _ _)
          (fun fd => Iff.rfl) fun entry known socket => ?_
        have stored := sound.stored known socket
        rw [keyed, Option.some.injEq] at stored
        exact different stored.symm
      · refine iff_of_true ?_ ⟨?_, trivial⟩
        · exact coveredAt_of_closed (Function.update_self _ _ _)
            (Connection.not_isAlive_onClosed client.conn)
        · intro other fd known alive socket _
          rw [found, Option.some.injEq] at known
          subst known
          have own := sound.socket found keyed alive
          rw [socket, Option.some.injEq] at own
          rw [phase, own]
          exact attends_cons.2 (Or.inl ⟨rfl, Or.inl closed⟩)
  | reads readable =>
      refine covered_iff_of_none (fun id => ?_) trivial
      refine coveredAt_congr rfl fun client fd _ _ _ => ?_
      rw [phase]
      show event.fd = fd ∨ Attends rest fd ↔ Attends (event :: rest) fd
      rw [attends_cons]
      simp [readable]
  | writes stillOpen unreadable | ignores stillOpen unreadable =>
      refine covered_iff_of_none (fun id => ?_) trivial
      refine coveredAt_congr rfl fun client fd _ _ _ => ?_
      rw [phase]
      show Attends rest fd ↔ Attends (event :: rest) fd
      rw [attends_cons]
      simp [stillOpen, unreadable]

theorem covered_accepts {before after : EventLoop} {event : EpollEvent}
    {rest : List EpollEvent} {clients : List Fd} {last : Refusal}
    (sound : before.Sound) (phase : before.phase = .handling (event :: rest))
    (listening : event.fd = before.listenFd)
    (accepted : before.acceptAll clients = some after)
    (returned : last ≠ .other) :
    Covered { after with phase := last.next rest } ↔
      before.Covered ∧ True := by
  refine covered_iff_of_none (fun id => ?_) trivial
  have next : last.next rest = .handling rest := by
    cases last with
    | again | aborted => rfl
    | other => exact absurd rfl returned
  rw [next]
  rcases acceptAll_new sound accepted id with
    kept | ⟨absent, client, found, answered, recognised, _⟩
  · refine coveredAt_congr kept fun client fd found _ socket => ?_
    rw [phase]
    apply Attends.of_ne
    rintro rfl
    have stored := sound.stored found socket
    rw [(sound.server event.fd (Or.inl listening)).1] at stored
    cases stored
  · refine iff_of_true ?_ ?_
    · refine coveredAt_of_not_due found fun due => ?_
      have some_ := due.some
      rw [answered] at some_
      exact Nat.lt_irrefl _ some_
    · intro other fd known
      rw [absent] at known
      cases known

/-- The descriptor of an event that is being handled has no other one. -/
theorem Standing.unattended {loop : EventLoop} (standing : loop.Standing)
    {event : EpollEvent} {rest : List EpollEvent}
    (events : loop.phase.events = event :: rest) :
    ¬ Attends rest event.fd := by
  have distinct := standing.distinct
  rw [Distinct, events] at distinct
  rintro ⟨other, member, same, _⟩
  exact (List.nodup_cons.1 distinct).1
    (List.mem_map.2 ⟨other, member, same⟩)

theorem covered_reads {before after : EventLoop} {event : EpollEvent}
    {rest : List EpollEvent} {received : Received} {id : Nat}
    {client : Client} (standing : before.Standing)
    (phase : before.phase = .reading event rest)
    (keyed : before.connections event.fd = some id)
    (found : before.heap id = some client)
    (reads : Reads before event rest received id client after) :
    after.Covered ↔ before.Covered ∧ before.Follows (.recv received) := by
  have sound := standing.sound
  have current : before.current = some client := by
    rw [EventLoop.current, phase]
    simp only [find_eq_some_iff.2 ⟨keyed, found⟩, Option.map_some]
  have follows : before.Follows (.recv received) ↔
      (received = .failed .again → client.conn.isAlive = true →
        ¬ client.Finished) := by
    simp only [Follows, current, Option.mem_some_iff, forall_eq']
  have own : ∀ fd, client.conn.socket = some fd → event.fd = fd :=
    fun fd socket => sound.key_eq found socket keyed
  have already : before.CoveredAt id := coveredAt_of_reading phase found own
  have apart : ∀ other entry fd, other ≠ id →
      before.heap other = some entry → entry.conn.socket = some fd →
        (Attends rest fd ↔ before.phase.Reaches fd) := by
    intro other entry fd different known socket
    rw [phase]
    have elsewhere : event.fd ≠ fd := by
      rintro rfl
      have stored := sound.stored known socket
      rw [keyed, Option.some.injEq] at stored
      exact different stored.symm
    constructor
    · exact Or.inr
    · exact fun held => held.resolve_left elsewhere
  rw [follows]
  cases reads with
  | more _ _ reading | posts _ _ reading | submits _ _ reading =>
      refine covered_iff_of_changed rfl (fun _ _ _ _ _ _ => Iff.rfl) ?_
      refine iff_of_true ?_ ⟨already, fun again => absurd again reading⟩
      exact coveredAt_of_reading phase (Function.update_self _ _ _) own
  | blocked readBuf again =>
      have left : ∀ fd, Phase.Reaches (if event.isWritable then
          .writing event rest else .handling rest) fd ↔ Attends rest fd := by
        intro fd
        split <;> exact Iff.rfl
      refine covered_iff_of_changed rfl ?_ ?_
      · intro other entry fd different known socket
        rw [← apart other entry fd different known socket]
        exact left fd
      · cases alive : client.conn.isAlive with
        | false =>
            refine iff_of_true ?_ ⟨already, fun _ lives => nomatch lives⟩
            exact coveredAt_of_closed (Function.update_self _ _ _) alive
        | true =>
            have socket := sound.socket found keyed alive
            have unreached : ¬ Phase.Reaches (if event.isWritable then
                .writing event rest else .handling rest) event.fd := by
              rw [left]
              apply standing.unattended
              rw [phase]
              rfl
            refine Iff.trans (coveredAt_iff_of_unreached
              (Function.update_self _ _ _) ?_ ?_ unreached) ?_
            · exact alive
            · exact socket
            constructor
            · exact fun unfinished => ⟨already, fun _ _ finished =>
                unfinished
                  ⟨⟨finished.due.1, finished.due.2, finished.due.3⟩,
                    finished.sent⟩⟩
            · exact fun held finished => held.2 again rfl
                ⟨⟨finished.due.1, finished.due.2, finished.due.3⟩,
                  finished.sent⟩
  | closes last readBuf read _ cause =>
      refine covered_iff_of_changed rfl ?_ ?_
      · exact fun other entry fd different known socket =>
          apart other entry fd different known socket
      · refine iff_of_true ?_ ⟨already, fun again alive => ?_⟩
        · exact coveredAt_of_closed (Function.update_self _ _ _)
            (Connection.not_isAlive_onClosed last)
        · have valid : client.conn.socket ≠ none := by
            rw [sound.socket found keyed alive]
            exact Option.some_ne_none _
          exact absurd again
            (cause (standing.roomy id client found) valid)

/-- A flush that leaves the connection open leaves it its socket. -/
theorem kept_of_flushes {conn : Connection} {answers : List Answer}
    {flushed : Connection.Flushed}
    (flushes : Connection.Flushes conn answers flushed)
    (alive : flushed.conn.isAlive = true) :
    flushed.conn.socket = conn.socket ∧
      flushed.conn.keepAlive = conn.keepAlive := by
  cases flushes with
  | opened _ _ _ socket _ _ keepAlive => exact ⟨socket, keepAlive⟩
  | shut _ _ _ last _ closed =>
      rw [closed, Connection.not_isAlive_onClosed] at alive
      cases alive

/-- A flush finishes a connection that is due if it clears. -/
theorem finished_iff_of_flushed (client moved : Client) (more : Nat)
    {conn : Connection} {answers : List Answer} {flushed : Connection.Flushed}
    (alive : conn.isAlive = true) (valid : conn.socket ≠ none)
    (keepAlive : conn.keepAlive = client.conn.keepAlive)
    (flush : conn.flushWrite answers = some flushed)
    (same : moved.conn = flushed.conn)
    (recognised : moved.recognised = client.recognised)
    (answered : moved.answered = client.answered + more) :
    moved.conn.isAlive = true ∧ moved.Finished ↔
      client.Due more ∧ conn.Clears answers := by
  have clears := Connection.flushWrite_idle_iff valid alive flush
  have kept := kept_of_flushes (Connection.flushWrite_flushes flush)
  rw [same]
  constructor
  · rintro ⟨lives, finished⟩
    have idle : flushed.conn.Idle := same ▸ finished.sent
    have promised := finished.due.promised
    have last := finished.due.last
    have some_ := finished.due.some
    rw [same, (kept lives).2, keepAlive] at promised
    rw [recognised, answered] at last
    rw [answered] at some_
    exact ⟨⟨promised, last, some_⟩, clears.1 ⟨lives, idle⟩⟩
  · rintro ⟨due, cleared⟩
    rcases clears.2 cleared with ⟨lives, idle⟩
    refine ⟨lives, ⟨?_, ?_, ?_⟩, same ▸ idle⟩
    · rw [same, (kept lives).2, keepAlive]
      exact due.promised
    · rw [recognised, answered]
      exact due.last
    · rw [answered]
      exact due.some

theorem covered_writes {before after : EventLoop} {event : EpollEvent}
    {rest : List EpollEvent} {answers : List Answer} {id : Nat}
    {client : Client} {flushed : Connection.Flushed}
    (standing : before.Standing) (phase : before.phase = .writing event rest)
    (keyed : before.connections event.fd = some id)
    (found : before.heap id = some client)
    (alive : client.conn.isAlive = true)
    (flush : client.conn.flushWrite answers = some flushed)
    (next : after.phase = .handling rest)
    (heap : after.heap = Function.update before.heap id
      (some { client with conn := flushed.conn })) :
    after.Covered ↔ before.Covered ∧ before.Follows (.write answers) := by
  have socket := standing.sound.socket found keyed alive
  have current : before.current = some client := by
    rw [EventLoop.current, phase]
    simp only [find_eq_some_iff.2 ⟨keyed, found⟩, Option.map_some]
  have follows : before.Follows (.write answers) ↔
      (client.conn.Clears answers → ¬ client.Due 0) := by
    simp only [Follows, current, Option.mem_some_iff, forall_eq']
  have unattended : ¬ Attends rest event.fd := by
    apply standing.unattended
    rw [phase]
    rfl
  have valid : client.conn.socket ≠ none := by
    rw [socket]
    exact Option.some_ne_none _
  have finished := finished_iff_of_flushed client
    { client with conn := flushed.conn } 0 alive valid rfl flush rfl rfl rfl
  have moved : after.heap id = some { client with conn := flushed.conn } := by
    rw [heap, Function.update_self]
  have later : after.CoveredAt id ↔
      (client.conn.Clears answers → ¬ client.Due 0) := by
    cases lives : flushed.conn.isAlive with
    | false =>
        refine iff_of_true (coveredAt_of_closed moved lives) ?_
        intro clears due
        have both := finished.2 ⟨due, clears⟩
        rw [show flushed.conn.isAlive = true from both.1] at lives
        cases lives
    | true =>
        have kept := (kept_of_flushes
          (Connection.flushWrite_flushes flush) lives).1
        have unreached : ¬ after.phase.Reaches event.fd := by
          rw [next]
          exact unattended
        rw [coveredAt_iff_of_unreached moved lives (kept.trans socket)
          unreached]
        constructor
        · exact fun unfinished clears due =>
            unfinished (finished.2 ⟨due, clears⟩).2
        · exact fun guard done =>
            guard (finished.1 ⟨lives, done⟩).2
              (finished.1 ⟨lives, done⟩).1
  rw [follows]
  refine covered_iff_of_changed heap (fun _ _ _ _ _ _ => ?_) ?_
  · rw [next, phase]
    exact Iff.rfl
  · have unreached : ¬ before.phase.Reaches event.fd := by
      rw [phase]
      exact unattended
    rw [later, coveredAt_iff_of_unreached found alive socket unreached]
    constructor
    · exact fun guard => ⟨fun done =>
        guard (done.sent.clears answers) done.due, guard⟩
    · exact fun held => held.2

theorem covered_delivers {before after : EventLoop} {rest : List EpollEvent}
    {answers : List Answer} {pw : PendingWrite} {queue : List PendingWrite}
    {id : Nat} {client : Client} {flushed : Connection.Flushed}
    (standing : before.Standing) (phase : before.phase = .draining rest)
    (popped : before.pendingWrites.queue = pw :: queue)
    (named : pw.conn = some id) (found : before.heap id = some client)
    (alive : client.conn.isAlive = true)
    (delivered : pw.deliver client.conn answers = some flushed)
    (next : after.phase = .draining rest)
    (heap : after.heap = Function.update before.heap id
      (some
        { client with
          conn := flushed.conn, answered := client.answered + 1 })) :
    after.Covered ↔ before.Covered ∧ before.Follows (.drain answers) := by
  have deref : before.deref pw.conn = some (id, client) :=
    deref_eq_some_iff.2 ⟨named, found⟩
  have follows : before.Follows (.drain answers) ↔
      (client.Due 1 → (pw.handedOver client.conn).Clears answers →
        ∀ fd, client.conn.socket = some fd → Attends rest fd) := by
    simp only [Follows, popped, List.head?_cons, Option.mem_some_iff,
      forall_eq', deref, alive, true_implies, phase, Phase.events]
    exact Iff.rfl
  have valid : (pw.handedOver client.conn).socket ≠ none := by
    rw [handedOver_socket]
    cases standing.sound.placed id client found with
    | alive fd _ socket =>
        rw [socket]
        exact Option.some_ne_none _
    | closed dead =>
        rw [alive] at dead
        cases dead
  have keepAlive : (pw.handedOver client.conn).keepAlive =
      client.conn.keepAlive := by
    unfold PendingWrite.handedOver
    cases pw.fileFd <;> rfl
  rcases PendingWrite.deliver_flushWrite delivered with
    ⟨calls, _, _, flush, same, ran⟩
  have conn : flushed.conn = flush.conn := by
    rw [same]
  have finished := finished_iff_of_flushed client
    { client with conn := flushed.conn, answered := client.answered + 1 } 1
    (handedOver_isAlive pw client.conn) valid keepAlive ran conn rfl rfl
  have moved : after.heap id = some
      { client with
        conn := flushed.conn
        answered := client.answered + 1 } := by
    rw [heap, Function.update_self]
  have already : before.CoveredAt id := by
    refine coveredAt_of_not_due found fun due => ?_
    have bound := standing.counted.known id client found
    rw [owed, popped, toward_cons, if_pos named, due.last] at bound
    omega
  rw [follows]
  refine covered_iff_of_changed heap (fun _ _ _ _ _ _ => ?_) ?_
  · rw [next, phase]
  · rw [and_iff_right already]
    constructor
    · intro covered due clears fd socket
      have done := finished.2 ⟨due, clears⟩
      have kept := (kept_of_flushes (Connection.flushWrite_flushes ran)
        (conn ▸ done.1)).1
      have reached := covered _ fd moved done.1
        (by rw [conn, kept, handedOver_socket, socket]) done.2
      rw [next] at reached
      exact reached
    · intro guard other fd known lives socket done
      rw [moved, Option.some.injEq] at known
      subst known
      have both := finished.1 ⟨lives, done⟩
      have kept := (kept_of_flushes (Connection.flushWrite_flushes ran)
        (conn ▸ lives)).1
      rw [next]
      apply guard both.1 both.2
      rw [← handedOver_socket pw, ← kept, ← conn]
      exact socket

theorem heap_modify (loop : EventLoop) (socket : Option Fd)
    (events : Events) (next : Phase) :
    (loop.modify socket events next).heap = loop.heap := by
  unfold modify
  split <;> rfl

theorem phase_modify_of_works {loop : EventLoop} {socket : Option Fd}
    {events : Events} {next : Phase}
    (works : ∀ fault,
      (loop.modify socket events next).phase ≠ .threw fault) :
    (loop.modify socket events next).phase = next := by
  unfold modify at works ⊢
  split
  case h_1 => rfl
  case h_2 none =>
    rw [none] at works
    exact absurd rfl (works _)

/-- What a step does to the connections that are to be closed. -/
theorem covered_iff_follows {before after : EventLoop} {action : Action}
    (standing : before.Standing) (inside : ∀ batch, action ≠ .wait batch)
    (stepped : machine.step before action = some after)
    (works : ∀ fault, after.phase ≠ .threw fault) :
    after.Covered ↔ before.Covered ∧ before.Follows action := by
  have same : ∀ {loop : EventLoop}, loop.heap = before.heap →
      loop.phase = before.phase → ∀ id,
        (loop.CoveredAt id ↔ before.CoveredAt id) := by
    intro loop heap phase id
    refine coveredAt_congr (congrFun heap id) fun _ fd _ _ _ => ?_
    rw [phase]
  cases step_effect stepped with
  | wait batch => exact absurd rfl (inside batch)
  | accept clients last event rest phase listening next accepted =>
      refine covered_accepts standing.sound phase listening accepted ?_
      rintro rfl
      exact works .accept rfl
  | handle event rest phase _ _ handles =>
      exact covered_handles standing.sound phase handles
  | recv received event rest phase id client keyed found _ reads =>
      exact covered_reads standing phase keyed found reads
  | write answers event rest phase id client flushed keyed found flush _ _
      writes =>
      have alive : client.conn.isAlive = true := by
        by_contra dead
        exact works _ ((standing.sound.placed id client found).writes_closed
          keyed (by simpa using dead) flush writes)
      cases writes with
      | drained =>
          exact covered_writes standing phase keyed found alive flush
            (phase_modify_of_works works) (heap_modify _ _ _ _)
      | partly =>
          exact covered_writes standing phase keyed found alive flush rfl rfl
  | drain answers rest phase _ drains =>
      cases drains with
      | finishes empty =>
          refine covered_iff_of_none (fun id => ?_) ?_
          · refine coveredAt_congr rfl fun _ fd _ _ _ => ?_
            rw [phase]
            exact Iff.rfl
          · simp [Follows, empty]
      | discards pw queue popped gone =>
          refine covered_iff_of_none (same rfl rfl) ?_
          simp only [Follows, popped, List.head?_cons, Option.mem_some_iff,
            forall_eq']
          intro found known alive
          rw [gone found.1 found.2 known] at alive
          cases alive
      | delivers pw queue popped id client flushed named found alive delivered
          _ next same =>
          split_ifs at works ⊢
          · refine covered_delivers standing phase popped named found alive
              delivered (phase_modify_of_works works) ?_
            rw [heap_modify, same]
            rfl
          · refine covered_delivers standing phase popped named found alive
              delivered ?_ ?_
            · rw [same]
              exact phase
            · rw [same]
              rfl
  | reap phase =>
      refine covered_iff_of_none (fun id => ?_) trivial
      refine coveredAt_congr rfl fun _ fd _ _ _ => ?_
      rw [phase]
      refine iff_of_false (fun reached => reached) ?_
      rintro ⟨event, member, _⟩
      exact absurd member List.not_mem_nil
  | work index response _ finishes =>
      cases finishes <;> exact covered_iff_of_none (same rfl rfl) trivial
  | stop => exact covered_iff_of_none (same rfl rfl) trivial

/-! ## Every run -/

/-- Between two iterations, what is not covered is stored and finished. -/
theorem closesFinished_iff {loop : EventLoop} (standing : loop.Standing) :
    loop.ClosesFinished ↔ (loop.phase = .waiting → loop.Covered) := by
  constructor
  · intro closes waiting id client fd found alive socket finished
    have stored := standing.sound.stored found socket
    exact absurd finished
      (closes waiting fd id client (find_eq_some_iff.2 ⟨stored, found⟩))
  · intro covered waiting fd id client known finished
    rcases find_eq_some_iff.1 known with ⟨keyed, found⟩
    have alive : client.conn.isAlive = true := by
      by_contra dead
      have tidy := standing.tidy waiting fd
      rw [dead_eq_true_iff.2
        ⟨id, client, keyed, found, by simpa using dead⟩] at tidy
      cases tidy
    have reached := covered waiting id client fd found alive
      (standing.sound.socket found keyed alive) finished
    rw [waiting] at reached
    exact reached

theorem start_covered (listenFd wakeupFd : Fd) :
    (start listenFd wakeupFd).Covered := by
  intro id client fd found
  cases found

/-- A batch comes in when nothing is to be closed. -/
theorem covered_wait {before after : EventLoop} {batch : List EpollEvent}
    (covered : before.Covered)
    (stepped : machine.step before (.wait batch) = some after) :
    after.Covered := by
  cases step_effect stepped with
  | wait _ waiting =>
      intro id client fd found alive socket finished
      have reached := covered id client fd found alive socket finished
      rw [waiting] at reached
      exact reached.elim

/--
In a run that ends between two iterations, no end of an iteration has found a
connection that is to be closed and has nothing to send, exactly if every step
that left one so left an event of its batch to close it or read from it.
-/
theorem finished_closed_iff {listenFd wakeupFd : Fd} {actions : List Action}
    {loop : EventLoop}
    (ran : machine.run (start listenFd wakeupFd) actions = some loop)
    (ended : loop.phase = .waiting) :
    machine.Guarded (fun loop _ => loop.ClosesFinished)
        (start listenFd wakeupFd) actions ∧ loop.ClosesFinished ↔
      machine.Guarded Follows (start listenFd wakeupFd) actions := by
  refine Machine.checked_iff_guarded Standing Covered
    (fun loop => loop.phase = .waiting)
    (fun loop => ∀ fault, loop.phase ≠ .threw fault) ClosesFinished
    ?_ ?_ ?_ ?_ ?_ (start_standing listenFd wakeupFd)
    (start_covered listenFd wakeupFd) ran ?_ ended
  · intro before action after standing covered stepped works
    cases action with
    | wait batch =>
        exact iff_of_true (covered_wait covered stepped) trivial
    | accept | handle | recv | write | drain | reap | work | stop =>
        rw [covered_iff_follows standing (fun _ equal => by cases equal)
          stepped works, and_iff_right covered]
  · intro before action after standing inside uncovered stepped works covered
    have handled : ∀ batch, action ≠ .wait batch := by
      rintro batch rfl
      cases step_effect stepped with
      | wait _ waiting => exact inside waiting
    exact uncovered
      ((covered_iff_follows standing handled stepped works).1 covered).1
  · intro before action after standing stepped works
    exact standing.step stepped fun ⟨socket, threw⟩ => works _ threw
  · intro before action after stepped works fault threw
    exact works fault (step_of_threw threw stepped)
  · exact fun state standing => closesFinished_iff standing
  · intro fault threw
    rw [ended] at threw
    cases threw

/--
A request without keep-alive, and the batch in which its response is sent to a
client, with the other events of that batch.
-/
def answered (others : List EpollEvent) : List Action :=
  exchange 71 (text "ET / HTTP/1.0\r\n\r\n") (text "ok") ++
    [.wait (readable 5 :: others), .handle, .drain [.took 2], .drain []]

/-- The client hangs up in the same batch. -/
theorem finished_closed_hungUp :
    ∃ loop,
      machine.run (start 3 5) (answered [hangup 6] ++ [.handle, .reap]) =
          some loop ∧
        loop.phase = .waiting ∧ loop.ClosesFinished := by
  have finishes : ∃ loop,
      machine.run (start 3 5) (answered [hangup 6] ++ [.handle, .reap]) =
          some loop ∧
        loop.phase = .waiting :=
    Option.map_eq_some_iff.1 (by decide)
  rcases finishes with ⟨loop, ran, ended⟩
  exact ⟨loop, ran, ended,
    ((finished_closed_iff ran ended).2 (by decide)).2⟩

/-- A response is sent to a client that waits for the close. -/
theorem finished_closed_answered :
    ¬ ∀ listenFd wakeupFd actions loop,
        machine.run (start listenFd wakeupFd) actions = some loop →
          loop.ClosesFinished := by
  intro always
  have finishes : ∃ loop,
      machine.run (start 3 5) (answered [] ++ [.reap]) = some loop ∧
        (loop.phase, (loop.find 6).any fun found =>
          decide found.2.Finished) = (.waiting, true) :=
    Option.map_eq_some_iff.1 (by decide)
  rcases finishes with ⟨loop, ran, both⟩
  rcases Prod.mk.inj both with ⟨waiting, unclosed⟩
  rcases (Option.any_eq_true _ _).1 unclosed with
    ⟨⟨id, client⟩, found, finished⟩
  exact always 3 5 _ loop ran waiting 6 id client found
    (of_decide_eq_true finished)

end EventLoop

end Cppws.App
