import Cppws.App.EventLoop
import Cppws.Core.Output

/-!
# What each step of the event loop does

Every function of the event loop, inverted: one constructor for each way it can
go, with all that is needed of it later.  What a function does to a connection
is said once, and so is what it does to the queues.
-/

namespace Cppws.App

open Cppws.Core
open Cppws.Http
open Cppws.Net

/-! ## What happens to a connection -/

/-- A connection keeps its socket, or closes it and says so. -/
inductive Moves (before after : Connection) (calls : List Call) : Prop where
  | stays (socket : after.socket = before.socket)
      (alive : after.isAlive = before.isAlive)
      (file : before.isAlive = false → after.sendfileOp = before.sendfileOp)
      (quiet : control calls = [])
  | closes (alive : before.isAlive = true)
      (closed : after.state = .closed)
      (socket : after.socket = none)
      (file : after.sendfileOp = none)
      (told : control calls =
        .closeCallback before.socket :: before.socket.toList.map .close)

theorem control_onClosed {conn : Connection} (alive : conn.isAlive = true) :
    control conn.onClosed.2 =
      .closeCallback conn.socket :: conn.socket.toList.map .close := by
  have notClosed : conn.state ≠ .closed := by
    simpa [Connection.isAlive] using alive
  rw [Connection.onClosed, if_neg notClosed, control_append,
    control_releaseFile, List.nil_append]
  cases conn.socket <;> rfl

theorem onClosed_of_not_isAlive {conn : Connection}
    (closed : conn.isAlive = false) : conn.onClosed = (conn, []) := by
  rw [Connection.onClosed, if_pos]
  simpa [Connection.isAlive] using closed

/-- `on_closed` on a connection that has at most been read from. -/
theorem Moves.onClosed {before last : Connection}
    (socket : last.socket = before.socket)
    (alive : last.isAlive = before.isAlive)
    (file : last.sendfileOp = before.sendfileOp) :
    Moves before last.onClosed.1 last.onClosed.2 := by
  cases lives : before.isAlive with
  | false =>
      rw [onClosed_of_not_isAlive (alive.trans lives)]
      exact .stays socket alive (fun _ => file) rfl
  | true =>
      have told := control_onClosed (alive.trans lives)
      rw [socket] at told
      have notClosed : last.state ≠ .closed := by
        simpa [Connection.isAlive] using alive.trans lives
      rw [Connection.onClosed, if_neg notClosed] at told ⊢
      exact .closes lives rfl rfl rfl told

/-- What one round of `on_readable` does before its callback. -/
inductive ReadsOnce (conn : Connection) (received : Received) :
    Connection × List Call × Connection.Reading → Prop where
  | callback (readBuf : Buffer) (more : received ≠ .failed .again)
      (room : 0 < conn.readBuf.writableBytes → 0 < readBuf.capacity) :
      ReadsOnce conn received ({ conn with readBuf := readBuf }, [], .callback)
  | retry (readBuf : Buffer) (more : received ≠ .failed .again)
      (room : 0 < conn.readBuf.writableBytes → 0 < readBuf.writableBytes) :
      ReadsOnce conn received ({ conn with readBuf := readBuf }, [], .retry)
  | blocked (readBuf : Buffer) (again : received = .failed .again)
      (room : 0 < conn.readBuf.writableBytes → 0 < readBuf.writableBytes) :
      ReadsOnce conn received ({ conn with readBuf := readBuf }, [], .blocked)
  | closed (last : Connection) (readBuf : Buffer)
      (read : last = { conn with readBuf := readBuf })
      (room : 0 < conn.readBuf.writableBytes → 0 < readBuf.writableBytes)
      (cause : 0 < conn.readBuf.writableBytes → conn.socket ≠ none →
        received ≠ .failed .again) :
      ReadsOnce conn received (last.onClosed.1, last.onClosed.2, .closed)

theorem readOnce_readsOnce (conn : Connection) (received : Received) :
    ReadsOnce conn received (conn.readOnce received) := by
  unfold Connection.readOnce
  cases made : conn.roomToRead with
  | none =>
      refine .closed conn conn.readBuf rfl id fun room => ?_
      rw [Connection.roomToRead, if_neg (Nat.ne_of_gt room)] at made
      cases made
  | some roomy =>
      rcases Connection.roomToRead_eq_some made with ⟨readBuf, same, kept⟩
      have room : 0 < conn.readBuf.writableBytes →
          0 < readBuf.writableBytes := by
        intro room
        rw [kept room]
        exact room
      have valid : ∀ {result : Received}, conn.socket ≠ none →
          roomy.receives received = result → received = result := by
        intro result valid reported
        rw [same, Connection.receives, if_neg valid] at reported
        exact reported
      simp only [Connection.recv]
      cases reported : roomy.receives received with
      | data first rest =>
          have more : received ≠ .failed .again := by
            rintro rfl
            rw [Connection.receives] at reported
            split_ifs at reported
          rw [same]
          refine .callback _ more fun roomBefore => ?_
          rw [Buffer.append_capacity]
          exact Nat.lt_of_lt_of_le (room roomBefore) (Nat.sub_le _ _)
      | eof =>
          refine .closed roomy readBuf same room fun _ socket again => ?_
          have ended := valid socket reported
          rw [again] at ended
          cases ended
      | failed errno =>
          cases errno with
          | again =>
              have again : received = .failed .again := by
                rw [Connection.receives] at reported
                split_ifs at reported
                · cases reported
                · exact reported
              rw [same]
              exact .blocked readBuf again room
          | intr =>
              have more : received ≠ .failed .again := by
                rintro rfl
                rw [Connection.receives] at reported
                split_ifs at reported
                · cases reported
                · cases reported
              rw [same]
              exact .retry readBuf more room
          | connreset | pipe | other =>
              refine .closed roomy readBuf same room fun _ socket again => ?_
              have failed := valid socket reported
              rw [again] at failed
              cases failed

/-- A flush of a connection that is alive. -/
theorem Moves.of_flushes {before conn : Connection} {answers : List Answer}
    {flushed : Connection.Flushed}
    (flushes : Connection.Flushes conn answers flushed)
    (socket : conn.socket = before.socket)
    (lives : before.isAlive = true) (alive : conn.isAlive = true) :
    Moves before flushed.conn flushed.calls := by
  cases flushes with
  | opened _ _ _ kept _ _ _ quiet _ _ settled =>
      refine .stays (kept.trans socket) ?_ (fun dead => ?_) quiet
      · rw [lives]
        exact Connection.isAlive_of_settled settled alive
      · rw [lives] at dead
        cases dead
  | shut _ _ _ last owner closed told _ _ =>
      have lastAlive : last.isAlive = true := by
        rw [Connection.isAlive, owner.state]
        exact alive
      rw [control_onClosed lastAlive, owner.socket, socket] at told
      have notClosed : last.state ≠ .closed := by
        simpa [Connection.isAlive] using lastAlive
      rw [Connection.onClosed, if_neg notClosed] at closed
      rw [closed]
      exact .closes lives rfl rfl rfl told

theorem handedOver_socket (pw : PendingWrite) (conn : Connection) :
    (pw.handedOver conn).socket = conn.socket := by
  unfold PendingWrite.handedOver
  cases pw.fileFd <;> rfl

theorem handedOver_isAlive (pw : PendingWrite) (conn : Connection) :
    (pw.handedOver conn).isAlive = true := by
  unfold PendingWrite.handedOver
  cases pw.fileFd <;> rfl

theorem Moves.deliver {pw : PendingWrite} {conn : Connection}
    {answers : List Answer} {flushed : Connection.Flushed}
    (alive : conn.isAlive = true)
    (delivered : pw.deliver conn answers = some flushed) :
    Moves conn flushed.conn flushed.calls := by
  rcases PendingWrite.deliver_flushes delivered with
    ⟨calls, _, quiet, flush, rfl, flushes⟩
  have moved := Moves.of_flushes flushes (handedOver_socket pw conn) alive
    (handedOver_isAlive pw conn)
  cases moved with
  | stays socket same file still =>
      refine .stays socket same file ?_
      rw [control_append, quiet, still]
      rfl
  | closes _ closed socket file told =>
      refine .closes alive closed socket file ?_
      rw [control_append, quiet, told]
      rfl

namespace EventLoop

/-! ## Finding a connection -/

theorem deref_eq_some_iff {loop : EventLoop} {conn : Option Nat} {id : Nat}
    {client : Client} :
    loop.deref conn = some (id, client) ↔
      conn = some id ∧ loop.heap id = some client := by
  unfold deref
  cases conn with
  | none => simp
  | some other =>
      simp only [Option.bind_some, Option.map_eq_some_iff, Prod.mk.injEq,
        Option.some.injEq]
      constructor
      · rintro ⟨_, found, rfl, rfl⟩
        exact ⟨rfl, found⟩
      · rintro ⟨rfl, found⟩
        exact ⟨client, found, rfl, rfl⟩

theorem find_eq_some_iff {loop : EventLoop} {fd : Fd} {id : Nat}
    {client : Client} :
    loop.find fd = some (id, client) ↔
      loop.connections fd = some id ∧ loop.heap id = some client :=
  deref_eq_some_iff

theorem put_put (loop : EventLoop) (id : Nat) (first second : Client) :
    (loop.put id first []).put id second [] = loop.put id second [] := by
  unfold put
  simp only [Function.update_idem]
  rfl

/-! ## The functions of the event loop -/

/-- What `handle_event` does before its first system call. -/
inductive Handles (loop : EventLoop) (event : EpollEvent)
    (rest : List EpollEvent) : EventLoop → Prop where
  | wakeup (woken : event.fd = loop.wakeupFd) :
      Handles loop event rest { loop with phase := .draining rest }
  | stale (client : event.fd ≠ loop.wakeupFd)
      (unknown : loop.find event.fd = none) :
      Handles loop event rest { loop with phase := .handling rest }
  | closes (id : Nat) (client : Client)
      (keyed : loop.connections event.fd = some id)
      (found : loop.heap id = some client) (closed : event.isClosed = true) :
      Handles loop event rest
        { loop.put id { client with conn := client.conn.onClosed.1 }
            client.conn.onClosed.2 with
          phase := .handling rest }
  | reads (readable : event.isReadable = true) :
      Handles loop event rest { loop with phase := .reading event rest }
  | writes (stillOpen : event.isClosed = false)
      (unreadable : event.isReadable = false) :
      Handles loop event rest { loop with phase := .writing event rest }
  | ignores (stillOpen : event.isClosed = false)
      (unreadable : event.isReadable = false) :
      Handles loop event rest { loop with phase := .handling rest }

theorem handleEvent_handles (loop : EventLoop) (event : EpollEvent)
    (rest : List EpollEvent) :
    Handles loop event rest (loop.handleEvent event rest) := by
  unfold handleEvent
  cases found : loop.find event.fd with
  | none =>
      dsimp only
      split_ifs with woken
      · exact .wakeup woken
      · exact .stale woken found
  | some entry =>
      rcases find_eq_some_iff.1 found with ⟨keyed, heap⟩
      split_ifs with woken closed readable writable
      · exact .wakeup woken
      · exact .closes entry.1 entry.2 keyed heap closed
      · exact .reads readable
      · exact .writes (by simpa using closed) (by simpa using readable)
      · exact .ignores (by simpa using closed) (by simpa using readable)

/-- What one round of `on_readable` does. -/
inductive Reads (loop : EventLoop) (event : EpollEvent)
    (rest : List EpollEvent) (received : Received) (id : Nat)
    (client : Client) : EventLoop → Prop where
  /-- The parser wants more, or `recv` is called again. -/
  | more (parser : HttpParser) (readBuf : Buffer)
      (reading : received ≠ .failed .again)
      (room : 0 < client.conn.readBuf.writableBytes →
        0 < readBuf.writableBytes) :
      Reads loop event rest received id client
        (loop.put id
          { client with
            conn := { client.conn with readBuf := readBuf }
            parser := parser } [])
  /-- An error response is posted. -/
  | posts (parser : HttpParser) (readBuf : Buffer)
      (reading : received ≠ .failed .again)
      (room : 0 < client.conn.readBuf.writableBytes →
        0 < readBuf.writableBytes) (data : Bytes)
      (queue : TaskQueue PendingWrite) (accepted : Bool)
      (pushed : loop.pendingWrites.push { conn := some id, data := data } =
        some (queue, accepted)) :
      Reads loop event rest received id client
        { loop.put id
            { client with
              conn :=
                { client.conn with readBuf := readBuf, keepAlive := false }
              parser := parser
              recognised := client.recognised + 1 } [] with
          pendingWrites := queue }
  /-- A task is submitted. -/
  | submits (parser : HttpParser) (readBuf : Buffer)
      (reading : received ≠ .failed .again)
      (room : 0 < client.conn.readBuf.writableBytes →
        0 < readBuf.writableBytes) (keepAlive : Bool) :
      Reads loop event rest received id client
        { loop.put id
            { client with
              conn :=
                { client.conn with
                  readBuf := readBuf
                  keepAlive := keepAlive }
              parser := parser
              recognised := client.recognised + 1 } [] with
          tasks := loop.tasks ++ [id] }
  /-- There is nothing more to read. -/
  | blocked (readBuf : Buffer) (again : received = .failed .again)
      (room : 0 < client.conn.readBuf.writableBytes →
        0 < readBuf.writableBytes) :
      Reads loop event rest received id client
        { loop.put id
            { client with conn := { client.conn with readBuf := readBuf } }
            [] with
          phase :=
            if event.isWritable then .writing event rest else .handling rest }
  /-- The connection closes. -/
  | closes (last : Connection) (readBuf : Buffer)
      (read : last = { client.conn with readBuf := readBuf })
      (room : 0 < client.conn.readBuf.writableBytes →
        0 < readBuf.writableBytes)
      (cause : 0 < client.conn.readBuf.writableBytes →
        client.conn.socket ≠ none → received ≠ .failed .again) :
      Reads loop event rest received id client
        { loop.put id { client with conn := last.onClosed.1 }
            last.onClosed.2 with
          phase := .handling rest }

theorem readSome_reads {loop after : EventLoop} {event : EpollEvent}
    {rest : List EpollEvent} {received : Received}
    (ran : loop.readSome event rest received = some after) :
    ∃ id client, loop.connections event.fd = some id ∧
      loop.heap id = some client ∧
        Reads loop event rest received id client after := by
  rcases Option.bind_eq_some_iff.1 ran with ⟨⟨id, client⟩, found, ran⟩
  rcases find_eq_some_iff.1 found with ⟨keyed, heap⟩
  refine ⟨id, client, keyed, heap, ?_⟩
  have reads := readOnce_readsOnce client.conn received
  dsimp only at ran
  generalize client.conn.readOnce received = read at reads ran
  cases reads with
  | retry readBuf reading room =>
      cases ran
      exact .more client.parser readBuf reading room
  | blocked readBuf again room =>
      cases ran
      exact .blocked readBuf again room
  | closed last readBuf same room cause =>
      cases ran
      exact .closes last readBuf same room cause
  | callback readBuf reading room =>
      simp only [called, readCallback] at ran
      cases result : (client.parser.feed readBuf.readable).2 with
      | incomplete =>
          simp only [result, put_put, Option.some.injEq] at ran
          rw [← ran]
          exact .more _ _ reading room
      | error =>
          simp only [result, put_put] at ran
          rcases Option.map_eq_some_iff.1 ran with
            ⟨⟨queue, accepted⟩, pushed, rfl⟩
          exact .posts _ _ reading room _ queue accepted pushed
      | complete =>
          simp only [result, put_put, Option.some.injEq] at ran
          rw [← ran]
          exact .submits _ _ reading room _

/-- What the writable branch of `handle_event` does. -/
inductive Writes (loop : EventLoop) (event : EpollEvent)
    (rest : List EpollEvent) (id : Nat) (client : Client)
    (flushed : Connection.Flushed) : EventLoop → Prop where
  | drained (nothing : flushed.remaining = 0) :
      Writes loop event rest id client flushed
        ((loop.put id { client with conn := flushed.conn }
          flushed.calls).modify (some event.fd) readMask (.handling rest))
  | partly (left : flushed.remaining ≠ 0) :
      Writes loop event rest id client flushed
        { loop.put id { client with conn := flushed.conn } flushed.calls with
          phase := .handling rest }

theorem writeBack_writes {loop after : EventLoop} {event : EpollEvent}
    {rest : List EpollEvent} {answers : List Answer}
    (ran : loop.writeBack event rest answers = some after) :
    ∃ id client flushed, loop.connections event.fd = some id ∧
      loop.heap id = some client ∧
      client.conn.flushWrite answers = some flushed ∧ flushed.rest = [] ∧
      Writes loop event rest id client flushed after := by
  rcases Option.bind_eq_some_iff.1 ran with ⟨⟨id, client⟩, found, ran⟩
  rcases find_eq_some_iff.1 found with ⟨keyed, heap⟩
  rcases Option.bind_eq_some_iff.1 ran with ⟨flushed, flush, ran⟩
  refine ⟨id, client, flushed, keyed, heap, flush, ?_⟩
  dsimp only at ran
  split_ifs at ran with unused nothing
  · cases ran
    exact ⟨not_not.1 unused, .drained nothing⟩
  · cases ran
    exact ⟨not_not.1 unused, .partly nothing⟩

/-- What one round of `drain_pending_writes` does. -/
inductive Drains (loop : EventLoop) (rest : List EpollEvent)
    (answers : List Answer) : EventLoop → Prop where
  | finishes (empty : loop.pendingWrites.queue = []) :
      Drains loop rest answers { loop with phase := .handling rest }
  /-- The connection has closed, or there is none. -/
  | discards (pw : PendingWrite) (queue : TaskQueue PendingWrite)
      (popped : loop.pendingWrites.queue = pw :: queue.queue)
      (gone : ∀ id client, loop.deref pw.conn = some (id, client) →
        client.conn.isAlive = false) :
      Drains loop rest answers { loop with pendingWrites := queue }
  | delivers (pw : PendingWrite) (queue : TaskQueue PendingWrite)
      (popped : loop.pendingWrites.queue = pw :: queue.queue)
      (id : Nat) (client : Client) (flushed : Connection.Flushed)
      (named : pw.conn = some id) (found : loop.heap id = some client)
      (alive : client.conn.isAlive = true)
      (delivered : pw.deliver client.conn answers = some flushed)
      (used : flushed.rest = [])
      (after : EventLoop)
      (next : after =
        { loop.put id
            { client with
              conn := flushed.conn
              answered := client.answered + 1 }
            flushed.calls with
          pendingWrites := queue }) :
      Drains loop rest answers
        (if 0 < flushed.remaining then
          after.modify flushed.conn.socket writeMask (.draining rest)
        else
          after)

theorem drainOne_drains {loop after : EventLoop} {rest : List EpollEvent}
    {answers : List Answer} (ran : loop.drainOne rest answers = some after) :
    Drains loop rest answers after := by
  unfold drainOne at ran
  split at ran
  case h_1 queue took =>
    cases ran
    exact .finishes ((TaskQueue.tryPop_eq took).2 rfl)
  case h_2 queue pw took =>
    have popped := (TaskQueue.tryPop_eq took).1
    dsimp only at ran
    split at ran
    case h_1 unknown =>
      cases ran
      refine .discards pw queue popped fun id client found => ?_
      rw [unknown] at found
      cases found
    case h_2 id client found =>
      rcases deref_eq_some_iff.1 found with ⟨named, heap⟩
      split_ifs at ran with alive
      · rcases Option.bind_eq_some_iff.1 ran with ⟨flushed, delivered, ran⟩
        have used : flushed.rest = [] := by
          by_contra unused
          rw [if_pos unused] at ran
          cases ran
        rw [if_neg (not_not.2 used)] at ran
        have drains : Drains loop rest answers _ :=
          .delivers pw queue popped id client flushed named heap alive
            delivered used _ rfl
        split_ifs at ran with left
        · cases ran
          rw [if_pos left] at drains
          exact drains
        · cases ran
          rw [if_neg left] at drains
          exact drains
      · cases ran
        refine .discards pw queue popped fun other entry known => ?_
        rw [found, Option.some.injEq, Prod.mk.injEq] at known
        rw [← known.2]
        simpa using alive

/-- A task ends: it throws, or posts a response. -/
inductive Finishes (loop : EventLoop) (index : Nat) : EventLoop → Prop where
  | throws (id : Nat) (task : loop.tasks[index]? = some id) :
      Finishes loop index { loop with tasks := loop.tasks.eraseIdx index }
  | posts (id : Nat) (task : loop.tasks[index]? = some id)
      (pw : PendingWrite) (named : pw.conn = some id)
      (queue : TaskQueue PendingWrite) (accepted : Bool)
      (pushed : loop.pendingWrites.push pw = some (queue, accepted)) :
      Finishes loop index
        { loop with
          tasks := loop.tasks.eraseIdx index
          pendingWrites := queue }

theorem finished_finishes {loop after : EventLoop} {index : Nat}
    {response : Option PendingWrite}
    (ran : loop.finished index response = some after) :
    Finishes loop index after := by
  rcases Option.bind_eq_some_iff.1 ran with ⟨id, task, ran⟩
  cases response with
  | none =>
      cases ran
      exact .throws id task
  | some pw =>
      rcases Option.map_eq_some_iff.1 ran with
        ⟨⟨queue, accepted⟩, pushed, rfl⟩
      exact .posts id task _ rfl queue accepted pushed

/-! ## The connection that a step works on -/

/-- One connection has changed, and the table of connections has not. -/
structure Replaces (before after : EventLoop) (id : Nat) (moved : Client) :
    Prop where
  heap : after.heap = Function.update before.heap id (some moved)
  nextConnId : after.nextConnId = before.nextConnId
  connections : after.connections = before.connections

theorem Replaces.put (loop : EventLoop) (id : Nat) (moved : Client)
    (calls : List Call) : Replaces loop (loop.put id moved calls) id moved :=
  ⟨rfl, rfl, rfl⟩

theorem Replaces.modify {before after : EventLoop} {id : Nat} {moved : Client}
    (replaces : Replaces before after id moved) (socket : Option Fd)
    (events : Events) (next : Phase) :
    Replaces before (after.modify socket events next) id moved := by
  unfold EventLoop.modify
  split <;>
    exact ⟨replaces.heap, replaces.nextConnId, replaces.connections⟩

/-- The events of a connection are modified if something is left to send. -/
theorem Replaces.modify_if {before after : EventLoop} {id : Nat}
    {moved : Client} (replaces : Replaces before after id moved)
    (remaining : Nat) (socket : Option Fd) (events : Events) (next : Phase) :
    Replaces before
      (if 0 < remaining then after.modify socket events next else after) id
      moved := by
  split_ifs
  · exact replaces.modify socket events next
  · exact replaces

theorem Replaces.heap_self {before after : EventLoop} {id : Nat}
    {moved : Client} (replaces : Replaces before after id moved) :
    after.heap id = some moved := by
  rw [replaces.heap, Function.update_self]

theorem Replaces.heap_of_ne {before after : EventLoop} {id other : Nat}
    {moved : Client} (replaces : Replaces before after id moved)
    (different : other ≠ id) : after.heap other = before.heap other := by
  rw [replaces.heap, Function.update_of_ne different]

/-- The read callback posts nothing, or a response without a file. -/
theorem called_replaces {loop after : EventLoop} {id : Nat} {client : Client}
    (ran : loop.called id client = some after) :
    (∃ moved : Client, Replaces loop after id moved ∧
        moved.conn = (readCallback client.conn client.parser).1) ∧
      (after.pendingWrites = loop.pendingWrites ∨
        ∃ data accepted,
          loop.pendingWrites.push { conn := some id, data := data } =
            some (after.pendingWrites, accepted)) := by
  unfold called at ran
  dsimp only at ran
  split at ran
  case h_1 =>
    cases ran
    exact ⟨⟨_, .put _ _ _ _, rfl⟩, Or.inl rfl⟩
  case h_2 data _ =>
    rcases Option.map_eq_some_iff.1 ran with
      ⟨⟨queue, accepted⟩, pushed, rfl⟩
    exact ⟨⟨_, ⟨rfl, rfl, rfl⟩, rfl⟩,
      Or.inr ⟨data, accepted, pushed⟩⟩
  case h_3 =>
    cases ran
    exact ⟨⟨_, ⟨rfl, rfl, rfl⟩, rfl⟩, Or.inl rfl⟩

/-- A round of `on_readable`, with the read callback if there are bytes. -/
theorem readSome_replaces {loop after : EventLoop} {event : EpollEvent}
    {rest : List EpollEvent} {received : Received}
    (ran : loop.readSome event rest received = some after) :
    ∃ id client, loop.find event.fd = some (id, client) ∧
      (∃ moved : Client, Replaces loop after id moved ∧
        moved.conn =
          if (client.conn.readOnce received).2.2 = .callback then
            (readCallback (client.conn.readOnce received).1 client.parser).1
          else
            (client.conn.readOnce received).1) ∧
      (after.pendingWrites = loop.pendingWrites ∨
        ∃ data accepted,
          loop.pendingWrites.push { conn := some id, data := data } =
            some (after.pendingWrites, accepted)) := by
  rcases Option.bind_eq_some_iff.1 ran with ⟨⟨id, client⟩, found, ran⟩
  refine ⟨id, client, found, ?_⟩
  dsimp only at ran
  generalize client.conn.readOnce received = read at ran
  cases reading : read.2.2 with
  | callback =>
      simp only [reading] at ran
      rcases called_replaces ran with ⟨⟨moved, replaces, conn⟩, queued⟩
      refine ⟨⟨moved, ⟨?_, replaces.nextConnId, replaces.connections⟩,
        ?_⟩, queued⟩
      · rw [replaces.heap]
        exact Function.update_idem _ _ _
      · rw [if_pos rfl]
        exact conn
  | retry | blocked | closed =>
      simp only [reading, Option.some.injEq] at ran
      subst ran
      refine ⟨⟨_, ⟨rfl, rfl, rfl⟩, ?_⟩, Or.inl rfl⟩
      rw [if_neg fun same => by cases same]

theorem Writes.replaces {loop after : EventLoop} {event : EpollEvent}
    {rest : List EpollEvent} {id : Nat} {client : Client}
    {flushed : Connection.Flushed}
    (writes : Writes loop event rest id client flushed after) :
    Replaces loop after id { client with conn := flushed.conn } := by
  cases writes with
  | drained => exact (Replaces.put _ _ _ _).modify _ _ _
  | partly => exact ⟨rfl, rfl, rfl⟩

/-- What a step does. -/
inductive Effect (loop : EventLoop) : Action → EventLoop → Prop where
  | wait (batch : List EpollEvent) (waiting : loop.phase = .waiting)
      (reported : loop.kernel.Reports batch) :
      Effect loop (.wait batch) { loop with phase := .handling batch }
  | accept (clients : List Fd) (last : Refusal) (event : EpollEvent)
      (rest : List EpollEvent) (phase : loop.phase = .handling (event :: rest))
      (listening : event.fd = loop.listenFd) (next : EventLoop)
      (accepted : loop.acceptAll clients = some next) :
      Effect loop (.accept clients last) { next with phase := last.next rest }
  | handle (event : EpollEvent) (rest : List EpollEvent)
      (phase : loop.phase = .handling (event :: rest))
      (other : event.fd ≠ loop.listenFd) (after : EventLoop)
      (handles : Handles loop event rest after) : Effect loop .handle after
  | recv (received : Received) (event : EpollEvent) (rest : List EpollEvent)
      (phase : loop.phase = .reading event rest) (id : Nat) (client : Client)
      (keyed : loop.connections event.fd = some id)
      (found : loop.heap id = some client) (after : EventLoop)
      (reads : Reads loop event rest received id client after) :
      Effect loop (.recv received) after
  | write (answers : List Answer) (event : EpollEvent)
      (rest : List EpollEvent) (phase : loop.phase = .writing event rest)
      (id : Nat) (client : Client) (flushed : Connection.Flushed)
      (keyed : loop.connections event.fd = some id)
      (found : loop.heap id = some client)
      (flush : client.conn.flushWrite answers = some flushed)
      (used : flushed.rest = []) (after : EventLoop)
      (writes : Writes loop event rest id client flushed after) :
      Effect loop (.write answers) after
  | drain (answers : List Answer) (rest : List EpollEvent)
      (phase : loop.phase = .draining rest) (after : EventLoop)
      (drains : Drains loop rest answers after) :
      Effect loop (.drain answers) after
  | reap (phase : loop.phase = .handling []) : Effect loop .reap loop.reaped
  | work (index : Nat) (response : Option PendingWrite) (after : EventLoop)
      (finishes : Finishes loop index after) :
      Effect loop (.work index response) after
  | stop : Effect loop .stop { loop with running := false }

theorem step_effect {loop after : EventLoop} {action : Action}
    (stepped : machine.step loop action = some after) :
    Effect loop action after := by
  have stepped : loop.step action = some after := stepped
  cases action with
  | wait batch =>
      simp only [step] at stepped
      split_ifs at stepped with ready
      cases stepped
      exact .wait batch ready.1 ready.2.2.2
  | accept clients last =>
      simp only [step] at stepped
      split at stepped
      case h_1 event rest phase =>
        split_ifs at stepped with listening
        rcases Option.map_eq_some_iff.1 stepped with ⟨next, accepted, rfl⟩
        exact .accept clients last event rest phase listening next accepted
      case h_2 => cases stepped
  | handle =>
      simp only [step] at stepped
      split at stepped
      case h_1 event rest phase =>
        split_ifs at stepped with listening
        cases stepped
        exact .handle event rest phase listening _ (handleEvent_handles ..)
      case h_2 => cases stepped
  | recv received =>
      simp only [step] at stepped
      split at stepped
      case h_1 event rest phase =>
        rcases readSome_reads stepped with ⟨id, client, keyed, found, reads⟩
        exact .recv received event rest phase id client keyed found after reads
      case h_2 => cases stepped
  | write answers =>
      simp only [step] at stepped
      split at stepped
      case h_1 event rest phase =>
        rcases writeBack_writes stepped with
          ⟨id, client, flushed, keyed, found, flush, used, writes⟩
        exact .write answers event rest phase id client flushed keyed found
          flush used after writes
      case h_2 => cases stepped
  | drain answers =>
      simp only [step] at stepped
      split at stepped
      case h_1 rest phase =>
        exact .drain answers rest phase after (drainOne_drains stepped)
      case h_2 => cases stepped
  | reap =>
      simp only [step] at stepped
      split at stepped
      case h_1 phase =>
        cases stepped
        exact .reap phase
      case h_2 => cases stepped
  | work index response =>
      exact .work index response after (finished_finishes stepped)
  | stop =>
      cases stepped
      exact .stop

end EventLoop

end Cppws.App
