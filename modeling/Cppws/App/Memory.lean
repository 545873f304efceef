import Cppws.App.Ownership
import Cppws.Net.Growth

/-!
# The buffers of the server

The event loop with the most bytes that each connection has had to send at a
time.  The callback of `main.cpp` takes everything that was read, so that a read
buffer always has all of its room and never grows.  A write buffer is as large
as that most of bytes needs it to be, by doublings from the capacity it begins
with, and no larger.
-/

namespace Cppws.Net

/-- Growing in two steps is growing to the larger of two sizes. -/
theorem isLeast_sufficient {first capacity later least needed : Nat}
    (positive : 0 < first)
    (grown : IsLeast (Sufficient first least) capacity)
    (further : IsLeast (Sufficient capacity needed) later) :
    IsLeast (Sufficient first (max least needed)) later := by
  rcases grown with ⟨⟨⟨doublings, rfl⟩, enough⟩, smallest⟩
  rcases further with ⟨⟨⟨others, rfl⟩, more⟩, tightest⟩
  have larger : first * 2 ^ doublings ≤ first * 2 ^ doublings * 2 ^ others :=
    Nat.le_mul_of_pos_right _ (Nat.two_pow_pos others)
  refine ⟨⟨⟨doublings + others, ?_⟩,
    max_le (enough.trans larger) more⟩, ?_⟩
  · rw [Nat.mul_assoc, ← Nat.pow_add]
  · rintro _ ⟨⟨count, rfl⟩, holds⟩
    have above := smallest ⟨⟨count, rfl⟩, (le_max_left _ _).trans holds⟩
    have order : doublings ≤ count :=
      (Nat.pow_le_pow_iff_right Nat.one_lt_two).1
        (Nat.le_of_mul_le_mul_left above positive)
    apply tightest
    refine ⟨⟨count - doublings, ?_⟩, (le_max_right _ _).trans holds⟩
    rw [Nat.mul_assoc, ← Nat.pow_add, Nat.add_sub_cancel' order]

namespace Connection

/-- The buffers with the room they have, up to what is to be sent. -/
structure SameBuffers (before after : Connection) : Prop where
  readBuf : after.readBuf = before.readBuf
  capacity : after.writeBuf.capacity = before.writeBuf.capacity

theorem SameBuffers.refl (conn : Connection) : SameBuffers conn conn :=
  ⟨rfl, rfl⟩

theorem SameBuffers.trans {first second third : Connection}
    (one : SameBuffers first second) (two : SameBuffers second third) :
    SameBuffers first third :=
  ⟨two.readBuf.trans one.readBuf, two.capacity.trans one.capacity⟩

theorem SameBuffers.onClosed (conn : Connection) :
    SameBuffers conn conn.onClosed.1 := by
  unfold Connection.onClosed
  split
  · exact .refl conn
  · exact ⟨rfl, rfl⟩

theorem SameBuffers.settle (conn : Connection) :
    SameBuffers conn conn.settle.1 := by
  unfold Connection.settle
  split
  · exact ⟨rfl, rfl⟩
  · exact .refl conn

theorem SameBuffers.finish {conn : Connection} {ended : Flushing}
    (same : SameBuffers conn ended.conn) :
    SameBuffers conn ended.finish.conn := by
  unfold Flushing.finish
  split
  · exact same
  · exact same.trans (.settle ended.conn)

theorem SendRounds.sameBuffers {conn : Connection} {answers : List Answer}
    {ended : Flushing} (rounds : SendRounds conn answers ended) :
    SameBuffers conn ended.conn := by
  induction rounds with
  | drained => exact .refl _
  | @took conn answer rest ended n full replied later ih =>
      have sent : SameBuffers conn (conn.sent n) := ⟨rfl, rfl⟩
      exact sent.trans ih
  | again => exact .refl _
  | retry full replied later ih => exact ih
  | fails => exact .onClosed _

theorem SendfileRounds.sameBuffers {conn : Connection} {answers : List Answer}
    {ended : Flushing} (rounds : SendfileRounds conn answers ended) :
    SameBuffers conn ended.conn := by
  induction rounds with
  | drained => exact .refl _
  | atEof => exact .refl _
  | @took conn answer rest ended op n found active replied more later ih =>
      have advanced : SameBuffers conn
          { conn with
            sendfileOp := some (op.advance (op.chunk n).length) } :=
        ⟨rfl, rfl⟩
      exact advanced.trans ih
  | again => exact .refl _
  | retry found active replied later ih => exact ih
  | fails => exact .onClosed _

/-- Sending neither grows the buffers nor touches the one for reading. -/
theorem SameBuffers.flushWrite {conn : Connection} {answers : List Answer}
    {flushed : Flushed} (ran : conn.flushWrite answers = some flushed) :
    SameBuffers conn flushed.conn := by
  cases flushWrite_phases ran with
  | first headers sent => exact (sendLoop_rounds sent).sameBuffers.finish
  | both headers body sent flow filed =>
      have both : SameBuffers conn (body.after headers.calls).conn :=
        (sendLoop_rounds sent).sameBuffers.trans
          (sendfileLoop_rounds filed).sameBuffers
      exact both.finish

/-- A read buffer of its first size with all of its room. -/
structure Afresh (conn : Connection) : Prop where
  capacity : conn.readBuf.capacity = defaultCapacity
  room : conn.readBuf.writableBytes = defaultCapacity

theorem Afresh.congr {before after : Connection} (afresh : before.Afresh)
    (readBuf : after.readBuf = before.readBuf) : after.Afresh := by
  constructor
  · rw [readBuf, afresh.capacity]
  · rw [readBuf, afresh.room]

/-- Nothing is left to be read. -/
theorem Afresh.readable {conn : Connection} (afresh : conn.Afresh) :
    conn.readBuf.readable = [] := by
  have room := afresh.room
  have ordered := conn.readBuf.ordered
  have within := conn.readBuf.within
  rw [Buffer.writableBytes, afresh.capacity] at room
  rw [afresh.capacity] at within
  rw [← List.length_eq_zero_iff, Buffer.readable_length, Buffer.readableBytes]
  omega

/-- There is room to read, so that nothing has to be compacted. -/
theorem Afresh.readOnce_eq {conn : Connection} (afresh : conn.Afresh)
    (received : Received) : conn.readOnce received = conn.recv received := by
  have roomy : conn.readBuf.writableBytes ≠ 0 := by
    rw [afresh.room]
    decide
  rw [readOnce, roomToRead, if_neg roomy]

/-- What is read changes nothing but the read buffer, and not its size. -/
theorem recv_buffers (conn : Connection) (received : Received) :
    (conn.recv received).1.readBuf.capacity = conn.readBuf.capacity ∧
      (conn.recv received).1.writeBuf.capacity = conn.writeBuf.capacity ∧
      ((conn.recv received).2.2 ≠ .callback →
        (conn.recv received).1.readBuf = conn.readBuf) := by
  have closed := SameBuffers.onClosed conn
  have shut : conn.onClosed.1.readBuf.capacity = conn.readBuf.capacity ∧
      conn.onClosed.1.writeBuf.capacity = conn.writeBuf.capacity ∧
      (Reading.closed ≠ .callback →
        conn.onClosed.1.readBuf = conn.readBuf) :=
    ⟨congrArg Buffer.capacity closed.readBuf, closed.capacity,
      fun _ => closed.readBuf⟩
  unfold recv
  cases conn.receives received with
  | data first rest => exact ⟨rfl, rfl, fun other => absurd rfl other⟩
  | eof => exact shut
  | failed errno =>
      cases errno with
      | again | intr => exact ⟨rfl, rfl, fun _ => rfl⟩
      | connreset | pipe | other => exact shut

end Connection

end Cppws.Net

namespace Cppws.App

open Cppws.Core
open Cppws.Http
open Cppws.Net

/-- The callback takes all that was read. -/
theorem readCallback_buffers (conn : Connection) (parser : HttpParser) :
    (readCallback conn parser).1.readBuf = conn.readBuf.consumeAll ∧
      (readCallback conn parser).1.writeBuf = conn.writeBuf := by
  unfold readCallback
  dsimp only
  split <;> exact ⟨rfl, rfl⟩

/-- A round of `on_readable` with its callback. -/
theorem readSome_buffers {conn : Connection} (afresh : conn.Afresh)
    (received : Received) (parser : HttpParser) {moved : Connection}
    (read : moved =
      if (conn.readOnce received).2.2 = .callback then
        (readCallback (conn.readOnce received).1 parser).1
      else
        (conn.readOnce received).1) :
    moved.Afresh ∧ moved.writeBuf.capacity = conn.writeBuf.capacity := by
  rcases conn.recv_buffers received with ⟨size, capacity, kept⟩
  rw [afresh.readOnce_eq] at read
  split_ifs at read with called
  · rcases readCallback_buffers (conn.recv received).1 parser with
      ⟨readBuf, writeBuf⟩
    rw [read]
    refine ⟨⟨?_, ?_⟩, by rw [writeBuf, capacity]⟩
    · rw [readBuf, Buffer.consumeAll_capacity, size, afresh.capacity]
    · rw [readBuf]
      exact size.trans afresh.capacity
  · rw [read]
    exact ⟨afresh.congr (kept called), capacity⟩

/-! ## The most that is to be sent -/

/-- The event loop with the most bytes each write buffer has held. -/
structure Memory where
  loop : EventLoop
  peak : Nat → Nat := fun _ => 0

namespace Memory

/-- The connection a response is enqueued for, with the bytes it then holds. -/
def enqueued (loop : EventLoop) : EventLoop.Action → Option (Nat × Nat)
  | .drain _ => do
      let pw ← loop.pendingWrites.queue.head?
      let found ← loop.deref pw.conn
      if found.2.conn.isAlive then
        some (found.1, found.2.conn.writeBuf.readableBytes + pw.data.length)
      else
        none
  | _ => none

def step (memory : Memory) (action : EventLoop.Action) : Option Memory :=
  (memory.loop.step action).map fun next =>
    { loop := next
      peak :=
        match enqueued memory.loop action with
        | some (id, held) =>
            Function.update memory.peak id (max (memory.peak id) held)
        | none => memory.peak }

def machine : Machine Memory EventLoop.Action where
  step := step

/-- The event loop when `run` begins. -/
def start (listenFd wakeupFd : Fd) : Memory where
  loop := .start listenFd wakeupFd

/-- The buffers of a connection are as large as they have to be, as long as the
numbers are ones of 64 bits. -/
structure Sized (peak : Nat) (conn : Connection) : Prop where
  afresh : conn.Afresh
  least : peak ≤ 2 ^ 62 →
    IsLeast (Sufficient Net.defaultCapacity peak) conn.writeBuf.capacity

/-- The invariant of the buffers of all connections. -/
structure Kept (memory : Memory) : Prop where
  numbered : ∀ id, (memory.loop.heap id).isSome →
    id < memory.loop.nextConnId
  unused : ∀ id, memory.loop.nextConnId ≤ id → memory.peak id = 0
  sized : ∀ id client, memory.loop.heap id = some client →
    Sized (memory.peak id) client.conn

theorem Sized.congr {peak : Nat} {before after : Connection}
    (sized : Sized peak before) (afresh : after.Afresh)
    (capacity : after.writeBuf.capacity = before.writeBuf.capacity) :
    Sized peak after :=
  ⟨afresh, fun small => capacity ▸ sized.least small⟩

theorem sized_opened (fd : Fd) (id : Nat) : Sized 0 (.opened fd id) := by
  refine ⟨⟨rfl, rfl⟩, fun _ =>
    ⟨⟨⟨0, rfl⟩, Nat.zero_le _⟩, ?_⟩⟩
  rintro _ ⟨⟨doublings, rfl⟩, _⟩
  exact Nat.le_mul_of_pos_right _ (Nat.two_pow_pos doublings)

/-- Neither the connections nor their peaks have changed. -/
theorem Kept.congr {memory : Memory} (kept : memory.Kept) {loop : EventLoop}
    (heap : loop.heap = memory.loop.heap)
    (nextConnId : loop.nextConnId = memory.loop.nextConnId) :
    Kept { memory with loop := loop } := by
  constructor
  · rw [heap, nextConnId]
    exact kept.numbered
  · rw [nextConnId]
    exact kept.unused
  · rw [heap]
    exact kept.sized

/-- One connection has changed, and perhaps its peak. -/
theorem Kept.replaces {memory : Memory} (kept : memory.Kept) {loop : EventLoop}
    {id peak : Nat} {client moved : Client}
    (found : memory.loop.heap id = some client)
    (replaces : EventLoop.Replaces memory.loop loop id moved)
    (sized : Sized peak moved.conn) :
    Kept { loop := loop, peak := Function.update memory.peak id peak } := by
  have known : id < memory.loop.nextConnId :=
    kept.numbered id (by rw [found]; rfl)
  constructor
  · intro other present
    rw [replaces.nextConnId]
    by_cases same : other = id
    · exact same ▸ known
    · rw [replaces.heap_of_ne same] at present
      exact kept.numbered other present
  · intro other later
    have later : memory.loop.nextConnId ≤ other :=
      replaces.nextConnId ▸ later
    show Function.update memory.peak id peak other = 0
    rw [Function.update_of_ne (by omega)]
    exact kept.unused other later
  · intro other client' found'
    by_cases same : other = id
    · subst same
      rw [replaces.heap_self, Option.some.injEq] at found'
      show Sized (Function.update memory.peak other peak other) client'.conn
      rw [Function.update_self]
      exact found' ▸ sized
    · rw [replaces.heap_of_ne same] at found'
      show Sized (Function.update memory.peak id peak other) client'.conn
      rw [Function.update_of_ne same]
      exact kept.sized other client' found'

/-- The buffers of the connection that has changed are as large as before. -/
theorem Kept.moved {memory : Memory} (kept : memory.Kept) {loop : EventLoop}
    {id : Nat} {client moved : Client}
    (found : memory.loop.heap id = some client)
    (replaces : EventLoop.Replaces memory.loop loop id moved)
    (afresh : moved.conn.Afresh)
    (capacity : moved.conn.writeBuf.capacity =
      client.conn.writeBuf.capacity) :
    Kept { memory with loop := loop } := by
  have sized := (kept.sized id client found).congr afresh capacity
  have again := kept.replaces found replaces sized
  rwa [Function.update_eq_self] at again

theorem Kept.acceptOne {memory : Memory} (kept : memory.Kept) {fd : Fd}
    {loop : EventLoop} (accepted : memory.loop.acceptOne fd = some loop) :
    Kept { memory with loop := loop } := by
  rcases EventLoop.acceptOne_accepts accepted with ⟨accepts, counted, _⟩
  have unused : ∀ id, loop.nextConnId ≤ id → memory.peak id = 0 := by
    intro id later
    exact kept.unused id (by omega)
  cases accepts with
  | stored _ _ _ heap =>
      refine ⟨?_, unused, ?_⟩
      · intro id present
        show id < loop.nextConnId
        by_cases new : id = memory.loop.nextConnId
        · omega
        · have present : (loop.heap id).isSome := present
          rw [heap, Function.update_of_ne new] at present
          have known := kept.numbered id present
          omega
      · intro id client found
        have found : loop.heap id = some client := found
        rw [heap] at found
        by_cases new : id = memory.loop.nextConnId
        · rw [new, Function.update_self, Option.some.injEq] at found
          show Sized (memory.peak id) client.conn
          rw [kept.unused id new.ge, ← found]
          exact sized_opened fd _
        · rw [Function.update_of_ne new] at found
          exact kept.sized id client found
  | dropped _ _ _ _ heap =>
      refine ⟨?_, unused, ?_⟩
      · intro id present
        have present : (loop.heap id).isSome := present
        rw [heap] at present
        have known := kept.numbered id present
        show id < loop.nextConnId
        omega
      · intro id client found
        exact kept.sized id client (heap ▸ found)

theorem Kept.acceptAll {clients : List Fd} {memory : Memory}
    (kept : memory.Kept) {loop : EventLoop}
    (accepted : memory.loop.acceptAll clients = some loop) :
    Kept { memory with loop := loop } := by
  induction clients generalizing memory with
  | nil =>
      cases accepted
      exact kept
  | cons fd rest ih =>
      rcases Option.bind_eq_some_iff.1 accepted with ⟨next, first, accepted⟩
      have later := ih (kept.acceptOne first) accepted
      exact later

/-- The buffers of a connection once a response has been enqueued. -/
theorem Sized.enqueues {peak : Nat} {conn : Connection}
    (sized : Sized peak conn) {pw : PendingWrite} {answers : List Answer}
    {flushed : Connection.Flushed}
    (delivered : pw.deliver conn answers = some flushed) :
    Sized (max peak (conn.writeBuf.readableBytes + pw.data.length))
      flushed.conn := by
  rcases PendingWrite.deliver_flushWrite delivered with
    ⟨calls, -, -, flush, rfl, ran⟩
  have same := Connection.SameBuffers.flushWrite ran
  have readBuf : (pw.handedOver conn).readBuf = conn.readBuf := by
    unfold PendingWrite.handedOver
    cases pw.fileFd <;> rfl
  have capacity : (pw.handedOver conn).writeBuf.capacity =
      (conn.roomToWrite pw.data.length).capacity := by
    unfold PendingWrite.handedOver
    cases pw.fileFd <;> exact Buffer.append_capacity _ _ _
  refine ⟨sized.afresh.congr (same.readBuf.trans readBuf), fun small => ?_⟩
  rw [same.capacity, capacity]
  rw [max_le_iff] at small
  have grows : Grows pw.data.length conn.writeBuf
      (conn.roomToWrite pw.data.length) :=
    .makeRoom (conn.roomToWrite_fits _) small.2
  exact isLeast_sufficient (by decide) (sized.least small.1) grows.least

theorem Kept.step {before after : Memory} {action : EventLoop.Action}
    (kept : before.Kept) (stepped : machine.step before action = some after) :
    after.Kept := by
  rcases Option.map_eq_some_iff.1 stepped with ⟨next, moved, rfl⟩
  cases EventLoop.step_effect moved with
  | wait | reap | stop => exact kept.congr rfl rfl
  | accept clients last event rest phase listening loop accepted =>
      exact (kept.acceptAll accepted).congr rfl rfl
  | handle event rest phase other _ handles =>
      cases handles with
      | closes id client keyed found closed =>
          have same := Connection.SameBuffers.onClosed client.conn
          have afresh := (kept.sized id client found).afresh
          exact kept.moved found ⟨rfl, rfl, rfl⟩ (afresh.congr same.readBuf)
            same.capacity
      | wakeup | stale | reads | writes | ignores => exact kept.congr rfl rfl
  | recv received event rest phase =>
      have moved : before.loop.readSome event rest received = some next := by
        simpa only [EventLoop.step, phase] using moved
      rcases EventLoop.readSome_replaces moved with
        ⟨id, client, found, ⟨changed, replaces, read⟩, -⟩
      have found := (EventLoop.find_eq_some_iff.1 found).2
      have afresh := (kept.sized id client found).afresh
      rcases readSome_buffers afresh received client.parser read with
        ⟨afresh, capacity⟩
      exact kept.moved found replaces afresh capacity
  | write answers event rest phase id client flushed keyed found flush used _
      writes =>
      have same := Connection.SameBuffers.flushWrite flush
      have afresh := (kept.sized id client found).afresh
      exact kept.moved found writes.replaces (afresh.congr same.readBuf)
        same.capacity
  | drain answers rest phase _ drains =>
      cases drains with
      | finishes empty =>
          simp only [enqueued, empty, List.head?_nil]
          exact kept.congr rfl rfl
      | discards pw queue popped gone =>
          have nothing : enqueued before.loop (.drain answers) = none := by
            rw [enqueued, popped]
            cases known : before.loop.deref pw.conn with
            | none => simp [known]
            | some found => simp [known, gone found.1 found.2 known]
          rw [nothing]
          exact kept.congr rfl rfl
      | delivers pw queue popped id client flushed named found alive delivered
          used after same =>
          have something : enqueued before.loop (.drain answers) =
              some (id,
                client.conn.writeBuf.readableBytes + pw.data.length) := by
            have known := EventLoop.deref_eq_some_iff.2 ⟨named, found⟩
            rw [enqueued, popped]
            simp [known, alive]
          rw [something]
          have replaces : EventLoop.Replaces before.loop after id
              { client with
                conn := flushed.conn
                answered := client.answered + 1 } := by
            rw [same]
            exact ⟨rfl, rfl, rfl⟩
          exact kept.replaces found (replaces.modify_if _ _ _ _)
            ((kept.sized id client found).enqueues delivered)
  | work index response _ finishes =>
      cases finishes <;> exact kept.congr rfl rfl

theorem start_kept (listenFd wakeupFd : Fd) : (start listenFd wakeupFd).Kept :=
  ⟨by simp [start, EventLoop.start], fun _ _ => rfl, by
    simp [start, EventLoop.start]⟩

/-- Every run of the event loop is one with the peaks. -/
theorem run_of_loop {actions : List EventLoop.Action} {memory : Memory}
    {loop : EventLoop}
    (ran : EventLoop.machine.run memory.loop actions = some loop) :
    ∃ peak,
      machine.run memory actions = some { loop := loop, peak := peak } := by
  induction actions generalizing memory with
  | nil =>
      cases ran
      exact ⟨memory.peak, rfl⟩
  | cons action rest ih =>
      rcases Machine.run_cons_eq_some.1 ran with ⟨next, stepped, ran⟩
      have noted : ∃ peak, machine.step memory action =
          some { loop := next, peak := peak } :=
        ⟨_, Option.map_eq_some_iff.2 ⟨next, stepped, rfl⟩⟩
      rcases noted with ⟨peak, noted⟩
      rcases @ih { loop := next, peak := peak } ran with ⟨last, later⟩
      exact ⟨last, Machine.run_cons_eq_some.2 ⟨_, noted, later⟩⟩

/--
In every run of the event loop nothing is ever left in a read buffer, which
keeps its first size, so that no connection is closed for want of room in it;
and every write buffer has the least capacity, by doublings of the first one,
that holds the most bytes its connection has had to send at a time.
-/
theorem buffers_sized {listenFd wakeupFd : Fd}
    {actions : List EventLoop.Action} {loop : EventLoop}
    (ran : EventLoop.machine.run (.start listenFd wakeupFd) actions =
      some loop) :
    ∃ peak : Nat → Nat,
      machine.run (start listenFd wakeupFd) actions =
        some { loop := loop, peak := peak } ∧
      ∀ id client, loop.heap id = some client →
        client.conn.readBuf.capacity = Net.defaultCapacity ∧
        client.conn.readBuf.readable = [] ∧
        (∀ received,
          client.conn.readOnce received = client.conn.recv received) ∧
        (peak id ≤ 2 ^ 62 →
          IsLeast (Sufficient Net.defaultCapacity (peak id))
            client.conn.writeBuf.capacity) := by
  have recorded : ∃ peak, machine.run (start listenFd wakeupFd) actions =
      some { loop := loop, peak := peak } :=
    run_of_loop ran
  rcases recorded with ⟨peak, ran⟩
  refine ⟨peak, ran, ?_⟩
  have kept : Kept { loop := loop, peak := peak } :=
    Machine.Reachable.invariant ⟨actions, ran⟩
      (fun _ _ _ kept stepped => kept.step stepped)
      (start_kept listenFd wakeupFd)
  intro id client found
  rcases kept.sized id client found with ⟨afresh, least⟩
  exact ⟨afresh.capacity, afresh.readable, afresh.readOnce_eq, least⟩

/-- A response of two bytes, of which the socket takes one. -/
def partly : List EventLoop.Action :=
  EventLoop.exchange 71 (text "ET / HTTP/1.1\r\n\r\n") (text "ok") ++
    [.wait [EventLoop.readable 5], .handle, .drain [.took 1, .failed .again]]

theorem buffers_sized_partly :
    ∃ loop client, EventLoop.machine.run (.start 3 5) partly = some loop ∧
      loop.heap 0 = some client ∧ client.conn.readBuf.readable = [] ∧
      IsLeast (Sufficient Net.defaultCapacity 2)
        client.conn.writeBuf.capacity := by
  have finishes : ∃ loop,
      EventLoop.machine.run (.start 3 5) partly = some loop ∧
        (loop.heap 0).isSome = true :=
    Option.map_eq_some_iff.1 (by decide)
  rcases finishes with ⟨loop, ran, present⟩
  rcases Option.isSome_iff_exists.1 present with ⟨client, found⟩
  rcases buffers_sized ran with ⟨peak, noted, sized⟩
  have most : peak 0 = 2 := by
    have noted' := congrArg (Option.map fun memory => memory.peak 0) noted
    have computed : (machine.run (start 3 5) partly).map
        (fun memory => memory.peak 0) = some 2 := by decide
    exact Option.some.inj (noted'.symm.trans computed)
  rcases sized 0 client found with ⟨-, nothing, -, least⟩
  rw [most] at least
  exact ⟨loop, client, ran, found, nothing, least (by decide)⟩

end Memory

end Cppws.App
