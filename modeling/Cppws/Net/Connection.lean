import Cppws.Net.Buffer

/-!
# Connections

`Connection` of `net/connection.hpp` with the functions that make system calls.
What the kernel reports comes in as a list of answers, one for each call in
turn; a function that needs one more answer than it is given is still in its
call (`none`).  What the kernel is told goes out as a list of calls.  The
callbacks are parameters, and timestamps are left out.
-/

namespace Cppws.Net

open Cppws.Http (Bytes)

abbrev Fd := Nat

/-- The values of `errno` that the source tells apart. -/
inductive Errno where
  /-- `EAGAIN` or `EWOULDBLOCK`. -/
  | again
  | intr
  | connreset
  | pipe
  | other
deriving DecidableEq

/-- What `send` or `sendfile` returns. -/
inductive Answer where
  /-- At most so many bytes were taken. -/
  | took (n : Nat)
  | failed (errno : Errno)
deriving DecidableEq

/-- What `recv` returns. -/
inductive Received where
  /-- Bytes, as many of them as fit. -/
  | data (first : UInt8) (rest : Bytes)
  | eof
  | failed (errno : Errno)
deriving DecidableEq

/-- A file opened for a response. -/
structure OpenFile where
  handle : Nat
  contents : Bytes
deriving DecidableEq

/-- A call that the kernel carried out. -/
inductive Call where
  /-- `send` took these bytes. -/
  | send (bytes : Bytes)
  /-- `sendfile` took these bytes. -/
  | sendfile (bytes : Bytes)
  /-- A file descriptor of a response was closed. -/
  | closeFile (handle : Nat)
  /-- `on_close_` was called while the socket had this descriptor. -/
  | closeCallback (socket : Option Fd)
  /-- The socket was closed. -/
  | close (fd : Fd)
deriving DecidableEq

/-- The bytes a call put on the socket. -/
def Call.bytes : Call → Bytes
  | .send bytes => bytes
  | .sendfile bytes => bytes
  | _ => []

/-- The bytes put on the socket by some calls. -/
def wire (calls : List Call) : Bytes :=
  calls.flatMap Call.bytes

structure SendfileOp where
  file : OpenFile
  offset : Nat
  /-- An `off_t` that begins with the size of a file, which is not negative. -/
  remaining : Nat

namespace SendfileOp

def start (file : OpenFile) (size : Nat) : SendfileOp where
  file := file
  offset := 0
  remaining := size

def active (op : SendfileOp) : Bool :=
  0 < op.remaining

/-- What is still to be sent of the file. -/
def rest (op : SendfileOp) : Bytes :=
  (op.file.contents.drop op.offset).take op.remaining

/-- What `sendfile` sends if the socket takes `n` bytes. -/
def chunk (op : SendfileOp) (n : Nat) : Bytes :=
  op.rest.take n

def advance (op : SendfileOp) (n : Nat) : SendfileOp :=
  { op with offset := op.offset + n, remaining := op.remaining - n }

end SendfileOp

/-- The destructor of `SendfileOp`. -/
def releaseFile : Option SendfileOp → List Call
  | some op => [.closeFile op.file.handle]
  | none => []

inductive ConnState where
  | reading
  | writing
  | closing
  | closed
deriving DecidableEq

structure Connection where
  socket : Option Fd
  id : Nat
  state : ConnState := .reading
  readBuf : Buffer
  writeBuf : Buffer
  sendfileOp : Option SendfileOp := none
  keepAlive : Bool := true
  growable : 0 < writeBuf.capacity

namespace Connection

/-- A connection on a socket just accepted. -/
def opened (socket : Fd) (id : Nat) : Connection where
  socket := some socket
  id := id
  readBuf := .ofCapacity defaultCapacity
  writeBuf := .ofCapacity defaultCapacity
  growable := by decide

def isAlive (conn : Connection) : Bool :=
  conn.state != .closed

def setKeepAlive (conn : Connection) (val : Bool) : Connection :=
  { conn with keepAlive := val }

def onClosed (conn : Connection) : Connection × List Call :=
  if conn.state = .closed then
    (conn, [])
  else
    ({ conn with state := .closed, sendfileOp := none, socket := none },
      releaseFile conn.sendfileOp ++
        .closeCallback conn.socket :: conn.socket.toList.map .close)

/-! ## Read path -/

/-- What one round of the loop in `on_readable` comes to. -/
inductive Reading where
  /-- Bytes were read and `on_read_` is called. -/
  | callback
  | retry
  | blocked
  | closed
deriving DecidableEq

/-- `recv` on an invalid descriptor fails. -/
def receives (conn : Connection) (received : Received) : Received :=
  if conn.socket = none then .failed .other else received

/-- Make room in `read_buf_` if there is none. -/
def roomToRead (conn : Connection) : Option Connection :=
  if conn.readBuf.writableBytes = 0 then
    let compacted := conn.readBuf.compact
    if compacted.2 = 0 then
      none
    else
      some { conn with readBuf := compacted.1 }
  else
    some conn

/-- A buffer that has room stays as it is. -/
theorem roomToRead_eq_some {conn roomy : Connection}
    (made : conn.roomToRead = some roomy) :
    ∃ readBuf, roomy = { conn with readBuf := readBuf } ∧
      (0 < conn.readBuf.writableBytes → readBuf = conn.readBuf) := by
  simp only [roomToRead] at made
  split_ifs at made with full
  · cases made
    exact ⟨_, rfl, fun room => absurd full (Nat.ne_of_gt room)⟩
  · cases made
    exact ⟨conn.readBuf, rfl, fun _ => rfl⟩

/-- One `recv` after room has been made. -/
def recv (conn : Connection) (received : Received) :
    Connection × List Call × Reading :=
  match conn.receives received with
  | .data first rest =>
      let bytes := (first :: rest).take conn.readBuf.writableBytes
      ({ conn with
          readBuf := conn.readBuf.append bytes (List.length_take_le _ _) },
        [], .callback)
  | .eof => (conn.onClosed.1, conn.onClosed.2, .closed)
  | .failed .again => (conn, [], .blocked)
  | .failed .intr => (conn, [], .retry)
  | .failed _ => (conn.onClosed.1, conn.onClosed.2, .closed)

/--
One round of the loop in `on_readable` up to `on_read_`.  A full buffer closes
the connection before `recv` is called.
-/
def readOnce (conn : Connection) (received : Received) :
    Connection × List Call × Reading :=
  match conn.roomToRead with
  | some roomy => roomy.recv received
  | none => (conn.onClosed.1, conn.onClosed.2, .closed)

/-- Up to its buffer, a round leaves the connection as it is or closes it. -/
theorem readOnce_closes (conn : Connection) (received : Received) :
    ∃ last : Connection,
      (∃ readBuf, last = { conn with readBuf := readBuf }) ∧
      ((conn.readOnce received).1 = last.onClosed.1 ∧
          (conn.readOnce received).2.1 = last.onClosed.2 ∨
        (conn.readOnce received).1 = last ∧
          (conn.readOnce received).2.1 = []) := by
  unfold readOnce
  cases made : conn.roomToRead with
  | none => exact ⟨conn, ⟨_, rfl⟩, Or.inl ⟨rfl, rfl⟩⟩
  | some roomy =>
      rcases roomToRead_eq_some made with ⟨readBuf, rfl, _⟩
      dsimp only
      unfold recv
      cases Connection.receives _ received with
      | data first rest => exact ⟨_, ⟨_, rfl⟩, Or.inr ⟨rfl, rfl⟩⟩
      | eof => exact ⟨_, ⟨_, rfl⟩, Or.inl ⟨rfl, rfl⟩⟩
      | failed errno =>
          cases errno with
          | again | intr => exact ⟨_, ⟨_, rfl⟩, Or.inr ⟨rfl, rfl⟩⟩
          | connreset | pipe | other =>
              exact ⟨_, ⟨_, rfl⟩, Or.inl ⟨rfl, rfl⟩⟩

/-- `on_readable` with the state its read callback works on. -/
def onReadable {σ : Type} (onRead : Connection → σ → Connection × σ)
    (conn : Connection) (state : σ) :
    List Received → Option (Connection × σ × List Call × Bool)
  | [] => none
  | received :: rest =>
      let read := conn.readOnce received
      match read.2.2 with
      | .callback =>
          let called := onRead read.1 state
          (onReadable onRead called.1 called.2 rest).map fun result =>
            (result.1, result.2.1, read.2.1 ++ result.2.2.1, result.2.2.2)
      | .retry =>
          (onReadable onRead read.1 state rest).map fun result =>
            (result.1, result.2.1, read.2.1 ++ result.2.2.1, result.2.2.2)
      | .blocked => some (read.1, state, read.2.1, true)
      | .closed => some (read.1, state, read.2.1, false)

/-! ## Write path -/

/-- The growth loop of `enqueue_write`, at most `fuel` rounds of it. -/
def makeRoom (buffer : Buffer) (len : Nat) : Nat → Buffer
  | 0 => buffer
  | fuel + 1 =>
      if buffer.writableBytes < len then
        let compacted := buffer.compact.1
        if compacted.writableBytes < len then
          makeRoom (compacted.reserve (compacted.capacity * 2)) len fuel
        else
          makeRoom compacted len fuel
      else
        buffer

theorem makeRoom_of_fits {buffer : Buffer} {len : Nat}
    (fits : len ≤ buffer.writableBytes) (fuel : Nat) :
    makeRoom buffer len fuel = buffer := by
  cases fuel with
  | zero => rfl
  | succ fuel => exact if_neg (Nat.not_lt.2 fits)

@[simp]
theorem readable_makeRoom (buffer : Buffer) (len fuel : Nat) :
    (makeRoom buffer len fuel).readable = buffer.readable := by
  induction fuel generalizing buffer with
  | zero => rfl
  | succ fuel ih =>
      simp only [makeRoom]
      split_ifs <;> simp [ih]

theorem capacity_le_makeRoom (buffer : Buffer) (len fuel : Nat) :
    buffer.capacity ≤ (makeRoom buffer len fuel).capacity := by
  induction fuel generalizing buffer with
  | zero => exact Nat.le_refl _
  | succ fuel ih =>
      simp only [makeRoom]
      split_ifs
      · refine Nat.le_trans ?_ (ih _)
        rw [Buffer.reserve_capacity, Buffer.compact_capacity]
        exact Nat.le_max_left _ _
      · refine Nat.le_trans ?_ (ih _)
        rw [Buffer.compact_capacity]
      · exact Nat.le_refl _

/-- The growth loop ends with room for `len` bytes. -/
theorem makeRoom_fits {buffer : Buffer} {len fuel : Nat}
    (positive : 0 < buffer.capacity)
    (enough : buffer.readableBytes + len ≤ buffer.capacity + fuel) :
    len ≤ (makeRoom buffer len (fuel + 1)).writableBytes := by
  induction fuel generalizing buffer with
  | zero =>
      simp only [makeRoom]
      have room := buffer.compact_writableBytes
      split_ifs <;> omega
  | succ fuel ih =>
      rw [makeRoom]
      dsimp only
      split_ifs with short still
      · apply ih
        · rw [Buffer.reserve_capacity, Buffer.compact_capacity]
          exact Nat.lt_of_lt_of_le positive (Nat.le_max_left _ _)
        · rw [← Buffer.readable_length, Buffer.readable_reserve,
            Buffer.readable_compact, Buffer.readable_length,
            Buffer.reserve_capacity, Buffer.compact_capacity]
          omega
      · rw [makeRoom_of_fits (Nat.not_lt.1 still)]
        exact Nat.not_lt.1 still
      · exact Nat.not_lt.1 short

/-- The write buffer with room for `len` more bytes. -/
def roomToWrite (conn : Connection) (len : Nat) : Buffer :=
  makeRoom conn.writeBuf len (conn.writeBuf.readableBytes + len + 1)

theorem roomToWrite_fits (conn : Connection) (len : Nat) :
    len ≤ (conn.roomToWrite len).writableBytes :=
  makeRoom_fits conn.growable (Nat.le_add_left _ _)

def enqueueWrite (conn : Connection) (data : Bytes) : Connection :=
  { conn with
    writeBuf :=
      (conn.roomToWrite data.length).append data (conn.roomToWrite_fits _)
    state := .writing
    growable :=
      Nat.lt_of_lt_of_le conn.growable (capacity_le_makeRoom _ _ _) }

def beginSendfile (conn : Connection) (file : OpenFile) (size : Nat) :
    Connection × List Call :=
  ({ conn with sendfileOp := some (.start file size), state := .writing },
    releaseFile conn.sendfileOp)

/-- `send` and `sendfile` on an invalid descriptor fail. -/
def replies (conn : Connection) (answer : Answer) : Answer :=
  if conn.socket = none then .failed .other else answer

/-- Consume what `send` took of the readable bytes. -/
def sent (conn : Connection) (n : Nat) : Connection :=
  { conn with
    writeBuf :=
      conn.writeBuf.consume (min n conn.writeBuf.readableBytes)
        (Nat.min_le_right _ _)
    growable := conn.growable }

/-- How a loop of `flush_write` ended. -/
inductive Flow where
  | drained
  | wouldBlock
  /-- `on_closed()` was called and `flush_write` returns 0. -/
  | closed
deriving DecidableEq

/-- A loop of `flush_write` when it has ended, with the answers left over. -/
structure Flushing where
  conn : Connection
  calls : List Call
  flow : Flow
  rest : List Answer

def Flushing.after (calls : List Call) (flushing : Flushing) : Flushing :=
  { flushing with calls := calls ++ flushing.calls }

/-- The loop ends because the connection closes. -/
def shut (conn : Connection) (rest : List Answer) : Flushing :=
  ⟨conn.onClosed.1, conn.onClosed.2, .closed, rest⟩

/-- Phase 1 of `flush_write`. -/
def sendLoop (conn : Connection) : List Answer → Option Flushing
  | [] =>
      if conn.writeBuf.empty then some ⟨conn, [], .drained, []⟩ else none
  | answer :: rest =>
      if conn.writeBuf.empty then
        some ⟨conn, [], .drained, answer :: rest⟩
      else
        match conn.replies answer with
        | .took n =>
            ((conn.sent n).sendLoop rest).map
              (.after [.send (conn.writeBuf.readable.take n)])
        | .failed .again => some ⟨conn, [], .wouldBlock, rest⟩
        | .failed .intr => conn.sendLoop rest
        | .failed .connreset => some (conn.shut rest)
        | .failed .pipe => some (conn.shut rest)
        | .failed .other => some (conn.shut rest)

/-- Phase 2 of `flush_write`. -/
def sendfileLoop (conn : Connection) : List Answer → Option Flushing
  | [] =>
      match conn.sendfileOp with
      | some op =>
          if op.active then none else some ⟨conn, [], .drained, []⟩
      | none => some ⟨conn, [], .drained, []⟩
  | answer :: rest =>
      match conn.sendfileOp with
      | some op =>
          if op.active then
            match conn.replies answer with
            | .took n =>
                let chunk := op.chunk n
                if chunk = [] then
                  some ⟨conn, [], .drained, rest⟩
                else
                  ({ conn with
                      sendfileOp :=
                        some (op.advance chunk.length) }.sendfileLoop rest).map
                    (.after [.sendfile chunk])
            | .failed .again => some ⟨conn, [], .wouldBlock, rest⟩
            | .failed .intr => conn.sendfileLoop rest
            | .failed _ => some (conn.shut rest)
          else
            some ⟨conn, [], .drained, answer :: rest⟩
      | none => some ⟨conn, [], .drained, answer :: rest⟩

/-- `sendfile_op_ && sendfile_op_->active()`. -/
def sending (conn : Connection) : Bool :=
  conn.sendfileOp.any SendfileOp.active

/-- The next state after the two loops. -/
def settle (conn : Connection) : Connection × List Call :=
  if conn.writeBuf.empty ∧ ¬ conn.sending then
    ({ conn with
        sendfileOp := none
        state := if conn.keepAlive then .reading else .closing },
      releaseFile conn.sendfileOp)
  else
    (conn, [])

/-- What `flush_write` returns. -/
def bytesRemaining (conn : Connection) : Nat :=
  conn.writeBuf.readableBytes +
    match conn.sendfileOp with
    | some op => op.remaining
    | none => 0

/-- The result of `flush_write`, with the answers left over. -/
structure Flushed where
  conn : Connection
  calls : List Call
  remaining : Nat
  rest : List Answer

/-- The end of `flush_write` once its loops have ended. -/
def Flushing.finish (flushing : Flushing) : Flushed :=
  match flushing.flow with
  | .closed => ⟨flushing.conn, flushing.calls, 0, flushing.rest⟩
  | _ =>
      ⟨flushing.conn.settle.1, flushing.calls ++ flushing.conn.settle.2,
        flushing.conn.settle.1.bytesRemaining, flushing.rest⟩

def flushWrite (conn : Connection) (answers : List Answer) :
    Option Flushed :=
  (conn.sendLoop answers).bind fun headers =>
    match headers.flow with
    | .drained =>
        (headers.conn.sendfileLoop headers.rest).map fun body =>
          (body.after headers.calls).finish
    | _ => some headers.finish

/-- `on_writable`, with the calls it makes and the answers left over. -/
def onWritable (conn : Connection) (answers : List Answer) :
    Option (Connection × List Call × Bool × List Answer) :=
  (conn.flushWrite answers).map fun flushed =>
    if flushed.conn.state = .closed then
      (flushed.conn, flushed.calls, false, flushed.rest)
    else if flushed.remaining = 0 ∧ ¬ flushed.conn.keepAlive then
      (flushed.conn.onClosed.1, flushed.calls ++ flushed.conn.onClosed.2,
        false, flushed.rest)
    else
      (flushed.conn, flushed.calls, true, flushed.rest)

end Connection

end Cppws.Net
