import Cppws.App.Accounts
import Cppws.Net.Reading

/-!
# The byte stream of a peer

What the peer of a connection has sent, what `recv` has not returned of it and
what the read callback has been shown.  A round of `on_readable`, a write and a
close keep the two parts together; what is pending when the connection closes
without an error is lost.
-/

namespace Cppws.App

open Cppws.Core
open Cppws.Http
open Cppws.Net

/-! ## The stream of a peer -/

structure Stream where
  /-- What the peer has sent. -/
  sent : Bytes := []
  /-- What `recv` has not returned of it. -/
  pending : Bytes := []
  /-- What the read callback has been shown. -/
  shown : Bytes := []
  /-- The peer has shut down its sending side. -/
  shut : Bool := false
  /-- There was an error on the connection while it was open. -/
  faulty : Bool := false

/-- `recv` failed with an error that closes the connection. -/
def receiveError : Received → Bool
  | .failed .again => false
  | .failed .intr => false
  | .failed _ => true
  | _ => false

/-- The bytes that `recv` returns in a round of `on_readable`. -/
def taken (conn : Connection) (received : Received) : Bytes :=
  match conn.roomToRead with
  | some roomy =>
      (ReadEvent.recv roomy.readBuf.writableBytes
        (roomy.receives received)).received
  | none => []

namespace Stream

/-- The kernel can return this, as far as it fits. -/
def Gives (stream : Stream) : Received → Prop
  | .data first rest => first :: rest <+: stream.pending
  | .eof => stream.pending = [] ∧ stream.shut = true
  | .failed .again => stream.pending = [] ∧ stream.shut = false
  | .failed _ => True

instance (stream : Stream) : ∀ received, Decidable (stream.Gives received)
  | .data _ _ => inferInstanceAs (Decidable (_ <+: _))
  | .eof => inferInstanceAs (Decidable (_ ∧ _))
  | .failed .again => inferInstanceAs (Decidable (_ ∧ _))
  | .failed .intr | .failed .connreset | .failed .pipe | .failed .other =>
      inferInstanceAs (Decidable True)

def send (stream : Stream) (bytes : Bytes) : Stream :=
  { stream with
    sent := stream.sent ++ bytes
    pending := stream.pending ++ bytes }

/-- A round of `on_readable` up to the end of the read callback. -/
def read (stream : Stream) (conn : Connection) (received : Received) :
    Stream :=
  let read := conn.readOnce received
  { stream with
    pending := stream.pending.drop (taken conn received).length
    shown :=
      stream.shown ++
        if read.2.2 = .callback then read.1.readBuf.readable else [] }

/-- An error has been reported for an open connection, or not. -/
def mark (stream : Stream) (conn : Connection) (error : Bool) : Stream :=
  { stream with faulty := stream.faulty || (conn.socket.isSome && error) }

end Stream

/-! ## One connection and the stream of its peer -/

/-- What is pending on a connection that has closed is lost. -/
def Loses (conn : Connection) (stream : Stream) : Prop :=
  conn.socket = none ∧ stream.faulty = false ∧ stream.pending ≠ []

structure Tells (conn : Connection) (stream : Stream) : Prop where
  /-- The read callback has consumed what it was shown. -/
  consumed : conn.readBuf.readable = []
  /-- Without an error only a peer that has shut down is given up. -/
  told : conn.socket = none → stream.faulty = false → stream.shut = true

namespace Stream

/-- What was sent has been shown or is pending. -/
def Whole (stream : Stream) : Prop :=
  stream.shown ++ stream.pending = stream.sent

theorem mark_of_closed {stream : Stream} {conn : Connection}
    (closed : conn.socket = none) (error : Bool) :
    stream.mark conn error = stream := by
  rw [mark, closed, Option.isSome_none, Bool.false_and, Bool.or_false]

theorem faulty_mark {stream : Stream} {conn : Connection} {error : Bool}
    (working : (stream.mark conn error).faulty = false) :
    stream.faulty = false ∧ (conn.socket ≠ none → error = false) := by
  have both : (stream.faulty || (conn.socket.isSome && error)) = false :=
    working
  rw [Bool.or_eq_false_iff] at both
  refine ⟨both.1, fun open_ => ?_⟩
  rw [Option.isSome_iff_ne_none.2 open_, Bool.true_and] at both
  exact both.2

end Stream

/-- What a step makes of a connection and the stream of its peer. -/
structure Passes (conn : Connection) (stream : Stream) (moved : Connection)
    (after : Stream) (loss : Prop) : Prop where
  tells : Tells moved after
  whole : stream.Whole → after.Whole
  loses : Loses moved after ↔ Loses conn stream ∨ loss

/-- Nothing has happened to a connection. -/
theorem Passes.refl {conn : Connection} {stream : Stream}
    (tells : Tells conn stream) : Passes conn stream conn stream False :=
  ⟨tells, id, (or_false _).symm ▸ Iff.rfl⟩

/-- An open connection that stays open loses nothing. -/
theorem Passes.open_ {conn moved : Connection} {stream after : Stream}
    (open_ : conn.socket ≠ none) (still : moved.socket ≠ none)
    (consumed : moved.readBuf.readable = [])
    (whole : stream.Whole → after.Whole) :
    Passes conn stream moved after False where
  tells := ⟨consumed, fun closed => absurd closed still⟩
  whole := whole
  loses := by
    rw [or_false]
    exact iff_of_false (fun loses => still loses.1) fun loses => open_ loses.1

/-- After an error nothing is expected of the connection. -/
theorem Passes.fails {conn moved : Connection} {stream after : Stream}
    (open_ : conn.socket ≠ none) (faulty : after.faulty = true)
    (consumed : moved.readBuf.readable = [])
    (whole : stream.Whole → after.Whole) :
    Passes conn stream moved after False := by
  have working : after.faulty ≠ false := by
    rw [faulty]
    decide
  refine ⟨⟨consumed, fun _ still => absurd still working⟩, whole, ?_⟩
  rw [or_false]
  exact iff_of_false (fun loses => working loses.2.1) fun loses => open_ loses.1

/-- A connection that was closed before stays closed. -/
theorem Passes.closed {conn moved : Connection} {stream : Stream}
    (tells : Tells conn stream) (closed : conn.socket = none)
    (still : moved.socket = none) (consumed : moved.readBuf.readable = []) :
    Passes conn stream moved stream False where
  tells := ⟨consumed, fun _ => tells.told closed⟩
  whole := id
  loses := by
    rw [or_false, Loses, Loses, closed, still]

theorem socket_onClosed {conn : Connection} (closed : conn.socket = none) :
    conn.onClosed.1.socket = none := by
  unfold Connection.onClosed
  split_ifs
  · exact closed
  · rfl

theorem flushes_passes {conn : Connection} {stream : Stream}
    {answers : List Answer} {flushed : Connection.Flushed}
    (tells : Tells conn stream)
    (flushes : Connection.Flushes conn answers flushed) :
    Passes conn stream flushed.conn
      (stream.mark conn (answers.any Answer.fatal)) False := by
  have consumed : flushed.conn.readBuf.readable = [] := by
    rw [EventLoop.readBuf_of_flushes flushes]
    exact tells.consumed
  by_cases closed : conn.socket = none
  · have still : flushed.conn.socket = none := by
      cases flushes with
      | opened _ _ _ socket => exact socket.trans closed
      | shut _ _ _ last owner shut =>
          rw [shut]
          exact socket_onClosed (owner.socket.trans closed)
    rw [Stream.mark_of_closed closed]
    exact .closed tells closed still consumed
  · cases flushes with
    | opened _ _ _ socket => exact .open_ closed (socket ▸ closed) consumed id
    | shut used split fatal =>
        rcases fatal closed with ⟨answer, member, fatal⟩
        have error : answers.any Answer.fatal = true := by
          rw [List.any_eq_true, split]
          exact ⟨answer, List.mem_append_left _ member, fatal⟩
        refine .fails closed ?_ consumed id
        rw [Stream.mark, error, Option.isSome_iff_ne_none.2 closed]
        exact Bool.or_true _

theorem delivered_passes {pw : PendingWrite} {conn : Connection}
    {stream : Stream} {answers : List Answer} {flushed : Connection.Flushed}
    (tells : Tells conn stream)
    (delivered : pw.deliver conn answers = some flushed) :
    Passes conn stream flushed.conn
      (stream.mark conn (answers.any Answer.fatal)) False := by
  rcases PendingWrite.deliver_flushes delivered with
    ⟨_, _, _, flush, rfl, flushes⟩
  have socket := handedOver_socket pw conn
  have readBuf : (pw.handedOver conn).readBuf = conn.readBuf := by
    unfold PendingWrite.handedOver
    cases pw.fileFd <;> rfl
  have handed : Tells (pw.handedOver conn) stream := by
    constructor
    · rw [readBuf]
      exact tells.consumed
    · rw [socket]
      exact tells.told
  have marked : stream.mark (pw.handedOver conn) (answers.any Answer.fatal) =
      stream.mark conn (answers.any Answer.fatal) := by
    rw [Stream.mark, Stream.mark, socket]
  have passes := flushes_passes handed flushes
  rw [marked] at passes
  refine ⟨passes.tells, passes.whole, passes.loses.trans ?_⟩
  rw [Loses, Loses, socket]

/-- A hangup or an error is handled before anything is read. -/
theorem onClosed_passes {conn : Connection} {stream : Stream}
    {event : EpollEvent} (tells : Tells conn stream)
    (alive : conn.socket ≠ none → conn.isAlive = true)
    (closing : event.isClosed = true)
    (reported : event.isHangup = true → stream.shut = true) :
    Passes conn stream conn.onClosed.1 (stream.mark conn event.isError)
      (conn.socket ≠ none ∧ event.isError = false ∧
        stream.faulty = false ∧ stream.pending ≠ []) := by
  have consumed : conn.onClosed.1.readBuf.readable = [] := by
    rw [EventLoop.readBuf_onClosed]
    exact tells.consumed
  by_cases closed : conn.socket = none
  · rw [Stream.mark_of_closed closed]
    have passes := Passes.closed tells closed (socket_onClosed closed) consumed
    refine ⟨passes.tells, passes.whole, passes.loses.trans ?_⟩
    simp [closed]
  · have notClosed : conn.state ≠ .closed := by
      simpa [Connection.isAlive] using alive closed
    have gone : conn.onClosed.1.socket = none := by
      rw [Connection.onClosed, if_neg notClosed]
    refine ⟨⟨consumed, fun _ working => ?_⟩, id, ?_⟩
    · have noError := (Stream.faulty_mark working).2 closed
      apply reported
      rw [EpollEvent.isClosed, noError, Bool.or_false] at closing
      exact closing
    · have before : ¬ Loses conn stream := fun loses => closed loses.1
      have faulty : (stream.mark conn event.isError).faulty = false ↔
          stream.faulty = false ∧ event.isError = false := by
        rw [Stream.mark, Option.isSome_iff_ne_none.2 closed, Bool.true_and]
        exact Bool.or_eq_false_iff
      have pending : (stream.mark conn event.isError).pending =
          stream.pending := rfl
      rw [Loses, faulty, pending]
      tauto

theorem readCallback_consumes (conn : Connection) (parser : HttpParser) :
    (readCallback conn parser).1.socket = conn.socket ∧
      (readCallback conn parser).1.readBuf = conn.readBuf.consumeAll := by
  unfold readCallback
  dsimp only
  split <;> exact ⟨rfl, rfl⟩

/-- Bytes are read, and the read callback is shown all of them. -/
theorem data_passes {conn moved : Connection} {stream : Stream} {first : UInt8}
    {rest : Bytes} (parser : HttpParser) (tells : Tells conn stream)
    (roomy : conn.roomToRead = some conn) (open_ : conn.socket ≠ none)
    (gives : stream.Gives (.data first rest))
    (same : moved =
      if (conn.readOnce (.data first rest)).2.2 = .callback then
        (readCallback (conn.readOnce (.data first rest)).1 parser).1
      else
        (conn.readOnce (.data first rest)).1) :
    Passes conn stream moved
      ((stream.read conn (.data first rest)).mark conn false) False := by
  let bytes := (first :: rest).take conn.readBuf.writableBytes
  let filled :=
    { conn with
      readBuf := conn.readBuf.append bytes (List.length_take_le _ _) }
  have receives : conn.receives (.data first rest) = .data first rest :=
    if_neg open_
  have read : conn.readOnce (.data first rest) = (filled, [], .callback) := by
    rw [Connection.readOnce, roomy]
    simp only [Connection.recv, receives]
    rfl
  have returned : taken conn (.data first rest) = bytes := by
    rw [taken, roomy]
    simp only [receives]
    rfl
  have readable : filled.readBuf.readable = bytes := by
    rw [Buffer.readable_append, tells.consumed, List.nil_append]
  rw [read, if_pos rfl] at same
  rcases readCallback_consumes filled parser with ⟨socket, readBuf⟩
  rw [← same] at socket readBuf
  refine .open_ open_ (socket ▸ open_) ?_ fun whole => ?_
  · rw [readBuf]
    exact Buffer.readable_consumeAll _
  · have next : bytes ++ stream.pending.drop bytes.length = stream.pending :=
      List.prefix_iff_eq_append.1 ((List.take_prefix _ _).trans gives)
    show (stream.shown ++ if (conn.readOnce (.data first rest)).2.2 = .callback
        then (conn.readOnce (.data first rest)).1.readBuf.readable else []) ++
      stream.pending.drop (taken conn (.data first rest)).length = stream.sent
    rw [returned, read, if_pos rfl, readable, List.append_assoc, next]
    exact whole

/-- A round of `on_readable`, and its callback if there are bytes. -/
theorem read_passes {conn moved : Connection} {stream : Stream}
    {received : Received} (parser : HttpParser) (tells : Tells conn stream)
    (room : 0 < conn.readBuf.writableBytes)
    (gives : conn.socket ≠ none → stream.Gives received)
    (same : moved =
      if (conn.readOnce received).2.2 = .callback then
        (readCallback (conn.readOnce received).1 parser).1
      else
        (conn.readOnce received).1) :
    Passes conn stream moved
      ((stream.read conn received).mark conn (receiveError received))
      False := by
  have roomy : conn.roomToRead = some conn :=
    if_neg (Nat.ne_of_gt room)
  -- Without bytes the stream is left as it is.
  have silent : ∀ (last : Connection) (calls : List Call)
      (reading : Connection.Reading), reading ≠ .callback →
        conn.readOnce received = (last, calls, reading) →
          taken conn received = [] →
            moved = last ∧ stream.read conn received = stream := by
    intro last calls reading quiet read nothing
    rw [read, if_neg quiet] at same
    refine ⟨same, ?_⟩
    rw [Stream.read, read, nothing, if_neg quiet, List.append_nil]
    rfl
  have closedBuf : conn.onClosed.1.readBuf.readable = [] := by
    rw [EventLoop.readBuf_onClosed]
    exact tells.consumed
  by_cases closed : conn.socket = none
  · have receives : conn.receives received = .failed .other := if_pos closed
    have read : conn.readOnce received =
        (conn.onClosed.1, conn.onClosed.2, .closed) := by
      rw [Connection.readOnce, roomy]
      simp only [Connection.recv, receives]
    have nothing : taken conn received = [] := by
      rw [taken, roomy]
      simp only [receives]
      rfl
    rcases silent _ _ _ (by decide) read nothing with ⟨rfl, unread⟩
    rw [unread, Stream.mark_of_closed closed]
    exact .closed tells closed (socket_onClosed closed) closedBuf
  · have receives : conn.receives received = received := if_neg closed
    have reads : conn.readOnce received = conn.recv received := by
      rw [Connection.readOnce, roomy]
    have takes : taken conn received =
        (ReadEvent.recv conn.readBuf.writableBytes received).received := by
      rw [taken, roomy]
      simp only [receives]
    rw [Connection.recv, receives] at reads
    cases received with
    | data first rest =>
        exact data_passes parser tells roomy closed (gives closed) same
    | eof =>
        rcases silent _ _ _ (by decide) reads takes with ⟨rfl, unread⟩
        rcases gives closed with ⟨nothing, shut⟩
        rw [unread]
        refine ⟨⟨closedBuf, fun _ _ => shut⟩, id, ?_⟩
        rw [or_false]
        exact iff_of_false (fun loses => loses.2.2 nothing)
          fun loses => closed loses.1
    | failed errno =>
        cases errno with
        | again | intr =>
            rcases silent _ _ _ (by decide) reads takes with ⟨rfl, unread⟩
            rw [unread]
            exact .open_ closed closed tells.consumed id
        | connreset | pipe | other =>
            rcases silent _ _ _ (by decide) reads takes with ⟨rfl, unread⟩
            rw [unread]
            refine .fails closed ?_ closedBuf id
            rw [Stream.mark, Option.isSome_iff_ne_none.2 closed]
            exact Bool.or_true _

end Cppws.App
