import Cppws.Net.Flush

/-!
# What is sent from where

The bytes that `send` takes are the next ones of the write buffer, and those
that `sendfile` takes the next ones of the file.  Nothing is put back, also
when the connection closes, and nothing is sent without a socket.
-/

namespace Cppws.Net

open Cppws.Http (Bytes)

def Call.data : Call → Bytes
  | .send bytes => bytes
  | _ => []

def Call.file : Call → Bytes
  | .sendfile bytes => bytes
  | _ => []

/-- The bytes that `send` took. -/
def sentData (calls : List Call) : Bytes :=
  calls.flatMap Call.data

/-- The bytes that `sendfile` took. -/
def sentFile (calls : List Call) : Bytes :=
  calls.flatMap Call.file

@[simp]
theorem sentData_append (first second : List Call) :
    sentData (first ++ second) = sentData first ++ sentData second :=
  List.flatMap_append

@[simp]
theorem sentFile_append (first second : List Call) :
    sentFile (first ++ second) = sentFile first ++ sentFile second :=
  List.flatMap_append

/-- Calls that put nothing on the wire send nothing. -/
theorem sent_of_wire_eq_nil {calls : List Call} (silent : wire calls = []) :
    sentData calls = [] ∧ sentFile calls = [] := by
  have each := List.flatMap_eq_nil_iff.1 silent
  constructor
  · apply List.flatMap_eq_nil_iff.2
    intro call member
    have nothing := each call member
    cases call with
    | send bytes => exact nothing
    | sendfile | closeFile | closeCallback | close => rfl
  · apply List.flatMap_eq_nil_iff.2
    intro call member
    have nothing := each call member
    cases call with
    | sendfile bytes => exact nothing
    | send | closeFile | closeCallback | close => rfl

/-- One `sendfile` takes a piece of what all of them take. -/
theorem infix_sentFile {calls : List Call} {bytes : Bytes}
    (member : .sendfile bytes ∈ calls) : bytes <:+: sentFile calls := by
  rcases List.append_of_mem member with ⟨before, after, rfl⟩
  refine ⟨sentFile before, sentFile after, ?_⟩
  rw [sentFile_append, List.append_assoc]
  rfl

namespace Connection

/-- What some calls take from a connection, and what they leave of it. -/
structure Sends (before : Connection) (calls : List Call)
    (after : Connection) : Prop where
  data : sentData calls ++ after.writeBuf.readable = before.writeBuf.readable
  file : ∃ rest, sentFile calls ++ rest = before.unsentFile ∧
    (after.unsentFile = rest ∨ after.unsentFile = [])
  socket : before.socket = none → after.socket = none
  closed : before.socket = none → sentData calls = [] ∧ sentFile calls = []

/-- Calls that put nothing on the wire. -/
theorem Sends.of_silent {before after : Connection} {calls : List Call}
    (silent : wire calls = []) (buffer : after.writeBuf = before.writeBuf)
    (file : after.unsentFile = before.unsentFile ∨ after.unsentFile = [])
    (socket : before.socket = none → after.socket = none) :
    Sends before calls after := by
  rcases sent_of_wire_eq_nil silent with ⟨noData, noFile⟩
  refine ⟨?_, ⟨before.unsentFile, ?_, file⟩, socket,
    fun _ => ⟨noData, noFile⟩⟩
  · rw [noData, buffer]
    rfl
  · rw [noFile]
    rfl

theorem Sends.refl (conn : Connection) : Sends conn [] conn :=
  .of_silent rfl rfl (Or.inl rfl) fun none => none

theorem Sends.trans {first second third : Connection}
    {some more : List Call} (one : Sends first some second)
    (two : Sends second more third) : Sends first (some ++ more) third := by
  rcases one.file with ⟨rest, split, left⟩
  rcases two.file with ⟨rest', split', left'⟩
  constructor
  · rw [sentData_append, List.append_assoc, two.data, one.data]
  · rcases left with left | left
    · refine ⟨rest', ?_, left'⟩
      rw [sentFile_append, List.append_assoc, split', left, split]
    · rw [left] at split'
      rcases List.append_eq_nil_iff.1 split' with ⟨nothing, rfl⟩
      refine ⟨rest, ?_, Or.inr (or_self_iff.1 left')⟩
      rw [sentFile_append, nothing, List.append_nil, split]
  · exact fun none => two.socket (one.socket none)
  · intro none
    rw [sentData_append, sentFile_append, (one.closed none).1,
      (one.closed none).2, (two.closed (one.socket none)).1,
      (two.closed (one.socket none)).2]
    exact ⟨rfl, rfl⟩

/-- Without a socket the calls might as well not have been made. -/
theorem Sends.idle {before after : Connection} {calls : List Call}
    (sends : Sends before calls after) (none : before.socket = none) :
    Sends before [] after := by
  rcases sends.closed none with ⟨noData, noFile⟩
  have data := sends.data
  have file := sends.file
  rw [noData] at data
  rw [noFile] at file
  exact ⟨data, file, sends.socket, fun _ => ⟨rfl, rfl⟩⟩

theorem Sends.onClosed (conn : Connection) :
    Sends conn conn.onClosed.2 conn.onClosed.1 := by
  apply Sends.of_silent (wire_onClosed conn)
  · unfold Connection.onClosed
    split <;> rfl
  · unfold Connection.onClosed
    split
    · exact Or.inl rfl
    · exact Or.inr rfl
  · unfold Connection.onClosed
    split
    · exact fun none => none
    · exact fun _ => rfl

theorem Sends.settle (conn : Connection) :
    Sends conn conn.settle.2 conn.settle.1 := by
  unfold Connection.settle
  split
  · exact .of_silent (wire_releaseFile _) rfl (Or.inr rfl) fun none => none
  · exact .refl conn

/-- One `send`. -/
theorem Sends.sent {conn : Connection} (socket : conn.socket ≠ none)
    (n : Nat) :
    Sends conn [.send (conn.writeBuf.readable.take n)] (conn.sent n) := by
  refine ⟨?_, ⟨conn.unsentFile, rfl, Or.inl rfl⟩, fun none => none,
    fun none => absurd none socket⟩
  rw [readable_sent]
  exact (congrArg (· ++ _) (List.append_nil _)).trans
    (List.take_append_drop n _)

/-- One `sendfile`. -/
theorem Sends.advance {conn : Connection} {op : SendfileOp}
    (socket : conn.socket ≠ none) (found : conn.sendfileOp = some op)
    (n : Nat) :
    Sends conn [.sendfile (op.chunk n)]
      { conn with sendfileOp := some (op.advance (op.chunk n).length) } := by
  refine ⟨rfl, ⟨(op.advance (op.chunk n).length).rest, ?_, Or.inl rfl⟩,
    fun none => none, fun none => absurd none socket⟩
  rw [unsentFile, found]
  exact (congrArg (· ++ _) (List.append_nil _)).trans (op.chunk_append_rest n)

/-- A call on an invalid descriptor fails. -/
theorem socket_of_took {conn : Connection} {answer : Answer} {n : Nat}
    (replied : conn.replies answer = .took n) : conn.socket ≠ none := by
  intro none
  rw [replies, if_pos none] at replied
  cases replied

theorem sendLoop_sends {conn : Connection} {answers : List Answer}
    {ended : Flushing} (looped : conn.sendLoop answers = some ended) :
    Sends conn ended.calls ended.conn := by
  replace looped := sendLoop_rounds looped
  induction looped with
  | drained | again => exact .refl _
  | took full replied later ih =>
      exact (Sends.sent (socket_of_took replied) _).trans ih
  | retry full replied later ih => exact ih
  | fails => exact .onClosed _

theorem sendfileLoop_sends {conn : Connection} {answers : List Answer}
    {ended : Flushing} (looped : conn.sendfileLoop answers = some ended) :
    Sends conn ended.calls ended.conn := by
  replace looped := sendfileLoop_rounds looped
  induction looped with
  | drained | atEof | again => exact .refl _
  | took found active replied more later ih =>
      exact (Sends.advance (socket_of_took replied) found _).trans ih
  | retry found active replied later ih => exact ih
  | fails => exact .onClosed _

theorem Sends.finish {conn : Connection} {ended : Flushing}
    (sends : Sends conn ended.calls ended.conn) :
    Sends conn ended.finish.calls ended.finish.conn := by
  unfold Flushing.finish
  cases ended.flow with
  | closed => exact sends
  | drained | wouldBlock => exact sends.trans (.settle ended.conn)

/-- What a flush sends and what it leaves. -/
theorem flushWrite_sends {conn : Connection} {answers : List Answer}
    {flushed : Flushed} (ran : conn.flushWrite answers = some flushed) :
    Sends conn flushed.calls flushed.conn := by
  cases flushWrite_phases ran with
  | first headers sent => exact (sendLoop_sends sent).finish
  | both headers body sent flow filed =>
      have whole : Sends conn (body.after headers.calls).calls
          (body.after headers.calls).conn :=
        (sendLoop_sends sent).trans (sendfileLoop_sends filed)
      exact whole.finish

end Connection

end Cppws.Net
