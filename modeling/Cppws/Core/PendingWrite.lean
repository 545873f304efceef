import Cppws.Foundation.Machine
import Cppws.Net.Flush

/-!
# Delivering responses to a connection

`PendingWrite` of `core/pending_write.hpp`, and what `drain_pending_writes`
does with one for a connection that is alive.  One connection, the responses
drained for it and the bytes on its socket make a machine: its output is the
concatenation of its responses while no response is drained before the file
body of an earlier one is finished.
-/

namespace Cppws.Core

open Cppws.Http (Bytes)
open Cppws.Net

structure PendingWrite where
  conn : Option Nat
  data : Bytes := []
  fileFd : Option OpenFile := none
  /-- An `off_t`, of which only sizes from `fstat` are ever posted. -/
  fileSize : Nat := 0

namespace PendingWrite

/-- The body that is sent from the file. -/
def body (pw : PendingWrite) : Bytes :=
  match pw.fileFd with
  | some file => file.contents.take pw.fileSize
  | none => []

/-- The bytes of the response. -/
def bytes (pw : PendingWrite) : Bytes :=
  pw.data ++ pw.body

/-- Enqueue the response and flush. -/
def deliver (pw : PendingWrite) (conn : Connection) (answers : List Answer) :
    Option Connection.Flushed :=
  let queued := conn.enqueueWrite pw.data
  match pw.fileFd with
  | some file =>
      let begun := queued.beginSendfile file pw.fileSize
      (begun.1.flushWrite answers).map fun flushed =>
        { flushed with calls := begun.2 ++ flushed.calls }
  | none => queued.flushWrite answers

/-- The connection when `deliver` calls `flush_write`. -/
def handedOver (pw : PendingWrite) (conn : Connection) : Connection :=
  match pw.fileFd with
  | some file =>
      ((conn.enqueueWrite pw.data).beginSendfile file pw.fileSize).1
  | none => conn.enqueueWrite pw.data

/-- Delivering is flushing once the response has been handed over. -/
theorem deliver_flushWrite {pw : PendingWrite} {conn : Connection}
    {answers : List Answer} {flushed : Connection.Flushed}
    (delivered : pw.deliver conn answers = some flushed) :
    ∃ calls, wire calls = [] ∧ control calls = [] ∧
      ∃ flush : Connection.Flushed,
      flushed = { flush with calls := calls ++ flush.calls } ∧
        (pw.handedOver conn).flushWrite answers = some flush := by
  unfold deliver at delivered
  unfold handedOver
  cases found : pw.fileFd with
  | none =>
      rw [found] at delivered
      exact ⟨[], rfl, rfl, flushed, rfl, delivered⟩
  | some file =>
      rw [found] at delivered
      rcases Option.map_eq_some_iff.1 delivered with ⟨flush, ran, rfl⟩
      exact ⟨_, wire_releaseFile _, control_releaseFile _, flush, rfl, ran⟩

theorem deliver_flushes {pw : PendingWrite} {conn : Connection}
    {answers : List Answer} {flushed : Connection.Flushed}
    (delivered : pw.deliver conn answers = some flushed) :
    ∃ calls, wire calls = [] ∧ control calls = [] ∧
      ∃ flush : Connection.Flushed,
      flushed = { flush with calls := calls ++ flush.calls } ∧
        Connection.Flushes (pw.handedOver conn) answers flush := by
  rcases deliver_flushWrite delivered with
    ⟨calls, silent, quiet, flush, same, ran⟩
  exact ⟨calls, silent, quiet, flush, same,
    Connection.flushWrite_flushes ran⟩

theorem readable_handedOver (pw : PendingWrite) (conn : Connection) :
    (pw.handedOver conn).writeBuf.readable =
      conn.writeBuf.readable ++ pw.data := by
  have queued : (conn.enqueueWrite pw.data).writeBuf.readable =
      conn.writeBuf.readable ++ pw.data := by
    rw [Connection.enqueueWrite, Buffer.readable_append,
      Connection.roomToWrite, Connection.readable_makeRoom]
  unfold handedOver
  cases pw.fileFd <;> exact queued

/-- What handing over adds when no file body is unfinished. -/
theorem unsent_handedOver (pw : PendingWrite) {conn : Connection}
    (done : conn.sending = false ∨ pw.data = [] ∧ pw.fileFd = none) :
    (pw.handedOver conn).unsent = conn.unsent ++ pw.bytes := by
  unfold Connection.unsent
  rw [readable_handedOver]
  rcases done with done | ⟨noData, noFile⟩
  · rw [Connection.unsentFile_of_not_sending done, List.append_nil,
      List.append_assoc, bytes, body, handedOver]
    cases found : pw.fileFd with
    | none =>
        have same : (conn.enqueueWrite pw.data).unsentFile = conn.unsentFile :=
          rfl
        simp only [same, Connection.unsentFile_of_not_sending done]
    | some file => rfl
  · rw [bytes, body, handedOver, noData, noFile, List.append_nil,
      List.append_nil, List.append_nil]
    rfl

end PendingWrite

end Cppws.Core
