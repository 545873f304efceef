import Cppws.Foundation.Machine
import Cppws.Net.Attempts

/-!
# One transfer

A connection with some bytes to send and at most one file begun, flushed again
and again until it closes.  What has been sent is always the beginning of the
bytes followed by the announced part of the file.
-/

namespace Cppws.Net

open Cppws.Http (Bytes)

/-- The file a connection has begun to send, and the announced size. -/
abbrev Announced :=
  Option (OpenFile × Nat)

namespace Announced

def size (announced : Announced) : Nat :=
  announced.elim 0 Prod.snd

def body (announced : Announced) : Bytes :=
  announced.elim [] fun begun => begun.1.contents.take begun.2

end Announced

/-- `flush_write` again and again, with all its calls and its last result. -/
structure Transfer where
  conn : Connection
  attempts : List Attempt := []
  returned : Option Nat := none

namespace Transfer

def step (transfer : Transfer) (answers : List Answer) : Option Transfer :=
  if transfer.conn.state = .closed then
    none
  else
    (transfer.conn.flushWrite answers).map fun flushed =>
      { conn := flushed.conn
        attempts := transfer.attempts ++ transfer.conn.flushAttempts answers
        returned := some flushed.remaining }

def machine : Machine Transfer (List Answer) where
  step := step

/-- What is sent of a header and a file, and where the connection stands. -/
structure Accounts (header : Bytes) (announced : Announced) (keepAlive : Bool)
    (conn : Connection) (attempts : List Attempt) (offset : Nat) : Prop where
  opened : conn.state ≠ .closed
  same : conn.keepAlive = keepAlive
  moved : carried attempts ++ conn.writeBuf.readable =
    header ++ announced.body.take offset
  first : conn.writeBuf.readable ≠ [] → offset = 0
  reach : offset ≤ announced.body.length
  begun : ∀ op, conn.sendfileOp = some op →
    op.offset = offset ∧ op.offset + op.remaining = announced.size ∧
      announced.body = op.file.contents.take announced.size
  gone : conn.sendfileOp = none → offset = announced.size
  /-- A file is sent after the header. -/
  ordered : ∀ earlier op answer,
    earlier ++ [.sendfile op answer] <+: attempts → header <+: carried earlier

variable {header : Bytes} {announced : Announced} {keepAlive : Bool}
  {conn : Connection} {attempts : List Attempt} {offset : Nat}

/-- What remains and what has been sent make up the whole. -/
theorem Accounts.counted
    (accounts : Accounts header announced keepAlive conn attempts offset) :
    conn.bytesRemaining + (carried attempts).length =
      header.length + announced.size := by
  have lengths := congrArg List.length accounts.moved
  rw [List.length_append, List.length_append, Buffer.readable_length,
    List.length_take, Nat.min_eq_left accounts.reach] at lengths
  unfold Connection.bytesRemaining
  cases found : conn.sendfileOp with
  | none =>
      have ended := accounts.gone found
      dsimp only
      omega
  | some op =>
      rcases accounts.begun op found with ⟨same, whole, _⟩
      dsimp only
      omega

/-- The next bytes of the file are the next ones of its announced part. -/
theorem take_append_chunk {op : SendfileOp} {size : Nat}
    (whole : op.offset + op.remaining = size) (n : Nat) :
    (op.file.contents.take size).take op.offset ++ op.chunk n =
      (op.file.contents.take size).take (op.offset + (op.chunk n).length) := by
  have rest : op.rest = (op.file.contents.take size).drop op.offset := by
    rw [SendfileOp.rest, List.drop_take, ← whole, Nat.add_sub_cancel_left]
  have chunk : op.chunk n =
      ((op.file.contents.take size).drop op.offset).take
        (op.chunk n).length := by
    conv_lhs => rw [SendfileOp.chunk, rest, List.take_eq_take_min]
    rw [SendfileOp.chunk, rest, List.length_take]
  rw [List.take_add, ← chunk]

/-- An attempt that is no `sendfile` before the header is sent. -/
theorem ordered_concat {attempt : Attempt}
    (ordered : ∀ earlier op answer,
      earlier ++ [.sendfile op answer] <+: attempts →
        header <+: carried earlier)
    (last : ∀ op answer, attempt = .sendfile op answer →
      header <+: carried attempts) :
    ∀ earlier op answer,
      earlier ++ [.sendfile op answer] <+: attempts ++ [attempt] →
        header <+: carried earlier := by
  intro earlier op answer before
  rcases List.prefix_concat_iff.1 before with whole | before
  · rcases List.append_inj' whole rfl with ⟨rfl, same⟩
    cases same
    exact last op answer rfl
  · exact ordered earlier op answer before

/-- Once nothing is buffered, the header has been sent. -/
theorem Accounts.header_sent
    (accounts : Accounts header announced keepAlive conn attempts offset)
    (buffered : conn.writeBuf.readable = []) :
    header <+: carried attempts := by
  have moved := accounts.moved
  rw [buffered, List.append_nil] at moved
  rw [moved]
  exact List.prefix_append _ _

theorem accounts_kept (header : Bytes) (announced : Announced)
    (keepAlive : Bool) :
    Connection.Kept fun conn attempts =>
      ∃ offset, Accounts header announced keepAlive conn attempts offset where
  sends := by
    rintro conn done n ⟨offset, accounts⟩ _ full
    refine ⟨offset, { accounts with
      moved := ?_
      first := fun _ => accounts.first full
      ordered := ordered_concat accounts.ordered fun _ _ same => by
        cases same }⟩
    rw [carried_append, List.append_assoc, Connection.readable_sent,
      ← accounts.moved]
    congr 1
    exact (congrArg (· ++ _) (List.append_nil _)).trans
      (List.take_append_drop n _)
  sendFails := by
    rintro conn done errno ⟨offset, accounts⟩ full
    refine ⟨offset, { accounts with
      moved := ?_
      ordered := ordered_concat accounts.ordered fun _ _ same => by
        cases same }⟩
    rw [carried_append, ← accounts.moved]
    exact congrArg (· ++ _) (List.append_nil _)
  files := by
    rintro conn done op n ⟨offset, accounts⟩ _ buffered found active
    rcases accounts.begun op found with ⟨rfl, whole, body⟩
    have next := take_append_chunk whole n
    rw [← body] at next
    have longer := congrArg List.length next
    rw [List.length_append, List.length_take, List.length_take,
      Nat.min_eq_left accounts.reach] at longer
    have fits : (op.chunk n).length ≤ op.remaining := by
      rw [SendfileOp.chunk, SendfileOp.rest, List.length_take, List.length_take]
      omega
    refine ⟨op.offset + (op.chunk n).length, {
      opened := accounts.opened
      same := accounts.same
      moved := ?_
      first := fun full => absurd buffered full
      reach := by omega
      begun := ?_
      gone := fun none => by cases none
      ordered := ordered_concat accounts.ordered fun _ _ _ =>
        accounts.header_sent buffered }⟩
    · rw [carried_append, ← next, ← List.append_assoc, ← accounts.moved]
      simp [carried, Attempt.bytes, buffered]
    · intro advanced same
      cases same
      refine ⟨rfl, ?_, body⟩
      show op.offset + (op.chunk n).length +
        (op.remaining - (op.chunk n).length) = _
      omega
  fileFails := by
    rintro conn done op errno ⟨offset, accounts⟩ buffered _ _
    refine ⟨offset, { accounts with
      moved := ?_
      ordered := ordered_concat accounts.ordered fun _ _ _ =>
        accounts.header_sent buffered }⟩
    rw [carried_append, ← accounts.moved]
    exact congrArg (· ++ _) (List.append_nil _)

/-- The choice of the next state, once everything is sent. -/
theorem Accounts.settle
    (accounts : Accounts header announced keepAlive conn attempts offset) :
    Accounts header announced keepAlive conn.settle.1 attempts offset ∧
      (conn.settle.1.bytesRemaining = 0 →
        conn.settle.1.state = (if keepAlive then .reading else .closing) ∧
          conn.settle.1.sendfileOp = none) := by
  by_cases idle : conn.Idle
  · have settled : conn.settle.1 =
        { conn with
          sendfileOp := none
          state := if conn.keepAlive then .reading else .closing } := by
      rw [Connection.settle, if_pos]
      exact ⟨(Buffer.empty_iff _).2 idle.1, by simp [idle.2]⟩
    rw [settled]
    refine ⟨{ accounts with
      opened := ?_
      begun := fun _ found => by cases found
      gone := fun _ => ?_ }, fun _ => ⟨?_, rfl⟩⟩
    · show (if conn.keepAlive then ConnState.reading else .closing) ≠ .closed
      split <;> decide
    · have remains := (Connection.bytesRemaining_eq_zero_iff conn).2 idle
      unfold Connection.bytesRemaining at remains
      cases found : conn.sendfileOp with
      | none => exact accounts.gone found
      | some op =>
          rw [found] at remains
          rcases accounts.begun op found with ⟨same, whole, _⟩
          dsimp only at remains
          omega
    · rw [← accounts.same]
  · have settled : conn.settle = (conn, []) := by
      rw [Connection.settle, if_neg]
      rintro ⟨empty, done⟩
      exact idle ⟨(Buffer.empty_iff _).1 empty, by simpa using done⟩
    rw [settled]
    refine ⟨accounts, fun nothing => ?_⟩
    exact absurd ((Connection.bytesRemaining_eq_zero_iff conn).1 nothing) idle

/-- What is known after every flush. -/
structure Sound (header : Bytes) (announced : Announced) (keepAlive : Bool)
    (transfer : Transfer) : Prop where
  accounted : ∃ last offset,
    Accounts header announced keepAlive last transfer.attempts offset ∧
      (transfer.conn = last ∨ transfer.conn = last.onClosed.1)
  result : ∀ returned, transfer.returned = some returned →
    transfer.conn.state ≠ .closed →
      returned = transfer.conn.bytesRemaining ∧
        (returned = 0 →
          transfer.conn.state = (if keepAlive then .reading else .closing) ∧
            transfer.conn.sendfileOp = none)

theorem Sound.step {before after : Transfer} {answers : List Answer}
    (sound : before.Sound header announced keepAlive)
    (stepped : before.step answers = some after) :
    after.Sound header announced keepAlive := by
  unfold Transfer.step at stepped
  split_ifs at stepped with opened
  rcases Option.map_eq_some_iff.1 stepped with ⟨flushed, ran, rfl⟩
  rcases sound.accounted with ⟨last, offset, accounts, same | shut⟩
  · rcases Connection.flushWrite_kept
      (accounts_kept header announced keepAlive) ran
      ⟨offset, same ▸ accounts⟩ with
      ⟨final, ⟨reached, counts⟩, ⟨closed, _⟩ |
        ⟨settled, returned⟩⟩
    · refine ⟨⟨final, reached, counts, Or.inr closed⟩, ?_⟩
      intro result _ open_
      refine absurd ?_ open_
      show flushed.conn.state = .closed
      rw [closed, Connection.onClosed_state]
    · rcases counts.settle with ⟨kept, ended⟩
      refine ⟨⟨final.settle.1, reached, kept, Or.inl settled⟩, ?_⟩
      intro result same _
      cases same
      refine ⟨returned, fun nothing => ?_⟩
      rw [returned, settled] at nothing
      show flushed.conn.state = _ ∧ flushed.conn.sendfileOp = none
      rw [settled]
      exact ended nothing
  · rw [shut, Connection.onClosed_state] at opened
    exact absurd rfl opened

/-- A connection on which a header is queued and a file begun. -/
theorem accounts_start (conn : Connection) (announced : Announced)
    (opened : conn.state ≠ .closed)
    (begun : conn.sendfileOp =
      announced.map fun begun => .start begun.1 begun.2) :
    Accounts conn.writeBuf.readable announced conn.keepAlive conn [] 0 where
  opened := opened
  same := rfl
  moved := (List.append_nil _).symm
  first := fun _ => rfl
  reach := Nat.zero_le _
  begun := by
    intro op found
    rw [begun] at found
    rcases Option.map_eq_some_iff.1 found with ⟨file, rfl, rfl⟩
    exact ⟨rfl, Nat.zero_add _, rfl⟩
  gone := by
    intro none
    rw [begun, Option.map_eq_none_iff] at none
    rw [none]
    rfl
  ordered := by
    intro earlier op answer before
    have nothing := List.append_eq_nil_iff.1 (List.prefix_nil.1 before)
    cases nothing.2

/--
As long as a connection is flushed and not closed: what has been sent is a
prefix of the header and the announced part of the file, `sendfile` is called
once the header is sent, the offset and what remains of the file make up its
size, and a flush that leaves the connection open returns what is not yet sent;
when that is nothing, the operation is gone and the state follows `keep_alive_`.
-/
theorem transfer_accounted {conn : Connection} {announced : Announced}
    {transfer : Transfer} (opened : conn.state ≠ .closed)
    (begun : conn.sendfileOp =
      announced.map fun begun => .start begun.1 begun.2)
    (reachable : machine.Reachable { conn } transfer) :
    carried transfer.attempts <+: conn.writeBuf.readable ++ announced.body ∧
      (∀ earlier op answer,
        earlier ++ [.sendfile op answer] <+: transfer.attempts →
          conn.writeBuf.readable <+: carried earlier) ∧
      (∀ op, transfer.conn.sendfileOp = some op →
        op.offset + op.remaining = announced.size) ∧
      ∀ returned, transfer.returned = some returned →
        transfer.conn.state ≠ .closed →
          returned + (carried transfer.attempts).length =
              conn.writeBuf.readable.length + announced.size ∧
            (returned = 0 →
              transfer.conn.state =
                  (if conn.keepAlive then .reading else .closing) ∧
                transfer.conn.sendfileOp = none) := by
  have initially : Sound conn.writeBuf.readable announced conn.keepAlive
      { conn } :=
    ⟨⟨conn, 0, accounts_start conn announced opened begun, Or.inl rfl⟩,
      fun _ result => by cases result⟩
  have sound : transfer.Sound conn.writeBuf.readable announced
      conn.keepAlive :=
    reachable.invariant (fun _ _ _ sound stepped => Sound.step sound stepped)
      initially
  rcases sound.accounted with ⟨last, offset, accounts, same⟩
  refine ⟨?_, accounts.ordered, ?_, ?_⟩
  · have moved : carried transfer.attempts <+:
        conn.writeBuf.readable ++ announced.body.take offset :=
      ⟨_, accounts.moved⟩
    refine moved.trans ((List.prefix_append_right_inj _).2 ?_)
    exact List.take_prefix _ _
  · intro op found
    rcases same with same | shut
    · rw [same] at found
      exact (accounts.begun op found).2.1
    · rw [shut, Connection.onClosed, if_neg accounts.opened] at found
      cases found
  · intro returned result open_
    rcases sound.result returned result open_ with ⟨rfl, ended⟩
    refine ⟨?_, ended⟩
    rcases same with same | shut
    · rw [same]
      exact accounts.counted
    · rw [shut, Connection.onClosed_state] at open_
      exact absurd rfl open_

/-- A header of two bytes and a file of three, flushed twice. -/
theorem transfer_accounted_resumed :
    ∃ transfer : Transfer,
      machine.run
          { conn :=
              (((Connection.opened 3 0).enqueueWrite [1, 2]).beginSendfile
                ⟨7, [3, 4, 5]⟩ 3).1 }
          [[.took 1, .failed .again], [.took 1, .took 2, .failed .again]] =
        some transfer ∧
        carried transfer.attempts = [1, 2, 3, 4] ∧
        ∀ returned, transfer.returned = some returned →
          transfer.conn.state ≠ .closed → returned + 4 = 2 + 3 := by
  have finishes : ∃ transfer : Transfer,
      machine.run
          { conn :=
              (((Connection.opened 3 0).enqueueWrite [1, 2]).beginSendfile
                ⟨7, [3, 4, 5]⟩ 3).1 }
          [[.took 1, .failed .again], [.took 1, .took 2, .failed .again]] =
        some transfer ∧
        carried transfer.attempts = [1, 2, 3, 4] :=
    Option.map_eq_some_iff.1 (by decide)
  rcases finishes with ⟨transfer, ran, sent⟩
  refine ⟨transfer, ran, sent, fun returned result open_ => ?_⟩
  have accounted := (@transfer_accounted _
    (some (⟨7, [3, 4, 5]⟩, 3)) transfer
    (by decide) rfl ⟨_, ran⟩).2.2.2 returned result open_
  rw [sent] at accounted
  exact accounted.1

end Transfer

end Cppws.Net
