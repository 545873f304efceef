import Cppws.Net.Flush

/-!
# When a flush sends everything

Whether a flush leaves nothing to send and the connection open can be told in
advance from the number of bytes there are, in the write buffer and in the
file, and from the answers of the kernel.
-/

namespace Cppws.Net

open Cppws.Http (Bytes)

/--
The answers take `buffered` bytes, and then `remaining` bytes of a file that
has `available` bytes left.
-/
def takesAll (buffered remaining available : Nat) : List Answer → Bool
  | [] => buffered = 0 ∧ remaining = 0
  | answer :: rest =>
      if buffered = 0 ∧ remaining = 0 then
        true
      else
        match answer with
        | .took n =>
            if buffered = 0 then
              let chunk := min n (min remaining available)
              if chunk = 0 then
                false
              else
                takesAll 0 (remaining - chunk) (available - chunk) rest
            else
              takesAll (buffered - n) remaining available rest
        | .failed .intr => takesAll buffered remaining available rest
        | .failed _ => false

theorem takesAll_nothing (available : Nat) (answers : List Answer) :
    takesAll 0 0 available answers = true := by
  cases answers <;> simp [takesAll]

namespace SendfileOp

/-- How many bytes the file has behind the offset. -/
def available (op : SendfileOp) : Nat :=
  op.file.contents.length - op.offset

theorem chunk_length (op : SendfileOp) (n : Nat) :
    (op.chunk n).length = min n (min op.remaining op.available) := by
  rw [chunk, rest, available, List.length_take, List.length_take,
    List.length_drop]

theorem available_advance (op : SendfileOp) (n : Nat) :
    (op.advance n).available = op.available - n :=
  Nat.sub_add_eq _ _ _

end SendfileOp

namespace Connection

/-- How many bytes are to be sent of the file. -/
def fileRemaining (conn : Connection) : Nat :=
  match conn.sendfileOp with
  | some op => op.remaining
  | none => 0

/-- How many bytes the file still has. -/
def fileAvailable (conn : Connection) : Nat :=
  match conn.sendfileOp with
  | some op => op.available
  | none => 0

/-- The answers take everything that the connection has to send. -/
def Clears (conn : Connection) (answers : List Answer) : Prop :=
  takesAll conn.writeBuf.readableBytes conn.fileRemaining conn.fileAvailable
    answers = true

instance (conn : Connection) (answers : List Answer) :
    Decidable (conn.Clears answers) :=
  inferInstanceAs (Decidable (_ = true))

theorem sending_eq_false_iff (conn : Connection) :
    conn.sending = false ↔ conn.fileRemaining = 0 := by
  unfold sending fileRemaining
  cases conn.sendfileOp with
  | none => simp
  | some op => simp [SendfileOp.active]

/-- A connection that has nothing to send clears at once. -/
theorem Idle.clears {conn : Connection} (idle : conn.Idle)
    (answers : List Answer) : conn.Clears answers := by
  have buffered : conn.writeBuf.readableBytes = 0 := by
    rw [← Buffer.readable_length, idle.1]
    rfl
  rw [Clears, buffered, (sending_eq_false_iff conn).1 idle.2]
  exact takesAll_nothing _ _

/-! ## The two loops -/

theorem readableBytes_sent (conn : Connection) (n : Nat) :
    (conn.sent n).writeBuf.readableBytes = conn.writeBuf.readableBytes - n := by
  rw [← Buffer.readable_length, sent, Buffer.readable_consume,
    List.length_drop, Buffer.readable_length]
  omega

theorem readableBytes_eq_zero_iff (conn : Connection) :
    conn.writeBuf.readableBytes = 0 ↔ conn.writeBuf.readable = [] := by
  rw [← Buffer.readable_length, List.length_eq_zero_iff]

theorem sendLoop_takesAll {conn : Connection} {answers : List Answer}
    {ended : Flushing} (valid : conn.socket ≠ none)
    (looped : conn.sendLoop answers = some ended) (remaining available : Nat) :
    (takesAll conn.writeBuf.readableBytes remaining available answers = true ↔
        ended.flow = .drained ∧
          takesAll 0 remaining available ended.rest = true) ∧
      (ended.flow = .drained → ended.conn.sendfileOp = conn.sendfileOp) ∧
      (ended.flow = .wouldBlock → ended.conn.writeBuf.readable ≠ []) := by
  replace looped := sendLoop_rounds looped
  induction looped with
  | @drained conn rest empty =>
      rw [(readableBytes_eq_zero_iff conn).2 empty]
      exact ⟨(and_iff_right rfl).symm, fun _ => rfl,
        fun stuck => by cases stuck⟩
  | @took conn answer rest ended n full replied later ih =>
      have buffered := mt (readableBytes_eq_zero_iff conn).1 full
      have taken := ih valid
      rw [readableBytes_sent] at taken
      rw [eq_of_replies replied valid]
      simp only [takesAll, buffered, false_and, if_false]
      exact taken
  | @again conn answer rest full replied =>
      have buffered := mt (readableBytes_eq_zero_iff conn).1 full
      rw [eq_of_replies replied valid]
      refine ⟨by simp [takesAll, buffered], ?_, fun _ => full⟩
      intro drained
      cases drained
  | @retry conn answer rest ended full replied later ih =>
      have buffered := mt (readableBytes_eq_zero_iff conn).1 full
      rw [eq_of_replies replied valid]
      simpa only [takesAll, buffered, false_and, if_false] using ih valid
  | @fails conn answer rest errno full replied fatal =>
      have buffered := mt (readableBytes_eq_zero_iff conn).1 full
      rw [eq_of_replies replied valid]
      cases errno with
      | again | intr => cases fatal
      | connreset | pipe | other => simp [takesAll, buffered, shut]

/-- The second loop when there is nothing to send of a file. -/
theorem takesAll_of_not_sending {conn : Connection}
    (done : conn.sending = false) (answers : List Answer) :
    (takesAll 0 conn.fileRemaining conn.fileAvailable answers = true ↔
        Flow.drained ≠ .closed ∧ conn.sending = false) := by
  rw [(sending_eq_false_iff conn).1 done]
  exact iff_of_true (takesAll_nothing _ _) ⟨by decide, done⟩

/-- What is to be sent of a file that is being sent. -/
theorem file_of_active {conn : Connection} {op : SendfileOp}
    (found : conn.sendfileOp = some op) (active : op.active = true) :
    conn.fileRemaining = op.remaining ∧ conn.fileAvailable = op.available ∧
      op.remaining ≠ 0 ∧ conn.sending = true := by
  refine ⟨?_, ?_, ?_, (sending_of_some found).trans active⟩
  · rw [fileRemaining, found]
  · rw [fileAvailable, found]
  · have positive : 0 < op.remaining := by
      simpa [SendfileOp.active] using active
    exact Nat.ne_of_gt positive

theorem sendfileLoop_takesAll {conn : Connection} {answers : List Answer}
    {ended : Flushing} (valid : conn.socket ≠ none)
    (looped : conn.sendfileLoop answers = some ended) :
    (takesAll 0 conn.fileRemaining conn.fileAvailable answers = true ↔
        ended.flow ≠ .closed ∧ ended.conn.sending = false) ∧
      (ended.flow ≠ .closed → ended.conn.writeBuf = conn.writeBuf) := by
  replace looped := sendfileLoop_rounds looped
  induction looped with
  | drained done => exact ⟨takesAll_of_not_sending done _, fun _ => rfl⟩
  | @atEof conn answer rest op n found active replied finished =>
      rcases file_of_active found active with ⟨left, stored, busy, sending⟩
      have counted := op.chunk_length n
      rw [finished, List.length_nil] at counted
      rw [eq_of_replies replied valid, left, stored]
      simp only [takesAll, true_and, busy, if_false, if_true, ← counted]
      refine ⟨iff_of_false Bool.false_ne_true ?_, fun _ => trivial⟩
      rw [sending]
      exact fun held => Bool.false_ne_true held.2.symm
  | @took conn answer rest ended op n found active replied more later ih =>
      rcases file_of_active found active with ⟨left, stored, busy, _⟩
      have counted := op.chunk_length n
      have progress : (op.chunk n).length ≠ 0 :=
        mt List.length_eq_zero_iff.1 more
      have taken : (takesAll 0
          (op.advance (op.chunk n).length).remaining
          (op.advance (op.chunk n).length).available rest = true ↔
            ended.flow ≠ .closed ∧ ended.conn.sending = false) ∧
          (ended.flow ≠ .closed → ended.conn.writeBuf = conn.writeBuf) :=
        ih valid
      rw [SendfileOp.available_advance] at taken
      rw [eq_of_replies replied valid, left, stored]
      simp only [takesAll, true_and, busy, if_false, if_true, ← counted,
        progress]
      exact taken
  | @again conn answer rest op found active replied =>
      rcases file_of_active found active with ⟨left, _, busy, sending⟩
      rw [eq_of_replies replied valid]
      simp [takesAll, left, busy, sending]
  | @retry conn answer rest ended op found active replied later ih =>
      rcases file_of_active found active with ⟨left, _, busy, _⟩
      rw [eq_of_replies replied valid]
      simpa [takesAll, left, busy] using ih valid
  | @fails conn answer rest op errno found active replied fatal =>
      rcases file_of_active found active with ⟨left, _, busy, _⟩
      rw [eq_of_replies replied valid]
      cases errno with
      | again | intr => cases fatal
      | connreset | pipe | other => simp [takesAll, left, busy, shut]

/-! ## The whole function -/

theorem isAlive_of_closed {conn : Connection} (closed : conn.state = .closed) :
    conn.isAlive = false := by
  rw [isAlive, closed]
  rfl

theorem not_isAlive_onClosed (conn : Connection) :
    conn.onClosed.1.isAlive = false :=
  isAlive_of_closed (onClosed_state conn)

/-- The end of a flush that has not closed the connection. -/
theorem Flushing.finish_idle_iff (ended : Flushing)
    (opened : ended.flow ≠ .closed) (alive : ended.conn.isAlive = true) :
    ended.finish.conn.isAlive = true ∧
      (ended.finish.conn.Idle ↔ ended.conn.Idle) := by
  have finished : ended.finish.conn = ended.conn.settle.1 := by
    rw [Flushing.finish]
    cases flow : ended.flow <;> first | rfl | exact absurd flow opened
  rw [finished]
  by_cases idle : ended.conn.Idle
  · rw [settle, if_pos ⟨(Buffer.empty_iff _).2 idle.1, by simp [idle.2]⟩]
    refine ⟨?_, iff_of_true ⟨idle.1, rfl⟩ idle⟩
    rw [isAlive]
    cases ended.conn.keepAlive <;> rfl
  · rw [settle, if_neg]
    · exact ⟨alive, Iff.rfl⟩
    · rintro ⟨empty, done⟩
      exact idle ⟨(Buffer.empty_iff _).1 empty, by simpa using done⟩

/-- A flush leaves an open connection with nothing to send if it clears. -/
theorem flushWrite_idle_iff {conn : Connection} {answers : List Answer}
    {flushed : Flushed} (valid : conn.socket ≠ none)
    (alive : conn.isAlive = true)
    (ran : conn.flushWrite answers = some flushed) :
    flushed.conn.isAlive = true ∧ flushed.conn.Idle ↔
      conn.Clears answers := by
  have owned : ∀ {last : Connection}, SameOwner conn last →
      last.isAlive = true := by
    intro last owner
    rw [isAlive, owner.state]
    exact alive
  cases flushWrite_phases ran with
  | first headers sent flow =>
      rcases sendLoop_proceeds sent with ⟨proceeds, _⟩
      rcases sendLoop_takesAll valid sent conn.fileRemaining
        conn.fileAvailable with ⟨taken, _, stuck⟩
      rw [Clears, taken]
      refine iff_of_false ?_ fun held => flow held.1
      by_cases closed : headers.flow = .closed
      · have gone : headers.finish.conn.isAlive = false :=
          isAlive_of_closed (proceeds.finish_closed closed [])
        rw [gone]
        exact fun held => Bool.false_ne_true held.1
      · have finish := headers.finish_idle_iff closed
          (owned (proceeds.kept closed).1)
        have blocked : headers.flow = .wouldBlock := by
          cases only : headers.flow with
          | wouldBlock => rfl
          | drained => exact absurd only flow
          | closed => exact absurd only closed
        exact fun held => stuck blocked (finish.2.1 held.2).1
  | both headers body sent flow filed =>
      rcases sendLoop_proceeds sent with ⟨proceeds, drained⟩
      rcases sendLoop_takesAll valid sent conn.fileRemaining
        conn.fileAvailable with ⟨taken, sameFile, _⟩
      have opened : headers.flow ≠ .closed := by
        rw [flow]
        decide
      have owner := (proceeds.kept opened).1
      have remaining : headers.conn.fileRemaining = conn.fileRemaining := by
        rw [fileRemaining, fileRemaining, sameFile flow]
      have available : headers.conn.fileAvailable = conn.fileAvailable := by
        rw [fileAvailable, fileAvailable, sameFile flow]
      have later := sendfileLoop_proceeds (drained flow) filed
      rcases sendfileLoop_takesAll (owner.socket ▸ valid) filed with
        ⟨took, sameBuffer⟩
      rw [Clears, taken, and_iff_right flow, ← remaining, ← available, took]
      by_cases closed : body.flow = .closed
      · rw [isAlive_of_closed (later.finish_closed closed _)]
        simp [closed]
      · have finish := (body.after headers.calls).finish_idle_iff closed
          (owned (owner.trans (later.kept closed).1))
        rw [finish.2]
        have buffered : body.conn.writeBuf.readable = [] := by
          rw [sameBuffer closed]
          exact drained flow
        constructor
        · exact fun held => ⟨closed, held.2.2⟩
        · exact fun held => ⟨finish.1, buffered, held.2⟩

end Connection

end Cppws.Net
