import Cppws.Net.Connection

/-!
# What a flush does

One specification for both loops of `flush_write`.  A loop either leaves the
connection to its owner and moves bytes from what is unsent to the wire, or it
ends in `on_closed`; which of the two it is depends on the answers alone as
long as the socket is valid.  `flush_write` and its callers are reasoned about
through the specification of the whole function at the end.
-/

namespace Cppws.Net

open Cppws.Http (Bytes)

@[simp]
theorem wire_append (first second : List Call) :
    wire (first ++ second) = wire first ++ wire second :=
  List.flatMap_append

/-- An answer on which `flush_write` closes the connection. -/
def Answer.fatal : Answer → Bool
  | .took _ => false
  | .failed .again => false
  | .failed .intr => false
  | .failed _ => true

/-- The calls that concern the socket itself. -/
def Call.isControl : Call → Bool
  | .closeCallback _ => true
  | .close _ => true
  | _ => false

def control (calls : List Call) : List Call :=
  calls.filter Call.isControl

@[simp]
theorem control_append (first second : List Call) :
    control (first ++ second) = control first ++ control second :=
  List.filter_append ..

@[simp]
theorem wire_releaseFile (op : Option SendfileOp) :
    wire (releaseFile op) = [] := by
  cases op <;> rfl

@[simp]
theorem control_releaseFile (op : Option SendfileOp) :
    control (releaseFile op) = [] := by
  cases op <;> rfl

namespace SendfileOp

/-- The bytes of a chunk are the next ones of the file. -/
theorem chunk_append_rest (op : SendfileOp) (n : Nat) :
    op.chunk n ++ (op.advance (op.chunk n).length).rest = op.rest := by
  have split : op.rest.take (op.chunk n).length = op.chunk n := by
    rw [chunk, List.length_take, ← List.take_take, List.take_length]
  have tail : (op.advance (op.chunk n).length).rest =
      op.rest.drop (op.chunk n).length := by
    rw [rest, rest, advance, List.drop_take, List.drop_drop]
  calc op.chunk n ++ (op.advance (op.chunk n).length).rest
      = op.rest.take (op.chunk n).length ++
          op.rest.drop (op.chunk n).length := by rw [split, tail]
    _ = op.rest := List.take_append_drop _ _

theorem rest_of_not_active {op : SendfileOp} (done : op.active = false) :
    op.rest = [] := by
  have spent : op.remaining = 0 := by simpa [active] using done
  rw [rest, spent, List.take_zero]

end SendfileOp

namespace Connection

/-- What is still to be sent of the file. -/
def unsentFile (conn : Connection) : Bytes :=
  match conn.sendfileOp with
  | some op => op.rest
  | none => []

/-- Everything that was handed over and not yet sent. -/
def unsent (conn : Connection) : Bytes :=
  conn.writeBuf.readable ++ conn.unsentFile

/-- Nothing is left to send. -/
def Idle (conn : Connection) : Prop :=
  conn.writeBuf.readable = [] ∧ conn.sending = false

instance (conn : Connection) : Decidable conn.Idle :=
  inferInstanceAs (Decidable (_ ∧ _))

theorem unsentFile_of_not_sending {conn : Connection}
    (done : conn.sending = false) : conn.unsentFile = [] := by
  unfold unsentFile
  unfold sending at done
  cases found : conn.sendfileOp with
  | none => rfl
  | some op =>
      rw [found] at done
      exact SendfileOp.rest_of_not_active done

theorem Idle.unsent {conn : Connection} (idle : conn.Idle) :
    conn.unsent = [] := by
  rw [Connection.unsent, idle.1, unsentFile_of_not_sending idle.2]
  rfl

/-- The parts of a connection that sending does not touch. -/
structure SameOwner (before after : Connection) : Prop where
  socket : after.socket = before.socket
  id : after.id = before.id
  state : after.state = before.state
  readBuf : after.readBuf = before.readBuf
  keepAlive : after.keepAlive = before.keepAlive

theorem SameOwner.refl (conn : Connection) : SameOwner conn conn :=
  ⟨rfl, rfl, rfl, rfl, rfl⟩

theorem SameOwner.trans {first second third : Connection}
    (one : SameOwner first second) (two : SameOwner second third) :
    SameOwner first third :=
  ⟨two.socket.trans one.socket, two.id.trans one.id,
    two.state.trans one.state, two.readBuf.trans one.readBuf,
    two.keepAlive.trans one.keepAlive⟩

@[simp]
theorem wire_onClosed (conn : Connection) : wire conn.onClosed.2 = [] := by
  unfold onClosed
  split
  case isTrue => rfl
  case isFalse =>
    rw [wire_append, wire_releaseFile]
    cases conn.socket <;> rfl

theorem onClosed_state (conn : Connection) :
    conn.onClosed.1.state = .closed := by
  unfold onClosed
  split
  case isTrue closed => exact closed
  case isFalse => rfl

/-! ## The rounds of the two loops -/

/-- Phase 1 of `flush_write`, one `send` after the other. -/
inductive SendRounds : Connection → List Answer → Flushing → Prop where
  | drained {conn rest} (empty : conn.writeBuf.readable = []) :
      SendRounds conn rest ⟨conn, [], .drained, rest⟩
  | took {conn answer rest ended n} (full : conn.writeBuf.readable ≠ [])
      (replied : conn.replies answer = .took n)
      (later : SendRounds (conn.sent n) rest ended) :
      SendRounds conn (answer :: rest)
        (ended.after [.send (conn.writeBuf.readable.take n)])
  | again {conn answer rest} (full : conn.writeBuf.readable ≠ [])
      (replied : conn.replies answer = .failed .again) :
      SendRounds conn (answer :: rest) ⟨conn, [], .wouldBlock, rest⟩
  | retry {conn answer rest ended} (full : conn.writeBuf.readable ≠ [])
      (replied : conn.replies answer = .failed .intr)
      (later : SendRounds conn rest ended) :
      SendRounds conn (answer :: rest) ended
  | fails {conn answer rest errno} (full : conn.writeBuf.readable ≠ [])
      (replied : conn.replies answer = .failed errno)
      (fatal : (Answer.failed errno).fatal = true) :
      SendRounds conn (answer :: rest) (conn.shut rest)

theorem sendLoop_rounds {conn : Connection} {answers : List Answer}
    {ended : Flushing} (looped : conn.sendLoop answers = some ended) :
    SendRounds conn answers ended := by
  induction answers generalizing conn ended with
  | nil =>
      simp only [sendLoop] at looped
      split_ifs at looped with empty
      cases looped
      exact .drained ((Buffer.empty_iff _).1 empty)
  | cons answer rest ih =>
      simp only [sendLoop] at looped
      split_ifs at looped with empty
      · cases looped
        exact .drained ((Buffer.empty_iff _).1 empty)
      · have full := mt (Buffer.empty_iff conn.writeBuf).2 empty
        cases replied : conn.replies answer with
        | took n =>
            rw [replied] at looped
            rcases Option.map_eq_some_iff.1 looped with ⟨later, ran, rfl⟩
            exact .took full replied (ih ran)
        | failed errno =>
            rw [replied] at looped
            cases errno with
            | again =>
                cases looped
                exact .again full replied
            | intr => exact .retry full replied (ih looped)
            | connreset | pipe | other =>
                cases looped
                exact .fails full replied rfl

/-- Phase 2 of `flush_write`, one `sendfile` after the other. -/
inductive SendfileRounds : Connection → List Answer → Flushing →
    Prop where
  | drained {conn rest} (done : conn.sending = false) :
      SendfileRounds conn rest ⟨conn, [], .drained, rest⟩
  | atEof {conn answer rest op n} (found : conn.sendfileOp = some op)
      (active : op.active = true) (replied : conn.replies answer = .took n)
      (finished : op.chunk n = []) :
      SendfileRounds conn (answer :: rest) ⟨conn, [], .drained, rest⟩
  | took {conn answer rest ended op n} (found : conn.sendfileOp = some op)
      (active : op.active = true) (replied : conn.replies answer = .took n)
      (more : op.chunk n ≠ [])
      (later : SendfileRounds
        { conn with sendfileOp := some (op.advance (op.chunk n).length) }
        rest ended) :
      SendfileRounds conn (answer :: rest)
        (ended.after [.sendfile (op.chunk n)])
  | again {conn answer rest op} (found : conn.sendfileOp = some op)
      (active : op.active = true)
      (replied : conn.replies answer = .failed .again) :
      SendfileRounds conn (answer :: rest) ⟨conn, [], .wouldBlock, rest⟩
  | retry {conn answer rest ended op} (found : conn.sendfileOp = some op)
      (active : op.active = true)
      (replied : conn.replies answer = .failed .intr)
      (later : SendfileRounds conn rest ended) :
      SendfileRounds conn (answer :: rest) ended
  | fails {conn answer rest op errno} (found : conn.sendfileOp = some op)
      (active : op.active = true)
      (replied : conn.replies answer = .failed errno)
      (fatal : (Answer.failed errno).fatal = true) :
      SendfileRounds conn (answer :: rest) (conn.shut rest)

theorem sending_of_none {conn : Connection} (found : conn.sendfileOp = none) :
    conn.sending = false := by
  rw [sending, found]
  rfl

theorem sending_of_some {conn : Connection} {op : SendfileOp}
    (found : conn.sendfileOp = some op) : conn.sending = op.active := by
  rw [sending, found]
  rfl

theorem sendfileLoop_rounds {conn : Connection} {answers : List Answer}
    {ended : Flushing} (looped : conn.sendfileLoop answers = some ended) :
    SendfileRounds conn answers ended := by
  induction answers generalizing conn ended with
  | nil =>
      cases found : conn.sendfileOp with
      | none =>
          simp only [sendfileLoop, found] at looped
          cases looped
          exact .drained (sending_of_none found)
      | some op =>
          simp only [sendfileLoop, found] at looped
          split_ifs at looped with active
          cases looped
          refine .drained ((sending_of_some found).trans ?_)
          exact Bool.eq_false_of_not_eq_true active
  | cons answer rest ih =>
      cases found : conn.sendfileOp with
      | none =>
          simp only [sendfileLoop, found] at looped
          cases looped
          exact .drained (sending_of_none found)
      | some op =>
          simp only [sendfileLoop, found] at looped
          split_ifs at looped with active
          · cases replied : conn.replies answer with
            | took n =>
                simp only [replied] at looped
                split_ifs at looped with finished
                · cases looped
                  exact .atEof found active replied finished
                · rcases Option.map_eq_some_iff.1 looped with
                    ⟨later, ran, rfl⟩
                  exact .took found active replied finished (ih ran)
            | failed errno =>
                simp only [replied] at looped
                cases errno with
                | again =>
                    cases looped
                    exact .again found active replied
                | intr => exact .retry found active replied (ih looped)
                | connreset | pipe | other =>
                    cases looped
                    exact .fails found active replied rfl
          · cases looped
            refine .drained ((sending_of_some found).trans ?_)
            exact Bool.eq_false_of_not_eq_true active

/-- Both loops of a flush, or the first one if it does not come to its end. -/
inductive Phases (conn : Connection) (answers : List Answer) :
    Flushed → Prop where
  | both (headers body : Flushing) (sent : conn.sendLoop answers = some headers)
      (flow : headers.flow = .drained)
      (filed : headers.conn.sendfileLoop headers.rest = some body) :
      Phases conn answers (body.after headers.calls).finish
  | first (headers : Flushing) (sent : conn.sendLoop answers = some headers)
      (flow : headers.flow ≠ .drained) :
      Phases conn answers headers.finish

theorem flushWrite_phases {conn : Connection} {answers : List Answer}
    {flushed : Flushed} (ran : conn.flushWrite answers = some flushed) :
    Phases conn answers flushed := by
  rcases Option.bind_eq_some_iff.1 ran with ⟨headers, sent, ran⟩
  cases flow : headers.flow with
  | drained =>
      simp only [flow] at ran
      rcases Option.map_eq_some_iff.1 ran with ⟨body, filed, rfl⟩
      exact .both headers body sent flow filed
  | wouldBlock | closed =>
      simp only [flow, Option.some.injEq] at ran
      subst ran
      exact .first headers sent (by rw [flow]; decide)

/-! ## The specification of a loop -/

/-- What a loop of `flush_write` does from a connection. -/
structure Proceeds (conn : Connection) (answers : List Answer)
    (ended : Flushing) : Prop where
  used : ∃ used, answers = used ++ ended.rest ∧
    (conn.socket ≠ none →
      ((∃ answer ∈ used, answer.fatal = true) ↔ ended.flow = .closed))
  kept : ended.flow ≠ .closed →
    SameOwner conn ended.conn ∧ control ended.calls = [] ∧
      wire ended.calls ++ ended.conn.unsent = conn.unsent
  lost : ended.flow = .closed →
    wire ended.calls <+: conn.unsent ∧
      ∃ last, SameOwner conn last ∧ ended.conn = last.onClosed.1 ∧
        control ended.calls = control last.onClosed.2

/-- The loop ends without closing the connection. -/
theorem Proceeds.stay (conn : Connection) {flow : Flow}
    (openFlow : flow ≠ .closed) (used : List Answer)
    (harmless : conn.socket ≠ none →
      ∀ answer ∈ used, answer.fatal = false)
    (rest : List Answer) :
    Proceeds conn (used ++ rest) ⟨conn, [], flow, rest⟩ := by
  refine ⟨⟨used, rfl, fun valid => ?_⟩, fun _ => ?_, fun closed => ?_⟩
  · constructor
    · rintro ⟨answer, member, fatal⟩
      rw [harmless valid answer member] at fatal
      cases fatal
    · exact fun closed => absurd closed openFlow
  · exact ⟨SameOwner.refl conn, rfl, rfl⟩
  · exact absurd closed openFlow

/-- The loop closes the connection. -/
theorem Proceeds.shut {conn : Connection} {answer : Answer}
    (fatal : conn.socket ≠ none → answer.fatal = true)
    (rest : List Answer) :
    Proceeds conn (answer :: rest) (conn.shut rest) := by
  refine ⟨⟨[answer], rfl, fun valid => ?_⟩, fun opened => ?_,
    fun _ => ?_⟩
  · constructor
    · exact fun _ => rfl
    · exact fun _ => ⟨answer, List.mem_cons_self, fatal valid⟩
  · exact absurd rfl opened
  · refine ⟨?_, conn, SameOwner.refl conn, rfl, rfl⟩
    rw [Connection.shut, wire_onClosed]
    exact List.nil_prefix

/-- Some harmless answers, and the rest of the loop. -/
theorem Proceeds.after {conn moved : Connection} (answered : List Answer)
    (calls : List Call) {answers : List Answer} {ended : Flushing}
    (rest : Proceeds moved answers ended) (same : SameOwner conn moved)
    (harmless : conn.socket ≠ none →
      ∀ answer ∈ answered, answer.fatal = false)
    (quiet : control calls = [])
    (carried : wire calls ++ moved.unsent = conn.unsent) :
    Proceeds conn (answered ++ answers) (ended.after calls) := by
  rcases rest with ⟨⟨used, split, closes⟩, kept, lost⟩
  refine ⟨⟨answered ++ used, ?_, fun valid => ?_⟩, fun opened => ?_,
    fun closed => ?_⟩
  · rw [split, List.append_assoc]
    rfl
  · refine Iff.trans ?_ (closes (same.socket ▸ valid))
    constructor
    · rintro ⟨answer, member, fatal⟩
      rcases List.mem_append.1 member with early | late
      · rw [harmless valid answer early] at fatal
        cases fatal
      · exact ⟨answer, late, fatal⟩
    · rintro ⟨answer, member, fatal⟩
      exact ⟨answer, List.mem_append_right _ member, fatal⟩
  · rcases kept opened with ⟨owner, control, output⟩
    refine ⟨same.trans owner, ?_, ?_⟩
    · rw [Flushing.after, control_append, quiet, control]
      rfl
    · rw [Flushing.after, wire_append, List.append_assoc, output, carried]
  · rcases lost closed with
      ⟨⟨unsent, output⟩, last, owner, shut, control⟩
    refine ⟨⟨unsent, ?_⟩, last, same.trans owner, shut, ?_⟩
    · rw [Flushing.after, wire_append, List.append_assoc, output, carried]
    · rw [Flushing.after, control_append, quiet]
      exact control

/-- One harmless answer, and the rest of the loop. -/
theorem Proceeds.next {conn moved : Connection} {answer : Answer}
    {calls : List Call} {answers : List Answer} {ended : Flushing}
    (rest : Proceeds moved answers ended) (same : SameOwner conn moved)
    (harmless : conn.socket ≠ none → answer.fatal = false)
    (quiet : control calls = [])
    (carried : wire calls ++ moved.unsent = conn.unsent) :
    Proceeds conn (answer :: answers) (ended.after calls) :=
  rest.after [answer] calls same
    (fun valid => List.forall_mem_singleton.2 (harmless valid)) quiet carried

/-- A call that is made again. -/
theorem Proceeds.retry {conn : Connection} {answer : Answer}
    {answers : List Answer} {ended : Flushing}
    (rest : Proceeds conn answers ended)
    (harmless : conn.socket ≠ none → answer.fatal = false) :
    Proceeds conn (answer :: answers) ended :=
  rest.after [answer] [] (SameOwner.refl conn)
    (fun valid => List.forall_mem_singleton.2 (harmless valid)) rfl rfl

theorem replies_valid {conn : Connection} (valid : conn.socket ≠ none)
    (answer : Answer) : conn.replies answer = answer :=
  if_neg valid

theorem eq_of_replies {conn : Connection} {answer reply : Answer}
    (replied : conn.replies answer = reply) (valid : conn.socket ≠ none) :
    answer = reply :=
  (replies_valid valid answer).symm.trans replied

theorem readable_sent (conn : Connection) (n : Nat) :
    (conn.sent n).writeBuf.readable = conn.writeBuf.readable.drop n := by
  have bounded : conn.writeBuf.readable.drop
      (min n conn.writeBuf.readableBytes) =
        conn.writeBuf.readable.drop n := by
    rw [← Buffer.readable_length]
    rcases Nat.le_total n conn.writeBuf.readable.length with short | long
    · rw [Nat.min_eq_left short]
    · rw [Nat.min_eq_right long, List.drop_length,
        List.drop_eq_nil_of_le long]
  rw [sent, Buffer.readable_consume, bounded]

theorem unsent_sent (conn : Connection) (n : Nat) :
    conn.writeBuf.readable.take n ++ (conn.sent n).unsent = conn.unsent := by
  rw [unsent, readable_sent, ← List.append_assoc, List.take_append_drop]
  rfl

theorem unsent_advance {conn : Connection} {op : SendfileOp}
    (buffered : conn.writeBuf.readable = [])
    (found : conn.sendfileOp = some op) (n : Nat) :
    op.chunk n ++
        { conn with
          sendfileOp := some (op.advance (op.chunk n).length) }.unsent =
      conn.unsent := by
  simp only [unsent, unsentFile, buffered, found, List.nil_append]
  exact op.chunk_append_rest n

theorem Proceeds.ends (conn : Connection) (answers : List Answer) :
    Proceeds conn answers ⟨conn, [], .drained, answers⟩ :=
  .stay conn (by decide) [] (by simp) answers

/-- The socket would block, or the file has ended. -/
theorem Proceeds.stops {conn : Connection} {answer reply : Answer} {flow : Flow}
    (openFlow : flow ≠ .closed) (replied : conn.replies answer = reply)
    (harmless : reply.fatal = false) (rest : List Answer) :
    Proceeds conn (answer :: rest) ⟨conn, [], flow, rest⟩ := by
  refine .stay conn openFlow [answer] (fun valid => ?_) rest
  rw [List.forall_mem_singleton, eq_of_replies replied valid]
  exact harmless

theorem sendLoop_proceeds {conn : Connection} {answers : List Answer}
    {ended : Flushing} (looped : conn.sendLoop answers = some ended) :
    Proceeds conn answers ended ∧
      (ended.flow = .drained → ended.conn.writeBuf.readable = []) := by
  replace looped := sendLoop_rounds looped
  induction looped with
  | drained empty => exact ⟨.ends _ _, fun _ => empty⟩
  | @took conn answer rest ended n full replied later ih =>
      rcases ih with ⟨proceeds, drained⟩
      refine ⟨proceeds.next ⟨rfl, rfl, rfl, rfl, rfl⟩ ?_ rfl ?_,
        drained⟩
      · exact fun valid => eq_of_replies replied valid ▸ rfl
      · rw [← unsent_sent conn n]
        simp [wire, Call.bytes]
  | again full replied =>
      exact ⟨.stops (by decide) replied rfl _,
        fun drained => by cases drained⟩
  | retry full replied later ih =>
      rcases ih with ⟨proceeds, drained⟩
      exact ⟨proceeds.retry fun valid => eq_of_replies replied valid ▸ rfl,
        drained⟩
  | fails full replied fatal =>
      exact ⟨.shut (fun valid => eq_of_replies replied valid ▸ fatal) _,
        fun drained => by cases drained⟩

theorem sendfileLoop_proceeds {conn : Connection} {answers : List Answer}
    {ended : Flushing} (buffered : conn.writeBuf.readable = [])
    (looped : conn.sendfileLoop answers = some ended) :
    Proceeds conn answers ended := by
  replace looped := sendfileLoop_rounds looped
  induction looped with
  | drained done => exact .ends _ _
  | atEof found active replied finished =>
      exact .stops (by decide) replied rfl _
  | @took conn answer rest ended op n found active replied more later ih =>
      refine (ih buffered).next ⟨rfl, rfl, rfl, rfl, rfl⟩ ?_ rfl ?_
      · exact fun valid => eq_of_replies replied valid ▸ rfl
      · rw [← unsent_advance buffered found n]
        simp [wire, Call.bytes]
  | again found active replied => exact .stops (by decide) replied rfl _
  | retry found active replied later ih =>
      exact (ih buffered).retry fun valid => eq_of_replies replied valid ▸ rfl
  | fails found active replied fatal =>
      exact .shut (fun valid => eq_of_replies replied valid ▸ fatal) _

/-! ## The specification of the function -/

theorem bytesRemaining_eq_zero_iff (conn : Connection) :
    conn.bytesRemaining = 0 ↔ conn.Idle := by
  unfold bytesRemaining Idle sending
  rw [← List.length_eq_zero_iff, Buffer.readable_length]
  cases conn.sendfileOp with
  | none => simp
  | some op => simp [SendfileOp.active]

/-- What `flush_write` does from a connection. -/
inductive Flushes (conn : Connection) (answers : List Answer)
    (flushed : Flushed) : Prop where
  /-- It returns what remains to be sent. -/
  | opened (used : List Answer)
      (split : answers = used ++ flushed.rest)
      (harmless : conn.socket ≠ none →
        ∀ answer ∈ used, answer.fatal = false)
      (socket : flushed.conn.socket = conn.socket)
      (id : flushed.conn.id = conn.id)
      (readBuf : flushed.conn.readBuf = conn.readBuf)
      (keepAlive : flushed.conn.keepAlive = conn.keepAlive)
      (quiet : control flushed.calls = [])
      (output : wire flushed.calls ++ flushed.conn.unsent = conn.unsent)
      (returned : flushed.remaining = flushed.conn.bytesRemaining)
      (settled : flushed.conn.Idle ∧ flushed.conn.sendfileOp = none ∧
          flushed.conn.state =
            (if conn.keepAlive then .reading else .closing) ∨
        ¬ flushed.conn.Idle ∧ flushed.conn.state = conn.state)
  /-- It closes the connection and returns 0. -/
  | shut (used : List Answer)
      (split : answers = used ++ flushed.rest)
      (fatal : conn.socket ≠ none →
        ∃ answer ∈ used, answer.fatal = true)
      (last : Connection) (owner : SameOwner conn last)
      (closed : flushed.conn = last.onClosed.1)
      (told : control flushed.calls = control last.onClosed.2)
      (output : wire flushed.calls <+: conn.unsent)
      (returned : flushed.remaining = 0)

/-- The next state is not `Closed` if the old one was not. -/
theorem isAlive_of_settled {conn last : Connection}
    (settled : last.Idle ∧ last.sendfileOp = none ∧
        last.state = (if conn.keepAlive then .reading else .closing) ∨
      ¬ last.Idle ∧ last.state = conn.state)
    (alive : conn.isAlive = true) : last.isAlive = true := by
  rcases settled with ⟨_, _, state⟩ | ⟨_, state⟩
  · rw [isAlive, state]
    cases conn.keepAlive <;> rfl
  · rw [isAlive, state]
    exact alive

theorem Proceeds.finish {conn : Connection} {answers : List Answer}
    {ended : Flushing} (proceeds : Proceeds conn answers ended) :
    Flushes conn answers ended.finish := by
  rcases proceeds with ⟨⟨used, split, closes⟩, kept, lost⟩
  by_cases closed : ended.flow = .closed
  · rcases lost closed with ⟨output, last, owner, shut, told⟩
    have finished : ended.finish =
        ⟨ended.conn, ended.calls, 0, ended.rest⟩ := by
      rw [Flushing.finish, closed]
    rw [finished]
    exact .shut used split (fun valid => (closes valid).2 closed) last owner
      shut told output rfl
  · rcases kept closed with ⟨owner, quiet, output⟩
    have harmless : conn.socket ≠ none →
        ∀ answer ∈ used, answer.fatal = false := by
      intro valid answer member
      apply Bool.eq_false_of_not_eq_true
      exact fun fatal => closed ((closes valid).1 ⟨answer, member, fatal⟩)
    have finished : ended.finish =
        ⟨ended.conn.settle.1, ended.calls ++ ended.conn.settle.2,
          ended.conn.settle.1.bytesRemaining, ended.rest⟩ := by
      rw [Flushing.finish]
      cases flow : ended.flow <;> first | rfl | exact absurd flow closed
    rw [finished]
    by_cases idle : ended.conn.Idle
    · have settled : ended.conn.settle =
          ({ ended.conn with
              sendfileOp := none
              state := if ended.conn.keepAlive then .reading else .closing },
            releaseFile ended.conn.sendfileOp) := by
        rw [settle, if_pos]
        exact ⟨(Buffer.empty_iff _).2 idle.1, by simp [idle.2]⟩
      rw [settled]
      refine .opened used split harmless owner.socket owner.id owner.readBuf
        owner.keepAlive (by simp [quiet]) ?_ rfl (Or.inl ⟨?_, rfl, ?_⟩)
      · rw [← output, idle.unsent, wire_append, wire_releaseFile,
          List.append_nil]
        simp [unsent, unsentFile, idle.1]
      · exact ⟨idle.1, rfl⟩
      · rw [owner.keepAlive]
    · have settled : ended.conn.settle = (ended.conn, []) := by
        rw [settle, if_neg]
        rintro ⟨empty, done⟩
        exact idle ⟨(Buffer.empty_iff _).1 empty, by simpa using done⟩
      rw [settled]
      exact .opened used split harmless owner.socket owner.id owner.readBuf
        owner.keepAlive (by simp [quiet]) (by simp [output]) rfl
        (Or.inr ⟨idle, owner.state⟩)

/-- The end of a flush that has closed the connection. -/
theorem Proceeds.finish_closed {conn : Connection} {answers : List Answer}
    {ended : Flushing} (proceeds : Proceeds conn answers ended)
    (closed : ended.flow = .closed) (calls : List Call) :
    (ended.after calls).finish.conn.state = .closed := by
  rcases proceeds.lost closed with ⟨_, last, _, shut, _⟩
  rw [Flushing.finish, Flushing.after, closed]
  exact (congrArg Connection.state shut).trans (onClosed_state last)

theorem flushWrite_flushes {conn : Connection} {answers : List Answer}
    {flushed : Flushed} (ran : conn.flushWrite answers = some flushed) :
    Flushes conn answers flushed := by
  cases flushWrite_phases ran with
  | first headers sent => exact (sendLoop_proceeds sent).1.finish
  | both headers body sent flow filed =>
      rcases sendLoop_proceeds sent with ⟨proceeds, drained⟩
      have opened : headers.flow ≠ .closed := by rw [flow]; decide
      rcases proceeds with ⟨⟨used, split, closes⟩, kept, _⟩
      rcases kept opened with ⟨owner, quiet, output⟩
      rw [split]
      refine ((sendfileLoop_proceeds (drained flow) filed).after used
        headers.calls owner ?_ quiet output).finish
      intro valid answer member
      apply Bool.eq_false_of_not_eq_true
      exact fun fatal => opened ((closes valid).1 ⟨answer, member, fatal⟩)

/-! ## Flushes without a system call, or with one that fails -/

/-- With nothing to send, the operation goes and the next state is chosen. -/
theorem flushWrite_of_idle {conn : Connection} (idle : conn.Idle)
    (answers : List Answer) :
    conn.flushWrite answers =
      some
        ⟨{ conn with
            sendfileOp := none
            state := if conn.keepAlive then .reading else .closing },
          releaseFile conn.sendfileOp, 0, answers⟩ := by
  have empty : conn.writeBuf.empty = true := (Buffer.empty_iff _).2 idle.1
  have sent : conn.sendLoop answers =
      some ⟨conn, [], .drained, answers⟩ := by
    cases answers with
    | nil => simp only [sendLoop, if_pos empty]
    | cons answer rest => simp only [sendLoop, if_pos empty]
  have filed : conn.sendfileLoop answers =
      some ⟨conn, [], .drained, answers⟩ := by
    cases found : conn.sendfileOp with
    | none => cases answers <;> simp [sendfileLoop, found]
    | some op =>
        have inactive : op.active = false := by
          have done := idle.2
          rw [sending, found] at done
          exact done
        cases answers <;> simp [sendfileLoop, found, inactive]
  have settled : conn.settle =
      ({ conn with
          sendfileOp := none
          state := if conn.keepAlive then .reading else .closing },
        releaseFile conn.sendfileOp) := by
    rw [settle, if_pos ⟨empty, by simp [idle.2]⟩]
  have nothing : bytesRemaining { conn with
      sendfileOp := none
      state := if conn.keepAlive then .reading else .closing } = 0 :=
    (bytesRemaining_eq_zero_iff _).2 ⟨idle.1, rfl⟩
  simp only [flushWrite, sent, Option.bind_some, filed, Option.map_some,
    Flushing.after, Flushing.finish, settled, List.nil_append, nothing]

/-- On a closed connection with something to send, the first call fails. -/
theorem flushWrite_of_closed_busy {conn : Connection} {answers : List Answer}
    {flushed : Flushed} (closed : conn.state = .closed)
    (socket : conn.socket = none) (busy : ¬ conn.Idle)
    (ran : conn.flushWrite answers = some flushed) :
    flushed.conn = conn ∧ flushed.calls = [] ∧ flushed.remaining = 0 := by
  have invalid : ∀ {answer reply}, conn.replies answer = reply →
      reply = .failed .other :=
    fun replied => replied.symm.trans (if_pos socket)
  have shut : ∀ rest, conn.shut rest = ⟨conn, [], .closed, rest⟩ := by
    intro rest
    rw [Connection.shut, onClosed, if_pos closed]
  cases flushWrite_phases ran with
  | first headers sent flow =>
      cases sendLoop_rounds sent with
      | drained => exact absurd rfl flow
      | took _ replied | again _ replied | retry _ replied =>
          cases invalid replied
      | fails =>
          rw [shut]
          exact ⟨rfl, rfl, rfl⟩
  | both headers body sent flow filed =>
      cases sendLoop_rounds sent with
      | took _ replied | again _ replied | retry _ replied =>
          cases invalid replied
      | fails => cases flow
      | drained empty =>
          cases sendfileLoop_rounds filed with
          | drained done => exact absurd ⟨empty, done⟩ busy
          | atEof _ _ replied | took _ _ replied | again _ _ replied
          | retry _ _ replied => cases invalid replied
          | fails =>
              rw [shut]
              exact ⟨rfl, rfl, rfl⟩

end Connection

end Cppws.Net
