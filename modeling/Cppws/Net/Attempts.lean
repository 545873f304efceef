import Cppws.Net.Sending

/-!
# The system calls of a flush

All calls of `send` and `sendfile` that `flush_write` makes, with what they are
given and what they return, also those that move no bytes.  What every such
call keeps is kept by the whole of a flush up to `on_closed()` or the choice of
the next state.
-/

namespace Cppws.Net

open Cppws.Http (Bytes)

/-- A call of `flush_write` and what it returned. -/
inductive Attempt where
  /-- `send` with these readable bytes. -/
  | send (data : Bytes) (returned : Answer)
  /-- `sendfile` with the file, offset and count of the operation. -/
  | sendfile (op : SendfileOp) (returned : Answer)

namespace Attempt

def returned : Attempt → Answer
  | .send _ returned => returned
  | .sendfile _ returned => returned

/-- The bytes the call put on the socket. -/
def bytes : Attempt → Bytes
  | .send data (.took n) => data.take n
  | .sendfile op (.took n) => op.chunk n
  | _ => []

/-- The call is one of `sendfile` and returned 0. -/
def atEof : Attempt → Bool
  | .sendfile op (.took n) => op.chunk n == []
  | _ => false

end Attempt

/-- The bytes that some calls put on the socket. -/
def carried (attempts : List Attempt) : Bytes :=
  attempts.flatMap Attempt.bytes

@[simp]
theorem carried_append (first second : List Attempt) :
    carried (first ++ second) = carried first ++ carried second :=
  List.flatMap_append

namespace Connection

/-- The calls of phase 1. -/
def sendAttempts (conn : Connection) : List Answer → List Attempt
  | [] => []
  | answer :: rest =>
      if conn.writeBuf.empty then
        []
      else
        .send conn.writeBuf.readable (conn.replies answer) ::
          match conn.replies answer with
          | .took n => (conn.sent n).sendAttempts rest
          | .failed .intr => conn.sendAttempts rest
          | .failed _ => []

/-- The calls of phase 2. -/
def sendfileAttempts (conn : Connection) : List Answer → List Attempt
  | [] => []
  | answer :: rest =>
      match conn.sendfileOp with
      | none => []
      | some op =>
          if op.active then
            .sendfile op (conn.replies answer) ::
              match conn.replies answer with
              | .took n =>
                  let chunk := op.chunk n
                  if chunk = [] then
                    []
                  else
                    { conn with
                      sendfileOp :=
                        some (op.advance chunk.length) }.sendfileAttempts rest
              | .failed .intr => conn.sendfileAttempts rest
              | .failed _ => []
          else
            []

/-- The calls of `flush_write`. -/
def flushAttempts (conn : Connection) (answers : List Answer) : List Attempt :=
  conn.sendAttempts answers ++
    match conn.sendLoop answers with
    | some headers =>
        match headers.flow with
        | .drained => headers.conn.sendfileAttempts headers.rest
        | _ => []
    | none => []

/-! ## The calls of each round -/

theorem sendAttempts_drained {conn : Connection}
    (empty : conn.writeBuf.readable = []) (answers : List Answer) :
    conn.sendAttempts answers = [] := by
  cases answers with
  | nil => rfl
  | cons answer rest => rw [sendAttempts, if_pos ((Buffer.empty_iff _).2 empty)]

theorem sendAttempts_took {conn : Connection} {answer : Answer} {n : Nat}
    (full : conn.writeBuf.readable ≠ [])
    (replied : conn.replies answer = .took n) (rest : List Answer) :
    conn.sendAttempts (answer :: rest) =
      .send conn.writeBuf.readable (.took n) ::
        (conn.sent n).sendAttempts rest := by
  rw [sendAttempts, if_neg (mt (Buffer.empty_iff _).1 full), replied]

theorem sendAttempts_retry {conn : Connection} {answer : Answer}
    (full : conn.writeBuf.readable ≠ [])
    (replied : conn.replies answer = .failed .intr) (rest : List Answer) :
    conn.sendAttempts (answer :: rest) =
      .send conn.writeBuf.readable (.failed .intr) ::
        conn.sendAttempts rest := by
  rw [sendAttempts, if_neg (mt (Buffer.empty_iff _).1 full), replied]

theorem sendAttempts_last {conn : Connection} {answer : Answer} {errno : Errno}
    (full : conn.writeBuf.readable ≠ [])
    (replied : conn.replies answer = .failed errno) (last : errno ≠ .intr)
    (rest : List Answer) :
    conn.sendAttempts (answer :: rest) =
      [.send conn.writeBuf.readable (.failed errno)] := by
  rw [sendAttempts, if_neg (mt (Buffer.empty_iff _).1 full), replied]
  cases errno with
  | intr => exact absurd rfl last
  | again | connreset | pipe | other => rfl

theorem sendfileAttempts_drained {conn : Connection}
    (done : conn.sending = false) (answers : List Answer) :
    conn.sendfileAttempts answers = [] := by
  cases answers with
  | nil => rfl
  | cons answer rest =>
      rw [sendfileAttempts]
      cases found : conn.sendfileOp with
      | none => rfl
      | some op =>
          rw [sending_of_some found] at done
          dsimp only
          rw [done, if_neg Bool.false_ne_true]

theorem sendfileAttempts_atEof {conn : Connection} {answer : Answer}
    {op : SendfileOp} {n : Nat} (found : conn.sendfileOp = some op)
    (active : op.active = true) (replied : conn.replies answer = .took n)
    (finished : op.chunk n = []) (rest : List Answer) :
    conn.sendfileAttempts (answer :: rest) = [.sendfile op (.took n)] := by
  simp only [sendfileAttempts, found, active, replied, finished, if_true]

theorem sendfileAttempts_took {conn : Connection} {answer : Answer}
    {op : SendfileOp} {n : Nat} (found : conn.sendfileOp = some op)
    (active : op.active = true) (replied : conn.replies answer = .took n)
    (more : op.chunk n ≠ []) (rest : List Answer) :
    conn.sendfileAttempts (answer :: rest) =
      .sendfile op (.took n) ::
        { conn with
          sendfileOp :=
            some (op.advance (op.chunk n).length) }.sendfileAttempts rest := by
  simp only [sendfileAttempts, found, active, replied, if_neg more, if_true]

theorem sendfileAttempts_retry {conn : Connection} {answer : Answer}
    {op : SendfileOp} (found : conn.sendfileOp = some op)
    (active : op.active = true)
    (replied : conn.replies answer = .failed .intr) (rest : List Answer) :
    conn.sendfileAttempts (answer :: rest) =
      .sendfile op (.failed .intr) :: conn.sendfileAttempts rest := by
  simp only [sendfileAttempts, found, active, replied, if_true]

theorem sendfileAttempts_last {conn : Connection} {answer : Answer}
    {op : SendfileOp} {errno : Errno} (found : conn.sendfileOp = some op)
    (active : op.active = true) (replied : conn.replies answer = .failed errno)
    (last : errno ≠ .intr) (rest : List Answer) :
    conn.sendfileAttempts (answer :: rest) =
      [.sendfile op (.failed errno)] := by
  -- The last branch of the function is the one for other errors than `EINTR`.
  simp only [sendfileAttempts, found, active, replied, if_true]

theorem flushAttempts_first {conn : Connection} {answers : List Answer}
    {headers : Flushing} (sent : conn.sendLoop answers = some headers)
    (flow : headers.flow ≠ .drained) :
    conn.flushAttempts answers = conn.sendAttempts answers := by
  rw [flushAttempts, sent]
  cases only : headers.flow with
  | drained => exact absurd only flow
  | wouldBlock | closed => simp only [only, List.append_nil]

theorem flushAttempts_both {conn : Connection} {answers : List Answer}
    {headers : Flushing} (sent : conn.sendLoop answers = some headers)
    (flow : headers.flow = .drained) :
    conn.flushAttempts answers =
      conn.sendAttempts answers ++
        headers.conn.sendfileAttempts headers.rest := by
  rw [flushAttempts, sent]
  simp only [flow]

theorem errno_of_fatal {errno : Errno}
    (fatal : (Answer.failed errno).fatal = true) :
    errno ≠ .intr ∧ errno ≠ .again := by
  constructor
  all_goals
    rintro rfl
    cases fatal

/-! ## What every call keeps -/

/-- A property of a connection and the calls so far that every call keeps. -/
structure Kept (holds : Connection → List Attempt → Prop) : Prop where
  sends : ∀ {conn done n}, holds conn done → conn.socket ≠ none →
    conn.writeBuf.readable ≠ [] →
      holds (conn.sent n) (done ++ [.send conn.writeBuf.readable (.took n)])
  sendFails : ∀ {conn done errno}, holds conn done →
    conn.writeBuf.readable ≠ [] →
      holds conn (done ++ [.send conn.writeBuf.readable (.failed errno)])
  files : ∀ {conn done op n}, holds conn done → conn.socket ≠ none →
    conn.writeBuf.readable = [] → conn.sendfileOp = some op →
      op.active = true →
        holds { conn with sendfileOp := some (op.advance (op.chunk n).length) }
          (done ++ [.sendfile op (.took n)])
  fileFails : ∀ {conn done op errno}, holds conn done →
    conn.writeBuf.readable = [] → conn.sendfileOp = some op →
      op.active = true →
        holds conn (done ++ [.sendfile op (.failed errno)])

/-- Where a loop leaves its connection, and what it is told when it closes. -/
structure Leaves (last : Connection) (ended : Flushing) : Prop where
  opened : ended.flow ≠ .closed → ended.conn = last
  closed : ended.flow = .closed → ended.conn = last.onClosed.1

theorem Leaves.stay (conn : Connection) {flow : Flow}
    (opened : flow ≠ .closed)
    (rest : List Answer) : Leaves conn ⟨conn, [], flow, rest⟩ where
  opened := fun _ => rfl
  closed := fun closed => absurd closed opened

theorem Leaves.shut (conn : Connection) (rest : List Answer) :
    Leaves conn (conn.shut rest) where
  opened := fun opened => absurd rfl opened
  closed := fun _ => rfl

theorem advance_nothing {conn : Connection} {op : SendfileOp}
    (found : conn.sendfileOp = some op) :
    { conn with sendfileOp := some (op.advance ([] : Bytes).length) } =
      conn := by
  show { conn with sendfileOp := some op } = conn
  rw [← found]

variable {holds : Connection → List Attempt → Prop}

theorem sendLoop_kept (kept : Kept holds) {conn : Connection}
    {answers : List Answer} {done : List Attempt} {ended : Flushing}
    (looped : conn.sendLoop answers = some ended)
    (initially : holds conn done) :
    ∃ last, holds last (done ++ conn.sendAttempts answers) ∧
      Leaves last ended := by
  replace looped := sendLoop_rounds looped
  induction looped generalizing done with
  | @drained conn rest empty =>
      refine ⟨conn, ?_, .stay conn (by decide) _⟩
      rw [sendAttempts_drained empty, List.append_nil]
      exact initially
  | @took conn answer rest ended n full replied later ih =>
      rcases ih (kept.sends initially (socket_of_took replied) full) with
        ⟨last, still, leaves⟩
      rw [List.append_assoc] at still
      rw [sendAttempts_took full replied]
      exact ⟨last, still, leaves.opened, leaves.closed⟩
  | @again conn answer rest full replied =>
      refine ⟨conn, ?_, .stay conn (by decide) _⟩
      rw [sendAttempts_last full replied (by decide)]
      exact kept.sendFails initially full
  | @retry conn answer rest ended full replied later ih =>
      rcases ih (kept.sendFails initially full) with ⟨last, still, leaves⟩
      rw [List.append_assoc] at still
      rw [sendAttempts_retry full replied]
      exact ⟨last, still, leaves⟩
  | @fails conn answer rest errno full replied fatal =>
      refine ⟨conn, ?_, .shut conn _⟩
      rw [sendAttempts_last full replied (errno_of_fatal fatal).1]
      exact kept.sendFails initially full

theorem sendfileLoop_kept (kept : Kept holds) {conn : Connection}
    {answers : List Answer} {done : List Attempt} {ended : Flushing}
    (buffered : conn.writeBuf.readable = [])
    (looped : conn.sendfileLoop answers = some ended)
    (initially : holds conn done) :
    ∃ last, holds last (done ++ conn.sendfileAttempts answers) ∧
      Leaves last ended := by
  replace looped := sendfileLoop_rounds looped
  induction looped generalizing done with
  | @drained conn rest idle =>
      refine ⟨conn, ?_, .stay conn (by decide) _⟩
      rw [sendfileAttempts_drained idle, List.append_nil]
      exact initially
  | @atEof conn answer rest op n found active replied finished =>
      have filed := kept.files (n := n) initially (socket_of_took replied)
        buffered found active
      rw [finished, advance_nothing found] at filed
      refine ⟨conn, ?_, .stay conn (by decide) _⟩
      rw [sendfileAttempts_atEof found active replied finished]
      exact filed
  | @took conn answer rest ended op n found active replied more later ih =>
      have filed := kept.files (n := n) initially (socket_of_took replied)
        buffered found active
      rcases ih buffered filed with ⟨last, still, leaves⟩
      rw [List.append_assoc] at still
      rw [sendfileAttempts_took found active replied more]
      exact ⟨last, still, leaves.opened, leaves.closed⟩
  | @again conn answer rest op found active replied =>
      refine ⟨conn, ?_, .stay conn (by decide) _⟩
      rw [sendfileAttempts_last found active replied (by decide)]
      exact kept.fileFails initially buffered found active
  | @retry conn answer rest ended op found active replied later ih =>
      rcases ih buffered (kept.fileFails initially buffered found active) with
        ⟨last, still, leaves⟩
      rw [List.append_assoc] at still
      rw [sendfileAttempts_retry found active replied]
      exact ⟨last, still, leaves⟩
  | @fails conn answer rest op errno found active replied fatal =>
      refine ⟨conn, ?_, .shut conn _⟩
      rw [sendfileAttempts_last found active replied (errno_of_fatal fatal).1]
      exact kept.fileFails initially buffered found active

/--
What every call keeps holds of the connection that a flush leaves to its end:
to `on_closed()`, or to the choice of the next state.
-/
theorem flushWrite_kept (kept : Kept holds) {conn : Connection}
    {answers : List Answer} {done : List Attempt} {flushed : Flushed}
    (ran : conn.flushWrite answers = some flushed)
    (initially : holds conn done) :
    ∃ last, holds last (done ++ conn.flushAttempts answers) ∧
      (flushed.conn = last.onClosed.1 ∧ flushed.remaining = 0 ∨
        flushed.conn = last.settle.1 ∧
          flushed.remaining = flushed.conn.bytesRemaining) := by
  have finish : ∀ {last : Connection} {ended : Flushing},
      Leaves last ended →
      (ended.finish.conn = last.onClosed.1 ∧ ended.finish.remaining = 0 ∨
        ended.finish.conn = last.settle.1 ∧
          ended.finish.remaining = ended.finish.conn.bytesRemaining) := by
    intro last ended leaves
    unfold Flushing.finish
    cases flow : ended.flow with
    | closed => exact Or.inl ⟨leaves.closed flow, rfl⟩
    | drained | wouldBlock =>
        have same := leaves.opened (by rw [flow]; decide)
        exact Or.inr ⟨congrArg (fun conn => conn.settle.1) same, rfl⟩
  cases flushWrite_phases ran with
  | first headers sent flow =>
      rcases sendLoop_kept kept sent initially with ⟨last, still, leaves⟩
      rw [flushAttempts_first sent flow]
      exact ⟨last, still, finish leaves⟩
  | both headers body sent flow filed =>
      rcases sendLoop_kept kept sent initially with ⟨middle, still, leaves⟩
      have same := leaves.opened (by rw [flow]; decide)
      rw [← same] at still
      rcases sendfileLoop_kept kept ((sendLoop_proceeds sent).2 flow) filed
        still with ⟨last, still, left⟩
      rw [flushAttempts_both sent flow, ← List.append_assoc]
      exact ⟨last, still, finish ⟨left.opened, left.closed⟩⟩

/-! ## The calls and their answers -/

/-- The answers a loop uses are what its calls returned. -/
structure Answers (conn : Connection) (answers : List Answer)
    (attempts : List Attempt) (ended : Flushing) : Prop where
  used : conn.socket ≠ none →
    answers = attempts.map Attempt.returned ++ ended.rest
  moved : carried attempts = wire ended.calls

theorem Answers.nothing (conn : Connection) (flow : Flow)
    (rest : List Answer) : Answers conn rest [] ⟨conn, [], flow, rest⟩ :=
  ⟨fun _ => rfl, rfl⟩

theorem Answers.last {conn ended : Connection} {answer : Answer}
    {attempt : Attempt} {calls : List Call} (flow : Flow) (rest : List Answer)
    (returned : attempt.returned = conn.replies answer)
    (silent : attempt.bytes = []) (quiet : wire calls = []) :
    Answers conn (answer :: rest) [attempt] ⟨ended, calls, flow, rest⟩ where
  used := by
    intro valid
    rw [replies_valid valid] at returned
    exact congrArg (· :: rest) returned.symm
  moved := by
    show attempt.bytes ++ [] = wire calls
    rw [silent, quiet]
    rfl

theorem Answers.next {conn moved : Connection} {answer : Answer}
    {answers : List Answer} {attempt : Attempt} {attempts : List Attempt}
    {calls : List Call} {ended : Flushing}
    (rest : Answers moved answers attempts ended)
    (same : moved.socket = conn.socket)
    (returned : attempt.returned = conn.replies answer)
    (carries : attempt.bytes = wire calls) :
    Answers conn (answer :: answers) (attempt :: attempts)
      (ended.after calls) where
  used := by
    intro valid
    rw [replies_valid valid] at returned
    rw [List.map_cons, returned, List.cons_append]
    exact congrArg (answer :: ·) (rest.used (same ▸ valid))
  moved := by
    rw [Flushing.after, wire_append, ← rest.moved, ← carries]
    rfl

theorem Answers.retry {conn : Connection} {answer : Answer}
    {answers : List Answer} {attempt : Attempt} {attempts : List Attempt}
    {ended : Flushing} (rest : Answers conn answers attempts ended)
    (returned : attempt.returned = conn.replies answer)
    (silent : attempt.bytes = []) :
    Answers conn (answer :: answers) (attempt :: attempts) ended := by
  have again : Answers conn (answer :: answers) (attempt :: attempts)
      (ended.after []) := rest.next rfl returned silent
  exact again

theorem sendLoop_answers {conn : Connection} {answers : List Answer}
    {ended : Flushing} (looped : conn.sendLoop answers = some ended) :
    Answers conn answers (conn.sendAttempts answers) ended := by
  replace looped := sendLoop_rounds looped
  induction looped with
  | drained empty =>
      rw [sendAttempts_drained empty]
      exact .nothing _ .drained _
  | took full replied later ih =>
      rw [sendAttempts_took full replied]
      exact ih.next rfl replied.symm (List.append_nil _).symm
  | again full replied =>
      rw [sendAttempts_last full replied (by decide)]
      exact .last _ _ replied.symm rfl rfl
  | retry full replied later ih =>
      rw [sendAttempts_retry full replied]
      exact ih.retry replied.symm rfl
  | fails full replied fatal =>
      rw [sendAttempts_last full replied (errno_of_fatal fatal).1]
      exact .last _ _ replied.symm rfl (wire_onClosed _)

theorem sendfileLoop_answers {conn : Connection} {answers : List Answer}
    {ended : Flushing} (looped : conn.sendfileLoop answers = some ended) :
    Answers conn answers (conn.sendfileAttempts answers) ended := by
  replace looped := sendfileLoop_rounds looped
  induction looped with
  | drained done =>
      rw [sendfileAttempts_drained done]
      exact .nothing _ .drained _
  | atEof found active replied finished =>
      rw [sendfileAttempts_atEof found active replied finished]
      exact .last _ _ replied.symm finished rfl
  | took found active replied more later ih =>
      rw [sendfileAttempts_took found active replied more]
      refine ih.next ?_ replied.symm (List.append_nil _).symm
      rfl
  | again found active replied =>
      rw [sendfileAttempts_last found active replied (by decide)]
      exact .last _ _ replied.symm rfl rfl
  | retry found active replied later ih =>
      rw [sendfileAttempts_retry found active replied]
      exact ih.retry replied.symm rfl
  | fails found active replied fatal =>
      rw [sendfileAttempts_last found active replied (errno_of_fatal fatal).1]
      exact .last _ _ replied.symm rfl (wire_onClosed _)

theorem wire_finish (ended : Flushing) :
    wire ended.finish.calls = wire ended.calls ∧
      ended.finish.rest = ended.rest := by
  have quiet : wire ended.conn.settle.2 = [] := by
    unfold settle
    split
    · exact wire_releaseFile _
    · rfl
  unfold Flushing.finish
  cases ended.flow with
  | closed => exact ⟨rfl, rfl⟩
  | drained | wouldBlock =>
      refine ⟨?_, rfl⟩
      rw [wire_append, quiet, List.append_nil]

/-- The calls of a flush use its answers in turn and carry its output. -/
theorem flushWrite_answers {conn : Connection} {answers : List Answer}
    {flushed : Flushed} (ran : conn.flushWrite answers = some flushed) :
    (conn.socket ≠ none → answers =
        (conn.flushAttempts answers).map Attempt.returned ++ flushed.rest) ∧
      carried (conn.flushAttempts answers) = wire flushed.calls := by
  cases flushWrite_phases ran with
  | first headers sent flow =>
      have first := sendLoop_answers sent
      rcases wire_finish headers with ⟨output, rest⟩
      rw [flushAttempts_first sent flow, output, rest]
      exact ⟨first.used, first.moved⟩
  | both headers body sent flow filed =>
      have first := sendLoop_answers sent
      have second := sendfileLoop_answers filed
      have goesOn : headers.flow ≠ .closed := by
        rw [flow]
        decide
      have owner := ((sendLoop_proceeds sent).1.kept goesOn).1
      rcases wire_finish (body.after headers.calls) with ⟨output, rest⟩
      rw [flushAttempts_both sent flow]
      constructor
      · intro valid
        rw [rest, List.map_append, List.append_assoc]
        refine (first.used valid).trans (congrArg (_ ++ ·) ?_)
        exact second.used (owner.socket ▸ valid)
      · rw [output, carried_append, Flushing.after, wire_append, first.moved,
          second.moved]

/-! ## Where a flush stops -/

/-- The last of the calls would have had to wait. -/
def Blocked (attempts : List Attempt) : Prop :=
  ∃ earlier final, attempts = earlier ++ [final] ∧
    final.returned = .failed .again

/-- A connection and the calls after which a flush has not closed it. -/
inductive Stops (last : Connection) (attempts : List Attempt) : Prop where
  | idle (done : last.Idle)
      (inside : ∀ attempt ∈ attempts, attempt.atEof = false)
  | blocked (blocks : Blocked attempts)
      (inside : ∀ attempt ∈ attempts, attempt.atEof = false)
  | atEof (earlier : List Attempt) (final : Attempt)
      (split : attempts = earlier ++ [final]) (ended : final.atEof = true)
      (busy : last.sending = true)

theorem Stops.after {last : Connection} {first rest : List Attempt}
    (stops : Stops last rest)
    (inside : ∀ attempt ∈ first, attempt.atEof = false) :
    Stops last (first ++ rest) := by
  have all : (∀ attempt ∈ rest, attempt.atEof = false) →
      ∀ attempt ∈ first ++ rest, attempt.atEof = false :=
    fun others => List.forall_mem_append.2 ⟨inside, others⟩
  cases stops with
  | idle done others => exact .idle done (all others)
  | blocked blocks others =>
      rcases blocks with ⟨earlier, final, rfl, again⟩
      refine .blocked ⟨first ++ earlier, final, ?_, again⟩ (all others)
      exact (List.append_assoc _ _ _).symm
  | atEof earlier final split ended busy =>
      refine .atEof (first ++ earlier) final ?_ ended busy
      rw [split, List.append_assoc]

/-- One more call that moves bytes or is made again. -/
theorem Stops.cons {last : Connection} {attempt : Attempt}
    {rest : List Attempt} (stops : Stops last rest)
    (inside : attempt.atEof = false) : Stops last (attempt :: rest) := by
  show Stops last ([attempt] ++ rest)
  exact stops.after (List.forall_mem_singleton.2 inside)

theorem Stops.again {last : Connection} {attempt : Attempt}
    (again : attempt.returned = .failed .again) : Stops last [attempt] := by
  refine .blocked ⟨[], attempt, rfl, again⟩ (List.forall_mem_singleton.2 ?_)
  cases attempt with
  | send data returned => rfl
  | sendfile op returned =>
      have same : returned = .failed .again := again
      rw [same]
      rfl

/-- Phase 1 meets no end of file. -/
theorem sendAttempts_inside {conn : Connection} {answers : List Answer}
    {ended : Flushing} (looped : conn.sendLoop answers = some ended) :
    ∀ attempt ∈ conn.sendAttempts answers, attempt.atEof = false := by
  replace looped := sendLoop_rounds looped
  induction looped with
  | drained empty =>
      rw [sendAttempts_drained empty]
      exact fun attempt member => absurd member List.not_mem_nil
  | took full replied later ih =>
      rw [sendAttempts_took full replied]
      exact List.forall_mem_cons.2 ⟨rfl, ih⟩
  | again full replied =>
      rw [sendAttempts_last full replied (by decide)]
      exact List.forall_mem_singleton.2 rfl
  | retry full replied later ih =>
      rw [sendAttempts_retry full replied]
      exact List.forall_mem_cons.2 ⟨rfl, ih⟩
  | fails full replied fatal =>
      rw [sendAttempts_last full replied (errno_of_fatal fatal).1]
      exact List.forall_mem_singleton.2 rfl

theorem sendLoop_blocked {conn : Connection} {answers : List Answer}
    {ended : Flushing} (looped : conn.sendLoop answers = some ended)
    (blocks : ended.flow = .wouldBlock) :
    Stops ended.conn (conn.sendAttempts answers) := by
  replace looped := sendLoop_rounds looped
  induction looped with
  | drained | fails => cases blocks
  | took full replied later ih =>
      rw [sendAttempts_took full replied]
      exact (ih blocks).cons rfl
  | again full replied =>
      rw [sendAttempts_last full replied (by decide)]
      exact .again rfl
  | retry full replied later ih =>
      rw [sendAttempts_retry full replied]
      exact (ih blocks).cons rfl

theorem sendfileLoop_stops {conn : Connection} {answers : List Answer}
    {ended : Flushing} (buffered : conn.writeBuf.readable = [])
    (looped : conn.sendfileLoop answers = some ended)
    (opened : ended.flow ≠ .closed) :
    Stops ended.conn (conn.sendfileAttempts answers) := by
  replace looped := sendfileLoop_rounds looped
  induction looped with
  | drained done =>
      rw [sendfileAttempts_drained done]
      exact .idle ⟨buffered, done⟩
        fun attempt member => absurd member List.not_mem_nil
  | @atEof conn answer rest op n found active replied finished =>
      rw [sendfileAttempts_atEof found active replied finished]
      refine .atEof [] (.sendfile op (.took n)) rfl (beq_iff_eq.2 finished) ?_
      exact (sending_of_some found).trans active
  | took found active replied more later ih =>
      rw [sendfileAttempts_took found active replied more]
      exact (ih buffered opened).cons (beq_eq_false_iff_ne.2 more)
  | again found active replied =>
      rw [sendfileAttempts_last found active replied (by decide)]
      exact .again rfl
  | retry found active replied later ih =>
      rw [sendfileAttempts_retry found active replied]
      exact (ih buffered opened).cons rfl
  | fails => exact absurd rfl opened

theorem settle_idle {conn : Connection} (idle : conn.Idle) :
    conn.settle.1.Idle := by
  unfold settle
  split
  · exact ⟨idle.1, rfl⟩
  · exact idle

theorem settle_of_sending {conn : Connection} (busy : conn.sending = true) :
    conn.settle = (conn, []) := by
  rw [settle, if_neg]
  rintro ⟨_, done⟩
  exact done busy

theorem Stops.settle {last : Connection} {attempts : List Attempt}
    (stops : Stops last attempts) : Stops last.settle.1 attempts := by
  cases stops with
  | idle done inside => exact .idle (settle_idle done) inside
  | blocked blocks inside => exact .blocked blocks inside
  | atEof earlier final split ended busy =>
      refine .atEof earlier final split ended ?_
      rw [settle_of_sending busy]
      exact busy

/-- A flush that leaves the connection open stops in one of the three ways. -/
theorem flushWrite_stops {conn : Connection} {answers : List Answer}
    {flushed : Flushed} (ran : conn.flushWrite answers = some flushed)
    (opened : flushed.conn.state ≠ .closed) :
    Stops flushed.conn (conn.flushAttempts answers) := by
  cases flushWrite_phases ran with
  | first headers sent flow =>
      rcases sendLoop_proceeds sent with ⟨proceeds, _⟩
      rw [flushAttempts_first sent flow]
      cases only : headers.flow with
      | drained => exact absurd only flow
      | closed => exact absurd (proceeds.finish_closed only []) opened
      | wouldBlock =>
          rw [Flushing.finish, only]
          exact (sendLoop_blocked sent only).settle
  | both headers body sent flow filed =>
      have buffered := (sendLoop_proceeds sent).2 flow
      have goesOn : body.flow ≠ .closed := fun closed =>
        opened ((sendfileLoop_proceeds buffered filed).finish_closed closed _)
      have stops := (sendfileLoop_stops buffered filed goesOn).after
        (sendAttempts_inside sent)
      have ended : (body.after headers.calls).finish.conn =
          body.conn.settle.1 := by
        rw [Flushing.finish, show (body.after headers.calls).flow = body.flow
          from rfl]
        cases flow : body.flow <;> first | rfl | exact absurd flow goesOn
      rw [flushAttempts_both sent flow, ended]
      exact stops.settle

/--
When a flush returns and the connection is not closed, everything is sent or
the last call would have had to wait, exactly if no `sendfile` returned 0.
-/
theorem flush_drains_iff {conn : Connection} {answers : List Answer}
    {flushed : Flushed} (ran : conn.flushWrite answers = some flushed)
    (opened : flushed.conn.state ≠ .closed) :
    flushed.conn.Idle ∨ Blocked (conn.flushAttempts answers) ↔
      ∀ attempt ∈ conn.flushAttempts answers, attempt.atEof = false := by
  cases flushWrite_stops ran opened with
  | idle done inside => exact iff_of_true (Or.inl done) inside
  | blocked blocks inside => exact iff_of_true (Or.inr blocks) inside
  | atEof earlier final split ended busy =>
      refine iff_of_false ?_ fun inside => ?_
      · rintro (⟨_, done⟩ | ⟨before, blocking, same, again⟩)
        · rw [busy] at done
          cases done
        · rw [split] at same
          rcases List.append_inj' same rfl with ⟨_, last⟩
          cases last
          cases final with
          | send data returned => cases ended
          | sendfile op returned =>
              have failed : returned = .failed .again := again
              rw [failed] at ended
              cases ended
      · have member : final ∈ conn.flushAttempts answers := by
          rw [split]
          exact List.mem_concat_self
        rw [inside final member] at ended
        cases ended

/-- A connection that has begun to send a file of three bytes. -/
def sendingFile (size : Nat) : Connection :=
  ((opened 3 0).beginSendfile ⟨7, [1, 2, 3]⟩ size).1

/-- The socket takes two bytes of three. -/
theorem flush_drains_iff_partial :
    ∃ flushed,
      (sendingFile 3).flushWrite [.took 2, .failed .intr, .failed .again] =
        some flushed ∧
        (flushed.conn.Idle ∨
          Blocked ((sendingFile 3).flushAttempts
            [.took 2, .failed .intr, .failed .again])) := by
  have finishes : ∃ flushed,
      (sendingFile 3).flushWrite [.took 2, .failed .intr, .failed .again] =
        some flushed ∧ flushed.conn.state = .writing :=
    Option.map_eq_some_iff.1 (by decide)
  rcases finishes with ⟨flushed, ran, writing⟩
  have opened : flushed.conn.state ≠ .closed := by
    rw [writing]
    decide
  exact ⟨flushed, ran, (flush_drains_iff ran opened).2 (by decide)⟩

/-- Five bytes were announced and the file has three. -/
theorem flush_drains_shortFile :
    ∃ flushed,
      (sendingFile 5).flushWrite [.took 9, .took 9] = some flushed ∧
        flushed.conn.state = .writing ∧ flushed.remaining = 2 ∧
        ¬ (flushed.conn.Idle ∨
          Blocked ((sendingFile 5).flushAttempts [.took 9, .took 9])) := by
  have finishes : ∃ flushed,
      (sendingFile 5).flushWrite [.took 9, .took 9] = some flushed ∧
        (flushed.conn.state, flushed.remaining, flushed.conn.sending) =
          (.writing, 2, true) :=
    Option.map_eq_some_iff.1 (by decide)
  rcases finishes with ⟨flushed, ran, found⟩
  simp only [Prod.mk.injEq] at found
  refine ⟨flushed, ran, found.1, found.2.1, ?_⟩
  rintro (⟨_, done⟩ | ⟨earlier, final, split, again⟩)
  · cases found.2.2.symm.trans done
  · have last := congrArg (fun attempts => (attempts.getLast?).map
      Attempt.returned) split
    rw [List.getLast?_concat, Option.map_some, again] at last
    exact absurd last (by decide)

end Connection

end Cppws.Net
