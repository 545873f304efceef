import Cppws.Foundation.Machine
import Cppws.Net.Reading

/-!
# The life of a connection

A connection under any sequence of its public operations, with the number of
times its close callback has been called.  `on_readable` is taken apart into
the rounds of its loop, so that its read callback may be any of the other
operations.
-/

namespace Cppws.Net

open Cppws.Http (Bytes)

inductive Operation where
  /-- A round of the loop in `on_readable`, up to its callback. -/
  | readRound (received : Received)
  /-- The owner leaves `read_buf()` like this. -/
  | useReadBuf (readBuf : Buffer)
  | onWritable (answers : List Answer)
  | onClosed
  | enqueueWrite (data : Bytes)
  | beginSendfile (file : OpenFile) (size : Nat)
  | flushWrite (answers : List Answer)
  | setKeepAlive (val : Bool)

def Call.closing : Call → Bool
  | .closeCallback _ => true
  | _ => false

/-- How often some calls are of the close callback. -/
def closings (calls : List Call) : Nat :=
  calls.countP Call.closing

structure Lifetime where
  conn : Connection
  callbacks : Nat := 0
  /-- `state()` has been `Closed`. -/
  ended : Bool := false

namespace Lifetime

def becomes (life : Lifetime) (conn : Connection) (calls : List Call) :
    Lifetime where
  conn := conn
  callbacks := life.callbacks + closings calls
  ended := life.ended || conn.state = .closed

def step (life : Lifetime) : Operation → Option Lifetime
  | .readRound received =>
      let read := life.conn.readOnce received
      some (life.becomes read.1 read.2.1)
  | .useReadBuf readBuf => some (life.becomes { life.conn with readBuf } [])
  | .onWritable answers =>
      (life.conn.onWritable answers).map fun result =>
        life.becomes result.1 result.2.1
  | .onClosed => some (life.becomes life.conn.onClosed.1 life.conn.onClosed.2)
  | .enqueueWrite data => some (life.becomes (life.conn.enqueueWrite data) [])
  | .beginSendfile file size =>
      let begun := life.conn.beginSendfile file size
      some (life.becomes begun.1 begun.2)
  | .flushWrite answers =>
      (life.conn.flushWrite answers).map fun flushed =>
        life.becomes flushed.conn flushed.calls
  | .setKeepAlive val => some (life.becomes (life.conn.setKeepAlive val) [])

def machine : Machine Lifetime Operation where
  step := step

/-- Once `Closed`, always `Closed`, after one call of the close callback. -/
structure ForGood (life : Lifetime) : Prop where
  closed : life.ended = true → life.conn.state = .closed ∧
    life.conn.isAlive = false ∧ life.callbacks = 1
  unclosed : life.ended = false → life.callbacks = 0

/--
On a closed connection nothing is queued, and it is flushed only while there
are bytes left to send.
-/
def LeavesClosed (life : Lifetime) : Operation → Prop
  | .enqueueWrite _ => life.conn.state ≠ .closed
  | .beginSendfile _ _ => life.conn.state ≠ .closed
  | .flushWrite _ => life.conn.state = .closed → ¬ life.conn.Idle
  | .onWritable _ => life.conn.state = .closed → ¬ life.conn.Idle
  | _ => True

instance (life : Lifetime) :
    ∀ operation, Decidable (life.LeavesClosed operation)
  | .enqueueWrite _ => inferInstanceAs (Decidable (_ ≠ _))
  | .beginSendfile _ _ => inferInstanceAs (Decidable (_ ≠ _))
  | .flushWrite _ => inferInstanceAs (Decidable (_ → _))
  | .onWritable _ => inferInstanceAs (Decidable (_ → _))
  | .readRound _ | .useReadBuf _ | .onClosed | .setKeepAlive _ =>
      inferInstanceAs (Decidable True)

end Lifetime

/-! ## Calls of the close callback -/

theorem closings_append (first second : List Call) :
    closings (first ++ second) = closings first + closings second :=
  List.countP_append

theorem closings_control (calls : List Call) :
    closings (control calls) = closings calls := by
  rw [closings, control, List.countP_filter]
  apply List.countP_congr
  intro call _
  cases call <;> simp [Call.closing, Call.isControl]

theorem closings_releaseFile (op : Option SendfileOp) :
    closings (releaseFile op) = 0 := by
  cases op <;> rfl

namespace Connection

theorem closings_onClosed (conn : Connection) :
    closings conn.onClosed.2 = if conn.state = .closed then 0 else 1 := by
  unfold onClosed
  split
  · rfl
  · rw [closings_append, closings_releaseFile]
    cases conn.socket <;> rfl

/-- A function that leaves an open connection open, or closes it once. -/
def ClosesOnce (after : Connection) (calls : List Call) : Prop :=
  after.state ≠ .closed ∧ closings calls = 0 ∨
    after.state = .closed ∧ closings calls = 1

theorem onClosed_closesOnce {conn : Connection}
    (opened : conn.state ≠ .closed) :
    ClosesOnce conn.onClosed.1 conn.onClosed.2 := by
  refine Or.inr ⟨onClosed_state conn, ?_⟩
  rw [closings_onClosed, if_neg opened]

theorem readOnce_closesOnce {conn : Connection}
    (opened : conn.state ≠ .closed) (received : Received) :
    ClosesOnce (conn.readOnce received).1 (conn.readOnce received).2.1 := by
  rcases conn.readOnce_closes received with
    ⟨last, ⟨readBuf, rfl⟩, ⟨closed, calls⟩ | ⟨same, quiet⟩⟩
  · rw [closed, calls]
    exact onClosed_closesOnce opened
  · rw [same, quiet]
    exact Or.inl ⟨opened, rfl⟩

theorem flushWrite_closesOnce {conn : Connection} {answers : List Answer}
    {flushed : Flushed} (opened : conn.state ≠ .closed)
    (ran : conn.flushWrite answers = some flushed) :
    ClosesOnce flushed.conn flushed.calls := by
  rw [ClosesOnce, ← closings_control]
  cases flushWrite_flushes ran with
  | opened _ _ _ _ _ _ _ quiet _ _ settled =>
      refine Or.inl ⟨?_, quiet ▸ rfl⟩
      rcases settled with ⟨_, _, state⟩ | ⟨_, state⟩
      · rw [state]
        split <;> exact nofun
      · exact state ▸ opened
  | shut _ _ _ last owner closed told =>
      rw [told, closings_control, closed]
      exact onClosed_closesOnce (owner.state ▸ opened)

/-- With nothing to send, a flush leaves any connection open. -/
theorem flushWrite_opens {conn : Connection} {answers : List Answer}
    {flushed : Flushed} (idle : conn.Idle)
    (ran : conn.flushWrite answers = some flushed) :
    ClosesOnce flushed.conn flushed.calls := by
  rw [flushWrite_of_idle idle, Option.some.injEq] at ran
  rw [← ran]
  refine Or.inl ⟨?_, closings_releaseFile _⟩
  show (if conn.keepAlive then ConnState.reading else .closing) ≠ .closed
  split <;> exact nofun

/-- `on_writable` closes a connection that its flush has left open, or not. -/
theorem onWritable_closesOnce {conn : Connection} {answers : List Answer}
    {result : Connection × List Call × Bool × List Answer}
    (flushes : ∀ {flushed}, conn.flushWrite answers = some flushed →
      ClosesOnce flushed.conn flushed.calls)
    (ran : conn.onWritable answers = some result) :
    ClosesOnce result.1 result.2.1 := by
  rcases Option.map_eq_some_iff.1 ran with ⟨flushed, flush, rfl⟩
  have closes := flushes flush
  split_ifs with closed finished
  · exact closes
  · rcases closes with ⟨_, quiet⟩ | ⟨shut, _⟩
    · rw [ClosesOnce, closings_append, quiet, Nat.zero_add]
      exact onClosed_closesOnce closed
    · exact absurd shut closed
  · exact closes

/-- A closed connection has no socket. -/
def Hollow (conn : Connection) : Prop :=
  conn.state = .closed → conn.socket = none

theorem Hollow.onClosed {conn : Connection} (hollow : conn.Hollow) :
    conn.onClosed.1.Hollow := by
  unfold Connection.onClosed
  split
  · exact hollow
  · exact fun _ => rfl

theorem Hollow.of_state {conn after : Connection} (hollow : conn.Hollow)
    (state : after.state = conn.state) (socket : after.socket = conn.socket) :
    after.Hollow := by
  intro closed
  rw [socket]
  exact hollow (state.symm.trans closed)

theorem Hollow.readOnce {conn : Connection} (hollow : conn.Hollow)
    (received : Received) : (conn.readOnce received).1.Hollow := by
  rcases conn.readOnce_closes received with
    ⟨last, ⟨readBuf, rfl⟩, closes⟩
  have kept : Hollow { conn with readBuf := readBuf } :=
    hollow.of_state rfl rfl
  rcases closes with ⟨closed, _⟩ | ⟨same, _⟩
  · rw [closed]
    exact kept.onClosed
  · rw [same]
    exact kept

theorem Hollow.flushWrite {conn : Connection} {answers : List Answer}
    {flushed : Flushed} (hollow : conn.Hollow)
    (ran : conn.flushWrite answers = some flushed) : flushed.conn.Hollow := by
  cases flushWrite_flushes ran with
  | opened _ _ _ socket _ _ _ _ _ _ settled =>
      rcases settled with ⟨_, _, state⟩ | ⟨_, state⟩
      · intro closed
        rw [state] at closed
        split at closed <;> cases closed
      · exact hollow.of_state state socket
  | shut _ _ _ last owner closed =>
      rw [closed]
      exact (hollow.of_state owner.state owner.socket).onClosed

theorem Hollow.onWritable {conn : Connection} {answers : List Answer}
    {result : Connection × List Call × Bool × List Answer}
    (hollow : conn.Hollow) (ran : conn.onWritable answers = some result) :
    result.1.Hollow := by
  rcases Option.map_eq_some_iff.1 ran with ⟨flushed, flush, rfl⟩
  have flushedHollow := hollow.flushWrite flush
  split_ifs
  · exact flushedHollow
  · exact flushedHollow.onClosed
  · exact flushedHollow

end Connection

namespace Lifetime

open Connection

/-- A read callback that uses the read buffer and says whether the connection
is to be kept. -/
def Using {σ : Type} (onRead : Connection → σ → Connection × σ) :
    Prop :=
  ∀ conn state, ∃ (readBuf : Buffer) (keepAlive : Bool),
    (onRead conn state).1 = { conn with readBuf, keepAlive }

/-- `on_readable` is a run of rounds, with what its callback does. -/
theorem run_onReadable {σ : Type}
    {onRead : Connection → σ → Connection × σ}
    (using_ : Using onRead) {answers : List Received} {state : σ}
    {result : Connection × σ × List Call × Bool} (life : Lifetime)
    (ran : onReadable onRead life.conn state answers = some result) :
    ∃ operations after, machine.run life operations = some after ∧
      after.conn = result.1 ∧
      after.callbacks = life.callbacks + closings result.2.2.1 := by
  induction answers generalizing life state result with
  | nil => cases ran
  | cons answer rest ih =>
      let read := life.conn.readOnce answer
      let round := life.becomes read.1 read.2.1
      have stepped : machine.step life (.readRound answer) = some round := rfl
      have joined : ∀ calls, closings (read.2.1 ++ calls) =
          closings read.2.1 + closings calls := closings_append _
      simp only [onReadable] at ran
      cases flow : (life.conn.readOnce answer).2.2 with
      | callback =>
          simp only [flow] at ran
          rcases Option.map_eq_some_iff.1 ran with ⟨later, went, rfl⟩
          rcases using_ read.1 state with ⟨readBuf, keepAlive, called⟩
          let used := round.becomes { read.1 with readBuf } []
          let kept := used.becomes (used.conn.setKeepAlive keepAlive) []
          rw [called] at went
          rcases ih kept went with
            ⟨operations, after, steps, conn, callbacks⟩
          have calling : machine.run round
              (.useReadBuf readBuf :: .setKeepAlive keepAlive :: operations) =
                some after :=
            Machine.run_cons_eq_some.2 ⟨used, rfl,
              Machine.run_cons_eq_some.2 ⟨kept, rfl, steps⟩⟩
          refine ⟨_, after,
            Machine.run_cons_eq_some.2 ⟨round, stepped, calling⟩, conn,
              ?_⟩
          rw [callbacks, joined, ← Nat.add_assoc]
          rfl
      | retry =>
          simp only [flow] at ran
          rcases Option.map_eq_some_iff.1 ran with ⟨later, went, rfl⟩
          rcases ih round went with
            ⟨operations, after, steps, conn, callbacks⟩
          refine ⟨.readRound answer :: operations, after,
            Machine.run_cons_eq_some.2 ⟨round, stepped, steps⟩, conn, ?_⟩
          rw [callbacks, joined, ← Nat.add_assoc]
          rfl
      | blocked | closed =>
          simp only [flow] at ran
          cases ran
          exact ⟨[.readRound answer], round,
            Machine.run_cons_eq_some.2 ⟨round, stepped, rfl⟩, rfl, rfl⟩

/-- A step from an open connection. -/
theorem step_opened {before after : Lifetime} {operation : Operation}
    (opened : before.conn.state ≠ .closed)
    (stepped : before.step operation = some after) :
    ∃ calls, after = before.becomes after.conn calls ∧
      ClosesOnce after.conn calls := by
  cases operation with
  | readRound received =>
      cases stepped
      exact ⟨_, rfl, readOnce_closesOnce opened received⟩
  | useReadBuf readBuf =>
      cases stepped
      exact ⟨[], rfl, Or.inl ⟨opened, rfl⟩⟩
  | onWritable answers =>
      rcases Option.map_eq_some_iff.1 stepped with ⟨result, ran, rfl⟩
      exact ⟨_, rfl, onWritable_closesOnce
        (flushWrite_closesOnce opened) ran⟩
  | onClosed =>
      cases stepped
      exact ⟨_, rfl, onClosed_closesOnce opened⟩
  | enqueueWrite data =>
      cases stepped
      exact ⟨[], rfl, Or.inl ⟨nofun, rfl⟩⟩
  | beginSendfile file size =>
      cases stepped
      exact ⟨_, rfl, Or.inl ⟨nofun, closings_releaseFile _⟩⟩
  | flushWrite answers =>
      rcases Option.map_eq_some_iff.1 stepped with ⟨flushed, ran, rfl⟩
      exact ⟨_, rfl, flushWrite_closesOnce opened ran⟩
  | setKeepAlive val =>
      cases stepped
      exact ⟨[], rfl, Or.inl ⟨opened, rfl⟩⟩

/-- A step that meets the condition leaves a closed connection as it is. -/
theorem step_closed {before after : Lifetime} {operation : Operation}
    (closed : before.conn.state = .closed) (socket : before.conn.socket = none)
    (leaves : before.LeavesClosed operation)
    (stepped : before.step operation = some after) :
    ∃ calls, after = before.becomes after.conn calls ∧
      after.conn.state = .closed ∧ closings calls = 0 := by
  have quiet : ∀ last : Connection, last.state = before.conn.state →
      closings last.onClosed.2 = 0 := by
    intro last same
    rw [closings_onClosed, if_pos (same.trans closed)]
  cases operation with
  | readRound received =>
      cases stepped
      refine ⟨_, rfl, ?_⟩
      show (before.conn.readOnce received).1.state = _ ∧ _
      rcases before.conn.readOnce_closes received with
        ⟨last, ⟨readBuf, rfl⟩, ⟨shut, calls⟩ | ⟨same, calls⟩⟩
      · rw [shut, calls]
        exact ⟨onClosed_state _, quiet _ rfl⟩
      · rw [same, calls]
        exact ⟨closed, rfl⟩
  | useReadBuf readBuf =>
      cases stepped
      exact ⟨[], rfl, closed, rfl⟩
  | onWritable answers =>
      rcases Option.map_eq_some_iff.1 stepped with ⟨result, ran, rfl⟩
      rcases Option.map_eq_some_iff.1 ran with ⟨flushed, flush, rfl⟩
      rcases flushWrite_of_closed_busy closed socket (leaves closed) flush with
        ⟨same, calls, _⟩
      have shut : flushed.conn.state = .closed := same ▸ closed
      rw [if_pos shut, calls]
      exact ⟨[], rfl, shut, rfl⟩
  | onClosed =>
      cases stepped
      exact ⟨_, rfl, onClosed_state _, quiet _ rfl⟩
  | enqueueWrite data => exact absurd closed leaves
  | beginSendfile file size => exact absurd closed leaves
  | flushWrite answers =>
      rcases Option.map_eq_some_iff.1 stepped with ⟨flushed, flush, rfl⟩
      rcases flushWrite_of_closed_busy closed socket (leaves closed) flush with
        ⟨same, calls, _⟩
      refine ⟨flushed.calls, rfl, ?_, calls ▸ rfl⟩
      exact (congrArg Connection.state same).trans closed
  | setKeepAlive val =>
      cases stepped
      exact ⟨[], rfl, closed, rfl⟩

/-- A step that does not, opens it again or closes it again. -/
theorem step_reopens {before after : Lifetime} {operation : Operation}
    (breaks : ¬ before.LeavesClosed operation)
    (stepped : before.step operation = some after) :
    ∃ calls, after = before.becomes after.conn calls ∧
      ClosesOnce after.conn calls := by
  cases operation with
  | readRound | useReadBuf | onClosed | setKeepAlive =>
      exact absurd trivial breaks
  | enqueueWrite data =>
      cases stepped
      exact ⟨[], rfl, Or.inl ⟨nofun, rfl⟩⟩
  | beginSendfile file size =>
      cases stepped
      exact ⟨_, rfl, Or.inl ⟨nofun, closings_releaseFile _⟩⟩
  | flushWrite answers =>
      simp only [LeavesClosed, Classical.not_imp, not_not] at breaks
      rcases Option.map_eq_some_iff.1 stepped with ⟨flushed, ran, rfl⟩
      exact ⟨_, rfl, flushWrite_opens breaks.2 ran⟩
  | onWritable answers =>
      simp only [LeavesClosed, Classical.not_imp, not_not] at breaks
      rcases Option.map_eq_some_iff.1 stepped with ⟨result, ran, rfl⟩
      exact ⟨_, rfl, onWritable_closesOnce (flushWrite_opens breaks.2) ran⟩

/-- What is known of every life, also of one that was reopened. -/
structure Counted (life : Lifetime) : Prop where
  hollow : life.conn.Hollow
  ended : life.ended = true → 1 ≤ life.callbacks
  unended : life.ended = false →
    life.callbacks = 0 ∧ life.conn.state ≠ .closed

/-- It has been opened or closed again. -/
def Reopened (life : Lifetime) : Prop :=
  life.ended = true ∧ 1 ≤ life.callbacks ∧
    (life.conn.state ≠ .closed ∨ 2 ≤ life.callbacks)

theorem leavesClosed_of_opened {life : Lifetime}
    (opened : life.conn.state ≠ .closed) (operation : Operation) :
    life.LeavesClosed operation := by
  cases operation with
  | enqueueWrite | beginSendfile => exact opened
  | flushWrite | onWritable => exact fun closed => absurd closed opened
  | readRound | useReadBuf | onClosed | setKeepAlive => trivial

/-- Callbacks are counted, and an end is remembered. -/
theorem step_becomes {before after : Lifetime} {operation : Operation}
    (stepped : before.step operation = some after) :
    ∃ calls, after = before.becomes after.conn calls := by
  cases operation with
  | readRound | useReadBuf | onClosed | enqueueWrite | beginSendfile |
      setKeepAlive =>
      cases stepped
      exact ⟨_, rfl⟩
  | onWritable answers =>
      rcases Option.map_eq_some_iff.1 stepped with ⟨result, _, rfl⟩
      exact ⟨_, rfl⟩
  | flushWrite answers =>
      rcases Option.map_eq_some_iff.1 stepped with ⟨flushed, _, rfl⟩
      exact ⟨_, rfl⟩

theorem step_hollow {before after : Lifetime} {operation : Operation}
    (hollow : before.conn.Hollow)
    (stepped : before.step operation = some after) : after.conn.Hollow := by
  cases operation with
  | readRound received =>
      cases stepped
      exact hollow.readOnce received
  | useReadBuf readBuf =>
      cases stepped
      exact hollow.of_state rfl rfl
  | onWritable answers =>
      rcases Option.map_eq_some_iff.1 stepped with ⟨result, ran, rfl⟩
      exact hollow.onWritable ran
  | onClosed =>
      cases stepped
      exact hollow.onClosed
  | enqueueWrite | beginSendfile =>
      cases stepped
      exact nofun
  | flushWrite answers =>
      rcases Option.map_eq_some_iff.1 stepped with ⟨flushed, ran, rfl⟩
      exact hollow.flushWrite ran
  | setKeepAlive val =>
      cases stepped
      exact hollow.of_state rfl rfl

theorem Counted.step {before after : Lifetime} {operation : Operation}
    (counted : before.Counted)
    (stepped : before.step operation = some after) : after.Counted := by
  have hollow := step_hollow counted.hollow stepped
  rcases step_becomes stepped with ⟨_, more⟩
  cases ended : before.ended with
  | true =>
      have once := counted.ended ended
      have callbacks := congrArg Lifetime.callbacks more
      have stays := congrArg Lifetime.ended more
      simp only [becomes, ended, Bool.true_or] at callbacks stays
      refine ⟨hollow, fun _ => callbacks ▸ Nat.le_add_right_of_le once,
        fun open_ => ?_⟩
      cases stays.symm.trans open_
  | false =>
      rcases counted.unended ended with ⟨never, opened⟩
      rcases step_opened opened stepped with ⟨calls, same, closes⟩
      have callbacks := congrArg Lifetime.callbacks same
      have ends := congrArg Lifetime.ended same
      simp only [becomes, ended, never, Bool.false_or,
        Nat.zero_add] at callbacks ends
      rcases closes with ⟨state, quiet⟩ | ⟨state, once⟩
      · refine ⟨hollow, fun shut => ?_,
          fun _ => ⟨callbacks.trans quiet, state⟩⟩
        rw [ends] at shut
        exact absurd (of_decide_eq_true shut) state
      · refine ⟨hollow, fun _ => (callbacks.trans once).ge,
          fun open_ => ?_⟩
        rw [ends] at open_
        exact absurd state (of_decide_eq_false open_)

theorem Reopened.step {before after : Lifetime} {operation : Operation}
    (reopened : before.Reopened)
    (stepped : before.step operation = some after) : after.Reopened := by
  rcases reopened with ⟨ended, once, opened | twice⟩
  · rcases step_opened opened stepped with ⟨calls, same, closes⟩
    have callbacks := congrArg Lifetime.callbacks same
    have stays := congrArg Lifetime.ended same
    simp only [becomes, ended, Bool.true_or] at callbacks stays
    refine ⟨stays, callbacks ▸ Nat.le_add_right_of_le once, ?_⟩
    rcases closes with ⟨state, _⟩ | ⟨_, again⟩
    · exact Or.inl state
    · exact Or.inr (by omega)
  · rcases step_becomes stepped with ⟨calls, same⟩
    have callbacks := congrArg Lifetime.callbacks same
    have stays := congrArg Lifetime.ended same
    simp only [becomes, ended, Bool.true_or] at callbacks stays
    exact ⟨stays, by omega, Or.inr (by omega)⟩

/-- A life that has not gone wrong goes wrong by missing the condition. -/
theorem reopened_iff {before after : Lifetime} {operation : Operation}
    (counted : before.Counted) (works : ¬ before.Reopened)
    (stepped : before.step operation = some after) :
    after.Reopened ↔ ¬ before.LeavesClosed operation := by
  by_cases closed : before.conn.state = .closed
  · have ended : before.ended = true := by
      by_contra open_
      exact (counted.unended (Bool.eq_false_iff.2 open_)).2 closed
    have once : before.callbacks = 1 := by
      have atLeast := counted.ended ended
      by_contra more
      exact works ⟨ended, atLeast, Or.inr (by omega)⟩
    by_cases leaves : before.LeavesClosed operation
    · rcases step_closed closed (counted.hollow closed) leaves stepped with
        ⟨calls, same, state, quiet⟩
      have callbacks := congrArg Lifetime.callbacks same
      simp only [becomes, once, quiet] at callbacks
      refine iff_of_false ?_ (not_not.2 leaves)
      rintro ⟨_, _, opened | twice⟩
      · exact opened state
      · omega
    · rcases step_reopens leaves stepped with ⟨calls, same, closes⟩
      have callbacks := congrArg Lifetime.callbacks same
      have stays := congrArg Lifetime.ended same
      simp only [becomes, ended, once, Bool.true_or] at callbacks stays
      refine iff_of_true ⟨stays, by omega, ?_⟩ leaves
      rcases closes with ⟨state, _⟩ | ⟨_, again⟩
      · exact Or.inl state
      · exact Or.inr (by omega)
  · have leaves := leavesClosed_of_opened closed operation
    have unended : before.ended = false := by
      by_contra ended
      rw [Bool.not_eq_false] at ended
      exact works ⟨ended, counted.ended ended, Or.inl closed⟩
    rcases step_opened closed stepped with ⟨calls, same, closes⟩
    have callbacks := congrArg Lifetime.callbacks same
    simp only [becomes, (counted.unended unended).1] at callbacks
    refine iff_of_false ?_ (not_not.2 leaves)
    rintro ⟨_, once, opened | twice⟩
    · rcases closes with ⟨_, quiet⟩ | ⟨state, _⟩
      · omega
      · exact opened state
    · rcases closes with ⟨_, quiet⟩ | ⟨_, again⟩
      · omega
      · omega

/-- The law holds as long as nothing has been opened or closed again. -/
theorem forGood_iff {life : Lifetime} (counted : life.Counted) :
    life.ForGood ↔ ¬ life.Reopened := by
  constructor
  · rintro forGood ⟨ended, _, opened | twice⟩
    · exact opened (forGood.closed ended).1
    · have once := (forGood.closed ended).2.2
      omega
  · intro works
    refine ⟨fun ended => ?_, fun unended => (counted.unended unended).1⟩
    have once := counted.ended ended
    have closed : life.conn.state = .closed := by
      by_contra opened
      exact works ⟨ended, once, Or.inl opened⟩
    refine ⟨closed, by rw [Connection.isAlive, closed]; rfl, ?_⟩
    by_contra more
    exact works ⟨ended, once, Or.inr (by omega)⟩

theorem counted_opened (socket : Fd) (id : Nat) :
    Counted { conn := .opened socket id } where
  hollow := nofun
  ended := nofun
  unended := fun _ => ⟨rfl, nofun⟩

/--
After any sequence of operations, a connection that has been closed is closed,
and its close callback has been called once, exactly if every operation met the
condition where it was called.
-/
theorem forGood_iff_leavesClosed {socket : Fd} {id : Nat}
    {operations : List Operation} {life : Lifetime}
    (ran : machine.run { conn := .opened socket id } operations = some life) :
    life.ForGood ↔
      machine.Guarded LeavesClosed
        { conn := .opened socket id } operations := by
  have counted : life.Counted :=
    Machine.Reachable.invariant ⟨operations, ran⟩
      (fun _ _ _ counted stepped => Counted.step counted stepped)
      (counted_opened socket id)
  rw [forGood_iff counted]
  refine Machine.not_failed_iff_guarded
    (fun _ _ _ counted works stepped => reopened_iff counted works stepped)
    (fun _ _ _ counted _ stepped _ => Counted.step counted stepped)
    (fun _ _ _ reopened stepped => Reopened.step reopened stepped)
    (counted_opened socket id) ?_ ran
  rintro ⟨ended, _⟩
  cases ended

/-- A reset in the middle of a transfer, and a flush that finds bytes left. -/
theorem forGood_iff_leavesClosed_reset :
    ∃ life,
      machine.run { conn := .opened 3 0 }
          [.enqueueWrite [1, 2], .flushWrite [.took 1, .failed .connreset],
            .flushWrite [.failed .other], .onClosed] = some life ∧
        life.ended = true ∧ life.ForGood := by
  have finishes : ∃ life,
      machine.run { conn := .opened 3 0 }
          [.enqueueWrite [1, 2], .flushWrite [.took 1, .failed .connreset],
            .flushWrite [.failed .other], .onClosed] = some life ∧
        life.ended = true :=
    Option.map_eq_some_iff.1 (by decide)
  rcases finishes with ⟨life, ran, ended⟩
  exact ⟨life, ran, ended, (forGood_iff_leavesClosed ran).2 (by decide)⟩

/-- A file transfer fails, and the connection is flushed once more. -/
theorem forGood_fails_afterSendfile :
    ∃ life,
      machine.run { conn := .opened 3 0 }
          [.beginSendfile ⟨7, [1, 2, 3]⟩ 3, .flushWrite [.failed .pipe],
            .flushWrite []] = some life ∧
        life.ended = true ∧ life.conn.state = .reading ∧
          ¬ life.ForGood := by
  have finishes : ∃ life,
      machine.run { conn := .opened 3 0 }
          [.beginSendfile ⟨7, [1, 2, 3]⟩ 3, .flushWrite [.failed .pipe],
            .flushWrite []] = some life ∧
        (life.ended, life.conn.state) = (true, .reading) :=
    Option.map_eq_some_iff.1 (by decide)
  rcases finishes with ⟨life, ran, found⟩
  rcases Prod.mk.inj found with ⟨ended, reading⟩
  refine ⟨life, ran, ended, reading, fun forGood => ?_⟩
  cases reading.symm.trans (forGood.closed ended).1

end Lifetime

end Cppws.Net
