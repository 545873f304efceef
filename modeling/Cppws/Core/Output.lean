import Cppws.Core.PendingWrite

/-!
# The output of a connection

One connection, the responses drained for it and the calls it makes, as a
machine.  There is one write buffer and one file transfer for any number of
responses, so the output is the concatenation of the responses only while none
of them is drained before the file body of an earlier one is finished.
-/

namespace Cppws.Core

open Cppws.Http (Bytes text)
open Cppws.Net

structure Output where
  conn : Connection
  /-- Every call made for the connection so far. -/
  calls : List Call := []
  /-- The responses drained for it while it was alive. -/
  drained : List PendingWrite := []

namespace Output

/-- What the event loop does with the connection. -/
inductive Event where
  /-- `drain_pending_writes` takes out a response to it. -/
  | drain (pw : PendingWrite) (answers : List Answer)
  /-- `EPOLLOUT` is handled. -/
  | writable (answers : List Answer)
  | keepAlive (val : Bool)
  | close

/-- The state after a flush. -/
def flushed (output : Output) (flush : Connection.Flushed) : Output :=
  { output with conn := flush.conn, calls := output.calls ++ flush.calls }

def step (output : Output) : Event → Option Output
  | .drain pw answers =>
      if output.conn.isAlive then
        (pw.deliver output.conn answers).map fun flush =>
          { output.flushed flush with drained := output.drained ++ [pw] }
      else
        some output
  | .writable answers =>
      if output.conn.isAlive then
        (output.conn.flushWrite answers).map output.flushed
      else
        none
  | .keepAlive val =>
      some { output with conn := output.conn.setKeepAlive val }
  | .close =>
      some
        { output with
          conn := output.conn.onClosed.1
          calls := output.calls ++ output.conn.onClosed.2 }

def machine : Machine Output Event where
  step := step

/-- A connection just accepted. -/
def start (socket : Fd) (id : Nat) : Output where
  conn := .opened socket id

/-- The concatenation of the responses. -/
def expected (output : Output) : Bytes :=
  output.drained.flatMap PendingWrite.bytes

/-- The bytes handed to the kernel are the responses so far. -/
def Concatenates (output : Output) : Prop :=
  wire output.calls <+: output.expected ∧
    (output.conn.isAlive = true → output.conn.Idle →
      wire output.calls = output.expected)

instance (output : Output) : Decidable output.Concatenates :=
  inferInstanceAs (Decidable (_ ∧ _))

/-- No response is drained while an earlier file body is unfinished. -/
def FileFinished (output : Output) : Event → Prop
  | .drain pw _ =>
      output.conn.isAlive = true →
        output.conn.sending = false ∨ pw.data = [] ∧ pw.fileFd = none
  | _ => True

instance (output : Output) : ∀ event, Decidable (output.FileFinished event)
  | .drain _ _ => inferInstanceAs (Decidable (_ → _))
  | .writable _ | .keepAlive _ | .close => inferInstanceAs (Decidable True)

/-- Nothing is lost between the responses, the connection and the wire. -/
structure Conserves (output : Output) : Prop where
  alive : output.conn.isAlive = true →
    wire output.calls ++ output.conn.unsent = output.expected
  sent : wire output.calls <+: output.expected

theorem start_conserves (socket : Fd) (id : Nat) :
    (start socket id).Conserves :=
  ⟨fun _ => rfl, List.prefix_refl _⟩

theorem not_isAlive {conn : Connection} (closed : conn.state = .closed) :
    conn.isAlive = false := by
  rw [Connection.isAlive, closed]
  rfl

/-- A flush carries on what the connection had to send. -/
theorem conserves_of_flushes {before after : Output} {conn : Connection}
    {answers : List Answer} {flush : Connection.Flushed} (calls : List Call)
    (flushes : Connection.Flushes conn answers flush)
    (quiet : wire calls = [])
    (carried : wire before.calls ++ conn.unsent = after.expected)
    (conn_eq : after.conn = flush.conn)
    (calls_eq : after.calls = before.calls ++ (calls ++ flush.calls)) :
    after.Conserves := by
  have output : wire after.calls = wire before.calls ++ wire flush.calls := by
    rw [calls_eq, wire_append, wire_append, quiet, List.nil_append]
  cases flushes with
  | opened _ _ _ _ _ _ _ _ moved _ _ =>
      have all : wire after.calls ++ flush.conn.unsent = after.expected := by
        rw [output, List.append_assoc, moved, carried]
      exact ⟨fun _ => conn_eq ▸ all, ⟨_, all⟩⟩
  | shut _ _ _ last _ closed _ moved _ =>
      constructor
      · intro alive
        rw [conn_eq, closed, not_isAlive (Connection.onClosed_state last)]
          at alive
        cases alive
      · rcases moved with ⟨lost, moved⟩
        refine ⟨lost, ?_⟩
        rw [output, List.append_assoc, moved, carried]

theorem Conserves.step {before after : Output} {event : Event}
    (conserves : before.Conserves) (guard : before.FileFinished event)
    (stepped : before.step event = some after) : after.Conserves := by
  cases event with
  | drain pw answers =>
      simp only [Output.step] at stepped
      split_ifs at stepped with alive
      · rcases Option.map_eq_some_iff.1 stepped with
          ⟨flush, delivered, rfl⟩
        rcases PendingWrite.deliver_flushes delivered with
          ⟨calls, quiet, _, inner, rfl, flushes⟩
        refine conserves_of_flushes calls flushes quiet ?_ rfl rfl
        rw [PendingWrite.unsent_handedOver pw (guard alive),
          ← List.append_assoc, conserves.alive alive]
        simp [expected]
      · cases stepped
        exact conserves
  | writable answers =>
      simp only [Output.step] at stepped
      split_ifs at stepped with alive
      rcases Option.map_eq_some_iff.1 stepped with ⟨flush, ran, rfl⟩
      exact conserves_of_flushes [] (Connection.flushWrite_flushes ran) rfl
        (conserves.alive alive) rfl rfl
  | keepAlive val =>
      cases stepped
      exact ⟨conserves.alive, conserves.sent⟩
  | close =>
      cases stepped
      have same : wire (before.calls ++ before.conn.onClosed.2) =
          wire before.calls := by
        rw [wire_append, Connection.wire_onClosed, List.append_nil]
      constructor
      · intro alive
        rw [not_isAlive (Connection.onClosed_state _)] at alive
        cases alive
      · rw [same]
        exact conserves.sent

/--
In every run that drains a response only when no earlier file body is
unfinished, the output of the connection is the concatenation of its responses.
-/
theorem output_concatenates (socket : Fd) (id : Nat) (events : List Event)
    (output : Output)
    (guarded : machine.Guarded FileFinished (start socket id) events)
    (ran : machine.run (start socket id) events = some output) :
    output.Concatenates := by
  have conserves : output.Conserves :=
    guarded.invariant
      (fun _ _ _ kept guard stepped => kept.step guard stepped)
      (start_conserves socket id) ran
  refine ⟨conserves.sent, ?_⟩
  intro alive idle
  have all := conserves.alive alive
  rw [idle.unsent, List.append_nil] at all
  exact all

/-- Headers and a file of two bytes, sent one byte at a time. -/
def slowFile : Event :=
  .drain ⟨some 0, text "H", some ⟨0, text "ab"⟩, 2⟩
    [.took 1, .took 1, .failed .again]

/-- The file is finished before the next response is drained. -/
theorem output_concatenates_fileFinished :
    ∃ output,
      machine.run (start 5 0)
          [slowFile, .writable [.failed .intr, .took 1],
            .drain ⟨some 0, text "R", none, 0⟩ [.took 1]] = some output ∧
        wire output.calls = text "HabR" ∧ output.Concatenates := by
  have finishes : ∃ output,
      machine.run (start 5 0)
          [slowFile, .writable [.failed .intr, .took 1],
            .drain ⟨some 0, text "R", none, 0⟩ [.took 1]] = some output ∧
        wire output.calls = text "HabR" :=
    Option.map_eq_some_iff.1 (by decide)
  rcases finishes with ⟨output, ran, sent⟩
  exact ⟨output, ran, sent,
    output_concatenates 5 0 _ output (by decide) ran⟩

/-- The next response overtakes the second half of the file. -/
theorem output_concatenates_overtaken :
    ¬ ∀ socket id events output,
        machine.run (start socket id) events = some output →
          output.Concatenates := by
  intro always
  have finishes : ∃ output,
      machine.run (start 5 0)
          [slowFile, .drain ⟨some 0, text "R", none, 0⟩
            [.took 1, .took 1]] =
        some output ∧
        (wire output.calls, output.expected) = (text "HaRb", text "HabR") :=
    Option.map_eq_some_iff.1 (by decide)
  rcases finishes with ⟨output, ran, both⟩
  rcases Prod.mk.inj both with ⟨sent, expected⟩
  have concatenates := (always 5 0 _ output ran).1
  rw [sent, expected] at concatenates
  exact absurd concatenates (by decide)

end Output

end Cppws.Core
