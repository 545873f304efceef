import Cppws.Foundation.BoundedQueue
import Cppws.Net.Buffer

/-!
# A buffer is a bounded queue of bytes

The operations of `Buffer` as a machine, which takes a step only where the
assertions of the source hold.  A caller that looks at the capacity and the
readable bytes sees a bounded queue; the cursors and the storage are hidden
from it, except that a buffer must be compacted to use all of its capacity.
-/

namespace Cppws.Net

open Cppws.Http (Bytes)

namespace Buffer

def reset (buffer : Buffer) : Buffer :=
  { buffer with
    readPos := 0
    writePos := 0
    ordered := buffer.consumeAll.ordered
    within := buffer.consumeAll.within }

inductive Action where
  /-- Write at `write_ptr()` and `commit_write`. -/
  | write (bytes : Bytes)
  | consume (n : Nat)
  | consumeAll
  | compact
  | reserve (newCapacity : Nat)
  | reset

def step (buffer : Buffer) : Action → Option Buffer
  | .write bytes =>
      if fits : bytes.length ≤ buffer.writableBytes then
        some (buffer.append bytes fits)
      else
        none
  | .consume n =>
      if available : n ≤ buffer.readableBytes then
        some (buffer.consume n available)
      else
        none
  | .consumeAll => some buffer.consumeAll
  | .compact => some buffer.compact.1
  | .reserve newCapacity => some (buffer.reserve newCapacity)
  | .reset => some buffer.reset

def machine : Machine Buffer Action where
  step := step

/-- What a caller sees of a buffer. -/
def queue (buffer : Buffer) : BoundedQueue UInt8 where
  capacity := buffer.capacity
  contents := buffer.readable
  bounded := by
    rw [readable_length, readableBytes]
    exact Nat.le_trans (Nat.sub_le _ _) buffer.within

/-- What a caller sees of an operation. -/
def Action.visible : Action → List (BoundedQueue.Action UInt8)
  | .write bytes => [.enqueue bytes]
  | .consume n => [.dequeue n]
  | .consumeAll => [.clear]
  | .compact => []
  | .reserve newCapacity => [.grow newCapacity]
  | .reset => [.clear]

/-- The bytes committed since the buffer was cleared. -/
def Action.committed (actions : List Action) : Bytes :=
  BoundedQueue.Action.entered (actions.flatMap Action.visible)

/-- How many of them have been consumed. -/
def Action.consumed (actions : List Action) : Nat :=
  BoundedQueue.Action.left (actions.flatMap Action.visible)

/-- Every step of a buffer is a step of the queue, or cannot be seen. -/
theorem step_queue {before after : Buffer} {action : Action}
    (stepped : before.step action = some after) :
    BoundedQueue.machine.run before.queue action.visible =
      some after.queue := by
  have one : ∀ {visible : BoundedQueue.Action UInt8},
      before.queue.step visible = some after.queue →
        BoundedQueue.machine.run before.queue [visible] =
          some after.queue := by
    intro visible stepped
    exact Machine.run_cons_eq_some.2 ⟨_, stepped, rfl⟩
  cases action with
  | write bytes =>
      rw [step] at stepped
      split_ifs at stepped with fits
      cases stepped
      apply one
      have room : (before.queue.contents ++ bytes).length ≤
          before.queue.capacity := by
        have ordered := before.ordered
        have within := before.within
        show (before.readable ++ bytes).length ≤ before.capacity
        rw [List.length_append, readable_length]
        simp only [writableBytes, readableBytes] at fits ⊢
        omega
      rw [BoundedQueue.step, dif_pos room]
      congr 1
      ext1
      · rfl
      · exact (readable_append before bytes fits).symm
  | consume n =>
      rw [step] at stepped
      split_ifs at stepped with available
      cases stepped
      apply one
      have held : n ≤ before.queue.contents.length :=
        available.trans_eq before.readable_length.symm
      rw [BoundedQueue.step, if_pos held]
      congr 1
      ext1
      · rfl
      · exact (readable_consume before n _).symm
  | consumeAll =>
      cases stepped
      exact one rfl
  | compact =>
      cases stepped
      rw [Action.visible, Machine.run_nil]
      congr 1
      ext1
      · exact before.compact_capacity.symm
      · exact before.readable_compact.symm
  | reserve newCapacity =>
      cases stepped
      apply one
      rw [BoundedQueue.step]
      congr 1
      ext1
      · exact (before.reserve_capacity newCapacity).symm
      · exact (before.readable_reserve newCapacity).symm
  | reset =>
      cases stepped
      exact one rfl

/-- What `compact` returns is what it adds to the room for writing. -/
theorem compact_recovered (buffer : Buffer) :
    buffer.compact.1.writableBytes =
      buffer.writableBytes + buffer.compact.2 := by
  have ordered := buffer.ordered
  have within := buffer.within
  rw [compact_writableBytes, readableBytes, writableBytes, compact]
  split_ifs with atStart <;> dsimp only <;> omega

theorem compact_fills (buffer : Buffer) :
    buffer.compact.1.writableBytes + buffer.compact.1.readableBytes =
      buffer.compact.1.capacity := by
  have ordered := buffer.ordered
  have within := buffer.within
  rw [compact_writableBytes, ← readable_length buffer.compact.1,
    readable_compact, readable_length, compact_capacity, readableBytes]
  omega

/-- Any run of operations on a new buffer is a run of a bounded queue. -/
theorem refines_queue {capacity : Nat} {actions : List Action}
    {buffer : Buffer}
    (ran : machine.run (ofCapacity capacity) actions = some buffer) :
    BoundedQueue.machine.run (.empty capacity)
        (actions.flatMap Action.visible) = some buffer.queue ∧
      (buffer.readPos ≤ buffer.writePos ∧
        buffer.writePos ≤ buffer.capacity) ∧
      buffer.readable =
        (Action.committed actions).drop (Action.consumed actions) ∧
      Action.consumed actions ≤ (Action.committed actions).length ∧
      (buffer.compact.1.readable = buffer.readable ∧
        buffer.compact.1.writableBytes =
          buffer.writableBytes + buffer.compact.2 ∧
        buffer.compact.1.writableBytes + buffer.compact.1.readableBytes =
          buffer.compact.1.capacity) ∧
      ∀ newCapacity,
        (buffer.reserve newCapacity).readable = buffer.readable ∧
          (buffer.reserve newCapacity).capacity =
            max buffer.capacity newCapacity := by
  have simulated := Machine.run_of_simulation queue Action.visible
    (fun _ _ _ => step_queue) ran
  rcases BoundedQueue.contents_of_run simulated with ⟨fewer, contents⟩
  refine ⟨simulated, ⟨buffer.ordered, buffer.within⟩, contents, fewer, ?_,
    ?_⟩
  · exact ⟨buffer.readable_compact, buffer.compact_recovered,
      buffer.compact_fills⟩
  · intro newCapacity
    exact ⟨buffer.readable_reserve newCapacity,
      buffer.reserve_capacity newCapacity⟩

theorem refines_queue_grown :
    ∃ buffer,
      machine.run (ofCapacity 4)
          [.write [1, 2, 3], .consume 2, .reserve 6, .write [4, 5]] =
        some buffer ∧
      buffer.readable = [3, 4, 5] := by
  have runs : (machine.run (ofCapacity 4)
      [.write [1, 2, 3], .consume 2, .reserve 6, .write [4, 5]]).isSome := by
    decide
  rcases Option.isSome_iff_exists.1 runs with ⟨buffer, ran⟩
  exact ⟨buffer, ran, (refines_queue ran).2.2.1⟩

end Buffer

end Cppws.Net
