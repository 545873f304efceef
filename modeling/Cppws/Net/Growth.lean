import Mathlib.Order.Bounds.Basic
import Cppws.Net.Connection

/-!
# The growth of the write buffer

The loop of `enqueue_write` as a derivation, which is finite and in which the
doubled capacities are numbers of 64 bits.  A round either makes enough room by
compacting the buffer, and is the last one, or doubles the capacity, and is
taken only while the bytes to be held exceed it.
-/

namespace Cppws.Net

open Cppws.Http (Bytes)

/-- If compacting is not enough, the capacity is not either. -/
theorem Buffer.compact_lt_of_short (buffer : Buffer) {len : Nat}
    (still : buffer.compact.1.writableBytes < len) :
    buffer.capacity < buffer.readableBytes + len := by
  have held : buffer.readableBytes ≤ buffer.capacity :=
    Nat.le_trans (Nat.sub_le _ _) buffer.within
  rw [compact_writableBytes] at still
  omega

/-- The loop makes room for `len` bytes in the first buffer and ends with the
second one. -/
inductive Grows (len : Nat) : Buffer → Buffer → Prop where
  | done {buffer : Buffer} (room : len ≤ buffer.writableBytes) :
      Grows len buffer buffer
  | compacted {buffer after : Buffer} (short : buffer.writableBytes < len)
      (room : len ≤ buffer.compact.1.writableBytes)
      (later : Grows len buffer.compact.1 after) : Grows len buffer after
  | doubled {buffer after : Buffer} (short : buffer.writableBytes < len)
      (still : buffer.compact.1.writableBytes < len)
      (exact : buffer.compact.1.capacity * 2 < 2 ^ 64)
      (later : Grows len
        (buffer.compact.1.reserve (buffer.compact.1.capacity * 2)) after) :
      Grows len buffer after

namespace Grows

variable {len : Nat} {buffer after : Buffer}

/-- If there is room in the end, every round is a round of the loop. -/
theorem makeRoom {fuel : Nat}
    (fits : len ≤ (Connection.makeRoom buffer len fuel).writableBytes)
    (bounded : buffer.readableBytes + len ≤ 2 ^ 62) :
    Grows len buffer (Connection.makeRoom buffer len fuel) := by
  induction fuel generalizing buffer with
  | zero => exact .done fits
  | succ fuel ih =>
      rw [Connection.makeRoom] at fits ⊢
      dsimp only at fits ⊢
      split_ifs at fits ⊢ with short still
      · have held : buffer.compact.1.readableBytes = buffer.readableBytes := by
          rw [← Buffer.readable_length, Buffer.readable_compact,
            Buffer.readable_length]
        have exceeded := buffer.compact_lt_of_short still
        refine .doubled short still ?_ (ih fits ?_)
        · rw [Buffer.compact_capacity]
          omega
        · rwa [← Buffer.readable_length, Buffer.readable_reserve,
            Buffer.readable_length, held]
      · rw [Connection.makeRoom_of_fits (Nat.not_lt.1 still)]
        exact .compacted short (Nat.not_lt.1 still) (.done (Nat.not_lt.1 still))
      · exact .done fits

theorem readable (grows : Grows len buffer after) :
    after.readable = buffer.readable := by
  induction grows with
  | done room => rfl
  | compacted short room later ih => rw [ih, Buffer.readable_compact]
  | doubled short still exact later ih =>
      rw [ih, Buffer.readable_reserve, Buffer.readable_compact]

/-- The capacity is doubled as long as it is too small. -/
theorem capacity (grows : Grows len buffer after) :
    ∃ doublings, after.capacity = buffer.capacity * 2 ^ doublings ∧
      buffer.readableBytes + len ≤ after.capacity ∧
      ∀ fewer < doublings,
        buffer.capacity * 2 ^ fewer < buffer.readableBytes + len := by
  induction grows with
  | @done buffer room =>
      refine ⟨0, by rw [Nat.pow_zero, Nat.mul_one], ?_, by simp⟩
      have ordered := buffer.ordered
      have within := buffer.within
      simp only [Buffer.writableBytes, Buffer.readableBytes] at room ⊢
      omega
  | @compacted buffer after short room later ih =>
      rwa [Buffer.compact_capacity, ← Buffer.readable_length,
        Buffer.readable_compact, Buffer.readable_length] at ih
  | @doubled buffer after short still exact later ih =>
      have tooSmall := buffer.compact_lt_of_short still
      rw [Buffer.reserve_capacity, Buffer.compact_capacity,
        ← Buffer.readable_length, Buffer.readable_reserve,
        Buffer.readable_compact, Buffer.readable_length,
        Nat.max_eq_right (Nat.le_mul_of_pos_right _ Nat.two_pos)] at ih
      rcases ih with ⟨doublings, capacity, enough, less⟩
      have twice : ∀ n, buffer.capacity * 2 * 2 ^ n =
          buffer.capacity * 2 ^ (n + 1) := by
        intro n
        rw [Nat.pow_succ', Nat.mul_assoc]
      refine ⟨doublings + 1, by rw [capacity, twice], enough, ?_⟩
      intro fewer lt
      cases fewer with
      | zero => rwa [Nat.pow_zero, Nat.mul_one]
      | succ fewer =>
          rw [← twice]
          exact less fewer (Nat.lt_of_succ_lt_succ lt)

end Grows

/-- The capacities that doubling can lead to and that hold so many bytes. -/
def Sufficient (capacity needed : Nat) : Set Nat :=
  { larger | (∃ doublings, larger = capacity * 2 ^ doublings) ∧
    needed ≤ larger }

theorem Grows.least {len : Nat} {buffer after : Buffer}
    (grows : Grows len buffer after) :
    IsLeast (Sufficient buffer.capacity (buffer.readableBytes + len))
      after.capacity := by
  rcases grows.capacity with ⟨doublings, capacity, enough, less⟩
  refine ⟨⟨⟨doublings, capacity⟩, enough⟩, ?_⟩
  rintro _ ⟨⟨others, rfl⟩, enough'⟩
  rw [capacity]
  have atLeast : doublings ≤ others := by
    by_contra fewer
    exact absurd enough' (Nat.not_le.2 (less others (Nat.lt_of_not_le fewer)))
  exact Nat.mul_le_mul_left _ (Nat.pow_le_pow_right Nat.two_pos atLeast)

/-- A capacity that has been doubled is less than twice what is needed. -/
theorem Grows.capacity_lt {len : Nat} {buffer after : Buffer}
    (grows : Grows len buffer after)
    (tooSmall : buffer.capacity < buffer.readableBytes + len) :
    after.capacity < 2 * (buffer.readableBytes + len) := by
  rcases grows.capacity with ⟨doublings, capacity, enough, less⟩
  cases doublings with
  | zero =>
      rw [Nat.pow_zero, Nat.mul_one] at capacity
      omega
  | succ doublings =>
      have half := less doublings (Nat.lt_succ_self doublings)
      rw [capacity, Nat.pow_succ, ← Nat.mul_assoc, Nat.mul_comm]
      exact Nat.mul_lt_mul_of_pos_left half Nat.two_pos

theorem Grows.capacity_eq {len : Nat} {buffer after : Buffer}
    (grows : Grows len buffer after)
    (enough : buffer.readableBytes + len ≤ buffer.capacity) :
    after.capacity = buffer.capacity := by
  have least := grows.least.2
    ⟨⟨0, by rw [Nat.pow_zero, Nat.mul_one]⟩, enough⟩
  rcases grows.capacity with ⟨doublings, capacity, -, -⟩
  refine Nat.le_antisymm least ?_
  rw [capacity]
  exact Nat.le_mul_of_pos_right _ (Nat.two_pow_pos doublings)

namespace Connection

/--
The loop ends, the bytes are appended, and the capacity is the least one that
doubling leads to and that is large enough.
-/
theorem enqueueWrite_appends (conn : Connection) (data : Bytes)
    (bounded : conn.writeBuf.readableBytes + data.length ≤ 2 ^ 62) :
    Grows data.length conn.writeBuf (conn.roomToWrite data.length) ∧
      (conn.enqueueWrite data).writeBuf.readable =
        conn.writeBuf.readable ++ data ∧
      (conn.writeBuf.readableBytes + data.length ≤ conn.writeBuf.capacity →
        (conn.enqueueWrite data).writeBuf.capacity = conn.writeBuf.capacity) ∧
      (conn.writeBuf.capacity < conn.writeBuf.readableBytes + data.length →
        IsLeast
            (Sufficient conn.writeBuf.capacity
              (conn.writeBuf.readableBytes + data.length))
            (conn.enqueueWrite data).writeBuf.capacity ∧
          (conn.enqueueWrite data).writeBuf.capacity <
            2 * (conn.writeBuf.readableBytes + data.length)) := by
  have grows : Grows data.length conn.writeBuf (conn.roomToWrite data.length) :=
    .makeRoom (conn.roomToWrite_fits data.length) bounded
  refine ⟨grows, ?_, grows.capacity_eq, fun tooSmall => ?_⟩
  · exact (Buffer.readable_append _ data _).trans (by rw [grows.readable])
  · exact ⟨grows.least, grows.capacity_lt tooSmall⟩

/-- A connection whose write buffer holds two bytes. -/
def narrow : Connection where
  socket := some 6
  id := 0
  readBuf := .ofCapacity defaultCapacity
  writeBuf := .ofCapacity 2
  growable := by decide

theorem enqueueWrite_appends_narrow :
    (narrow.enqueueWrite [1, 2, 3, 4, 5]).writeBuf.readable =
        narrow.writeBuf.readable ++ [1, 2, 3, 4, 5] ∧
      IsLeast (Sufficient 2 5)
        (narrow.enqueueWrite [1, 2, 3, 4, 5]).writeBuf.capacity :=
  have appends := enqueueWrite_appends narrow [1, 2, 3, 4, 5] (by decide)
  ⟨appends.2.1, (appends.2.2.2 (by decide)).1⟩

end Connection

end Cppws.Net
