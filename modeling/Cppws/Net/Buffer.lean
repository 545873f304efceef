import Cppws.Http.Request

/-!
# Byte buffers with two cursors

`Buffer` of `net/buffer.hpp`.  The cursors and the storage carry their bounds,
so the preconditions that the source asserts are arguments here.  What a caller
can observe of a buffer is its capacity and its `readable` bytes.
-/

namespace Cppws.Net

open Cppws.Http (Bytes)

def defaultCapacity : Nat := 16 * 1024

structure Buffer where
  data : Bytes
  capacity : Nat
  readPos : Nat
  writePos : Nat
  sized : data.length = capacity
  ordered : readPos ≤ writePos
  within : writePos ≤ capacity

namespace Buffer

/-- The constructor. -/
def ofCapacity (capacity : Nat) : Buffer where
  data := List.replicate capacity 0
  capacity := capacity
  readPos := 0
  writePos := 0
  sized := List.length_replicate
  ordered := Nat.le_refl 0
  within := Nat.zero_le capacity

/-! ## Write side -/

def writableBytes (buffer : Buffer) : Nat :=
  buffer.capacity - buffer.writePos

/-- Write bytes at `write_ptr()`. -/
def store (buffer : Buffer) (bytes : Bytes)
    (fits : bytes.length ≤ buffer.writableBytes) : Buffer :=
  { buffer with
    data :=
      buffer.data.take buffer.writePos ++
        (bytes ++ buffer.data.drop (buffer.writePos + bytes.length))
    sized := by
      have sized := buffer.sized
      have within := buffer.within
      simp only [writableBytes] at fits
      simp only [List.length_append, List.length_take, List.length_drop]
      omega }

def commitWrite (buffer : Buffer) (n : Nat)
    (fits : n ≤ buffer.writableBytes) : Buffer :=
  { buffer with
    writePos := buffer.writePos + n
    ordered := Nat.le_add_right_of_le buffer.ordered
    within := by
      have within := buffer.within
      simp only [writableBytes] at fits
      omega }

/-- Bytes written at `write_ptr()` and committed. -/
def append (buffer : Buffer) (bytes : Bytes)
    (fits : bytes.length ≤ buffer.writableBytes) : Buffer :=
  (buffer.store bytes fits).commitWrite bytes.length fits

/-! ## Read side -/

def readableBytes (buffer : Buffer) : Nat :=
  buffer.writePos - buffer.readPos

def readable (buffer : Buffer) : Bytes :=
  (buffer.data.drop buffer.readPos).take buffer.readableBytes

def empty (buffer : Buffer) : Bool :=
  buffer.readableBytes == 0

def consume (buffer : Buffer) (n : Nat)
    (available : n ≤ buffer.readableBytes) : Buffer :=
  { buffer with
    readPos := buffer.readPos + n
    ordered := by
      have ordered := buffer.ordered
      simp only [readableBytes] at available
      omega }

def consumeAll (buffer : Buffer) : Buffer :=
  { buffer with
    readPos := 0
    writePos := 0
    ordered := Nat.le_refl 0
    within := Nat.zero_le _ }

/-! ## Buffer management -/

/-- `compact`, with the number of bytes recovered. -/
def compact (buffer : Buffer) : Buffer × Nat :=
  if buffer.readPos = 0 then
    (buffer, 0)
  else
    ({ buffer with
        data :=
          buffer.readable ++ buffer.data.drop buffer.readableBytes
        readPos := 0
        writePos := buffer.readableBytes
        sized := by
          have sized := buffer.sized
          have within := buffer.within
          simp only [readable, readableBytes, List.length_append,
            List.length_take, List.length_drop]
          omega
        ordered := Nat.zero_le _
        within := Nat.le_trans (Nat.sub_le _ _) buffer.within },
      buffer.readPos)

@[simp]
theorem compact_capacity (buffer : Buffer) :
    buffer.compact.1.capacity = buffer.capacity := by
  unfold compact
  split <;> rfl

def reserve (buffer : Buffer) (newCapacity : Nat) : Buffer :=
  if larger : newCapacity ≤ buffer.capacity then
    buffer
  else
    { buffer.compact.1 with
      data :=
        buffer.compact.1.data ++
          List.replicate (newCapacity - buffer.capacity) 0
      capacity := newCapacity
      sized := by
        rw [List.length_append, buffer.compact.1.sized,
          List.length_replicate, compact_capacity]
        omega
      within := by
        have within := buffer.compact.1.within
        rw [compact_capacity] at within
        omega }

/-! ## What the operations do to the readable bytes -/

@[simp]
theorem readable_length (buffer : Buffer) :
    buffer.readable.length = buffer.readableBytes := by
  have sized := buffer.sized
  have within := buffer.within
  simp only [readable, readableBytes, List.length_take, List.length_drop]
  omega

@[simp]
theorem readable_ofCapacity (capacity : Nat) :
    (ofCapacity capacity).readable = [] :=
  rfl

theorem empty_iff (buffer : Buffer) :
    buffer.empty = true ↔ buffer.readable = [] := by
  rw [← List.length_eq_zero_iff, readable_length, empty, beq_iff_eq]

theorem readable_eq (buffer : Buffer) :
    buffer.readable = (buffer.data.take buffer.writePos).drop
      buffer.readPos := by
  rw [List.drop_take]
  rfl

@[simp]
theorem readable_append (buffer : Buffer) (bytes : Bytes)
    (fits : bytes.length ≤ buffer.writableBytes) :
    (buffer.append bytes fits).readable = buffer.readable ++ bytes := by
  have reach : (buffer.data.take buffer.writePos).length = buffer.writePos := by
    rw [List.length_take, buffer.sized]
    exact Nat.min_eq_left buffer.within
  have firstPart :
      (buffer.append bytes fits).data.take (buffer.writePos + bytes.length) =
        buffer.data.take buffer.writePos ++ bytes := by
    simp only [append, store, commitWrite]
    rw [← List.append_assoc]
    apply List.take_left'
    rw [List.length_append, reach]
  calc (buffer.append bytes fits).readable
      = ((buffer.append bytes fits).data.take
          (buffer.writePos + bytes.length)).drop buffer.readPos :=
        readable_eq _
    _ = (buffer.data.take buffer.writePos).drop buffer.readPos ++ bytes := by
        rw [firstPart, List.drop_append_of_le_length]
        rw [reach]
        exact buffer.ordered
    _ = buffer.readable ++ bytes := by rw [readable_eq]

@[simp]
theorem append_capacity (buffer : Buffer) (bytes : Bytes)
    (fits : bytes.length ≤ buffer.writableBytes) :
    (buffer.append bytes fits).capacity = buffer.capacity :=
  rfl

@[simp]
theorem readable_consume (buffer : Buffer) (n : Nat)
    (available : n ≤ buffer.readableBytes) :
    (buffer.consume n available).readable = buffer.readable.drop n := by
  rw [readable_eq, readable_eq, List.drop_drop]
  rfl

@[simp]
theorem consume_capacity (buffer : Buffer) (n : Nat)
    (available : n ≤ buffer.readableBytes) :
    (buffer.consume n available).capacity = buffer.capacity :=
  rfl

@[simp]
theorem readable_consumeAll (buffer : Buffer) :
    buffer.consumeAll.readable = [] :=
  rfl

@[simp]
theorem consumeAll_capacity (buffer : Buffer) :
    buffer.consumeAll.capacity = buffer.capacity :=
  rfl

@[simp]
theorem readable_compact (buffer : Buffer) :
    buffer.compact.1.readable = buffer.readable := by
  by_cases atStart : buffer.readPos = 0
  · rw [compact, if_pos atStart]
  · rw [compact, if_neg atStart]
    apply List.take_left'
    exact buffer.readable_length

/-- Compacting leaves room for everything but the readable bytes. -/
theorem compact_writableBytes (buffer : Buffer) :
    buffer.compact.1.writableBytes =
      buffer.capacity - buffer.readableBytes := by
  by_cases atStart : buffer.readPos = 0
  · rw [compact, if_pos atStart, writableBytes, readableBytes, atStart,
      Nat.sub_zero]
  · rw [compact, if_neg atStart]
    rfl

@[simp]
theorem readable_reserve (buffer : Buffer) (newCapacity : Nat) :
    (buffer.reserve newCapacity).readable = buffer.readable := by
  unfold reserve
  split
  case isTrue => rfl
  case isFalse =>
    rw [readable_eq]
    dsimp only
    rw [List.take_append_of_le_length, ← readable_eq, readable_compact]
    rw [buffer.compact.1.sized]
    exact buffer.compact.1.within

theorem reserve_capacity (buffer : Buffer) (newCapacity : Nat) :
    (buffer.reserve newCapacity).capacity =
      max buffer.capacity newCapacity := by
  unfold reserve
  split
  case isTrue larger => exact (Nat.max_eq_left larger).symm
  case isFalse smaller =>
    exact (Nat.max_eq_right (Nat.le_of_not_le smaller)).symm

end Buffer

end Cppws.Net
