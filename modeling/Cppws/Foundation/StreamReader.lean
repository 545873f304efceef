import Mathlib.Data.List.Basic
import Mathlib.Data.List.Forall2

/-!
# Reading items off a stream

A reader takes one item off the front of what has been received, if a whole one
is there.  A steady reader does not mind what follows the item and never reads
without taking something.  What it has read at any time is then the beginning
of what it reads in the end, and a stream of encoded items is read back.
-/

universe u v

/-- An item and what is left, if a whole item has been received. -/
abbrev StreamReader (Symbol : Type u) (Item : Type v) :=
  List Symbol → Option (Item × List Symbol)

namespace StreamReader

variable {Symbol : Type u} {Item : Type v}

/-- What follows an item is left alone; no item is read from nothing. -/
structure Steady (read : StreamReader Symbol Item) : Prop where
  extends_ : ∀ {received item rest}, read received = some (item, rest) →
    ∀ more, read (received ++ more) = some (item, rest ++ more)
  shortens : ∀ {received item rest}, read received = some (item, rest) →
    rest.length < received.length

/-- Items are read as long as whole ones are there. -/
def readUpTo (read : StreamReader Symbol Item) :
    Nat → List Symbol → List Item × List Symbol
  | 0, received => ([], received)
  | count + 1, received =>
      match read received with
      | none => ([], received)
      | some (item, rest) =>
          let later := readUpTo read count rest
          (item :: later.1, later.2)

/-- All whole items; there are no more of them than symbols. -/
def readAll (read : StreamReader Symbol Item) (received : List Symbol) :
    List Item × List Symbol :=
  readUpTo read received.length received

variable {read : StreamReader Symbol Item}

theorem readUpTo_of_none {count : Nat} {received : List Symbol}
    (incomplete : read received = none) :
    readUpTo read count received = ([], received) := by
  cases count with
  | zero => rfl
  | succ count => simp only [readUpTo, incomplete]

/-- More rounds than there are symbols make no difference. -/
theorem Steady.readUpTo_eq (steady : Steady read) {first second : Nat}
    {received : List Symbol} (one : received.length ≤ first)
    (other : received.length ≤ second) :
    readUpTo read first received = readUpTo read second received := by
  induction first generalizing second received with
  | zero =>
      cases complete : read received with
      | none => rw [readUpTo_of_none complete, readUpTo_of_none complete]
      | some taken =>
          have shorter := steady.shortens complete
          omega
  | succ first ih =>
      cases complete : read received with
      | none => rw [readUpTo_of_none complete, readUpTo_of_none complete]
      | some taken =>
          have shorter := steady.shortens complete
          cases second with
          | zero => omega
          | succ second =>
              simp only [readUpTo, complete]
              rw [ih (Nat.le_of_lt_succ (Nat.lt_of_lt_of_le shorter one))
                (Nat.le_of_lt_succ (Nat.lt_of_lt_of_le shorter other))]

theorem Steady.readAll_of_some (steady : Steady read)
    {received rest : List Symbol} {item : Item}
    (complete : read received = some (item, rest)) :
    readAll read received =
      (item :: (readAll read rest).1, (readAll read rest).2) := by
  have shorter := Nat.le_of_lt (steady.shortens complete)
  have enough := steady.readUpTo_eq (Nat.le_refl received.length)
    (Nat.le_succ received.length)
  rw [readAll, enough, readUpTo, complete]
  simp only
  rw [steady.readUpTo_eq shorter (Nat.le_refl rest.length)]
  rfl

theorem readAll_of_none {received : List Symbol}
    (incomplete : read received = none) :
    readAll read received = ([], received) :=
  readUpTo_of_none incomplete

/-- Reading goes on where it has stopped. -/
theorem Steady.readAll_append (steady : Steady read)
    (received more : List Symbol) :
    (readAll read (received ++ more)).1 =
      (readAll read received).1 ++
        (readAll read ((readAll read received).2 ++ more)).1 := by
  induction size : received.length using Nat.strongRecOn
    generalizing received with
  | _ size ih =>
      cases complete : read received with
      | none =>
          rw [readAll_of_none complete]
          rfl
      | some taken =>
          rcases taken with ⟨item, rest⟩
          have later :=
            ih rest.length (size ▸ steady.shortens complete) rest rfl
          rw [steady.readAll_of_some complete,
            steady.readAll_of_some (steady.extends_ complete more), later]
          rfl

/-- What has been read stays read. -/
theorem Steady.readAll_mono (steady : Steady read)
    {received later : List Symbol} (extends_ : received <+: later) :
    (readAll read received).1 <+: (readAll read later).1 := by
  rcases extends_ with ⟨more, rfl⟩
  rw [steady.readAll_append]
  exact List.prefix_append _ _

/-- This is read as the item, whatever follows. -/
def Reads (read : StreamReader Symbol Item) (item : Item)
    (encoding : List Symbol) : Prop :=
  ∀ rest, read (encoding ++ rest) = some (item, rest)

theorem Steady.reads_of_whole (steady : Steady read) {item : Item}
    {encoding : List Symbol} (complete : read encoding = some (item, [])) :
    Reads read item encoding :=
  fun rest => steady.extends_ complete rest

/-- A stream of encoded items is read back. -/
theorem Steady.readAll_encoded (steady : Steady read) {items : List Item}
    {encodings : List (List Symbol)}
    (encoded : List.Forall₂ (Reads read) items encodings) :
    readAll read encodings.flatten = (items, []) := by
  induction encoded with
  | nil =>
      rw [List.flatten_nil]
      rfl
  | cons first rest ih =>
      rw [List.flatten_cons, steady.readAll_of_some (first _), ih]

/--
At any time the items read are those that have been received as a whole, and
maybe more of them.
-/
theorem Steady.readAll_received (steady : Steady read) {items : List Item}
    {encodings : List (List Symbol)}
    (encoded : List.Forall₂ (Reads read) items encodings)
    {received : List Symbol} (begins : received <+: encodings.flatten)
    {count : Nat} (whole : (encodings.take count).flatten <+: received) :
    items.take count <+: (readAll read received).1 ∧
      (readAll read received).1 <+: items := by
  have most := steady.readAll_mono begins
  have least := steady.readAll_mono whole
  rw [steady.readAll_encoded encoded] at most
  rw [steady.readAll_encoded (List.forall₂_take count encoded)] at least
  exact ⟨least, most⟩

/-- Part of an item is not read. -/
theorem Steady.none_of_part (steady : Steady read) {item : Item}
    {part rest : List Symbol} (reads : Reads read item (part ++ rest))
    (more : rest ≠ []) : read part = none := by
  cases complete : read part with
  | none => rfl
  | some taken =>
      have whole := reads []
      rw [List.append_nil, steady.extends_ complete rest, Option.some.injEq,
        Prod.mk.injEq] at whole
      exact absurd (List.append_eq_nil_iff.1 whole.2).2 more

/-- Items that have been read have been received as a whole. -/
theorem Steady.received_of_readAll (steady : Steady read) {items : List Item}
    {encodings : List (List Symbol)}
    (encoded : List.Forall₂ (Reads read) items encodings)
    {received : List Symbol} (begins : received <+: encodings.flatten) :
    (encodings.take (readAll read received).1.length).flatten <+:
      received := by
  induction encoded generalizing received with
  | nil =>
      rw [List.take_nil]
      exact List.nil_prefix
  | @cons item encoding items encodings first rest ih =>
      rw [List.flatten_cons] at begins
      have whole := List.prefix_append encoding encodings.flatten
      by_cases short : received.length < encoding.length
      · rcases List.prefix_of_prefix_length_le begins whole
          (Nat.le_of_lt short) with
          ⟨more, rfl⟩
        have ends : more ≠ [] := by
          rintro rfl
          simp at short
        rw [readAll_of_none (steady.none_of_part first ends)]
        exact List.nil_prefix
      · rcases List.prefix_of_prefix_length_le whole begins
          (Nat.le_of_not_lt short) with ⟨later, rfl⟩
        have begins := (List.prefix_append_right_inj encoding).1 begins
        rw [steady.readAll_of_some (first later), List.length_cons,
          List.take_succ_cons, List.flatten_cons]
        exact (List.prefix_append_right_inj encoding).2 (ih begins)

end StreamReader
