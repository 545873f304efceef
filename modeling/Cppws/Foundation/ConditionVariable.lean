import Mathlib.Data.Finset.Card

/-!
# Condition variables

The threads that sleep on a condition variable, those that have been notified
and not yet acquired the mutex again, and those that have woken up by
themselves.  Which thread `notify_one` chooses is up to the caller of these
functions, as it is up to the scheduler.
-/

universe u

structure ConditionVariable (Thread : Type u) [DecidableEq Thread] where
  sleeping : Finset Thread := ∅
  notified : Finset Thread := ∅
  /-- Woken up without a notification. -/
  stirred : Finset Thread := ∅
  apart : Disjoint sleeping (notified ∪ stirred) := by
    exact Finset.disjoint_empty_left _

namespace ConditionVariable

variable {Thread : Type u} [DecidableEq Thread]

/-- The thread gives up the mutex and waits. -/
def sleep (condition : ConditionVariable Thread) (thread : Thread) :
    ConditionVariable Thread where
  sleeping := insert thread condition.sleeping
  notified := condition.notified.erase thread
  stirred := condition.stirred.erase thread
  apart := by
    rw [← Finset.erase_union_distrib]
    exact Finset.disjoint_insert_left.2
      ⟨Finset.notMem_erase thread _,
        condition.apart.mono_right (Finset.erase_subset thread _)⟩

/-- The thread is taken out of its sleep by a notification. -/
def wake (condition : ConditionVariable Thread) (thread : Thread) :
    ConditionVariable Thread where
  sleeping := condition.sleeping.erase thread
  notified := insert thread condition.notified
  stirred := condition.stirred
  apart := by
    rw [Finset.insert_union]
    exact Finset.disjoint_insert_right.2
      ⟨Finset.notMem_erase thread _,
        condition.apart.mono_left (Finset.erase_subset thread _)⟩

/-- The thread wakes up by itself. -/
def stir (condition : ConditionVariable Thread) (thread : Thread) :
    ConditionVariable Thread where
  sleeping := condition.sleeping.erase thread
  notified := condition.notified
  stirred := insert thread condition.stirred
  apart := by
    rw [Finset.union_insert]
    exact Finset.disjoint_insert_right.2
      ⟨Finset.notMem_erase thread _,
        condition.apart.mono_left (Finset.erase_subset thread _)⟩

/-- A thread that is awake has the mutex again. -/
def leave (condition : ConditionVariable Thread) (thread : Thread) :
    ConditionVariable Thread where
  sleeping := condition.sleeping
  notified := condition.notified.erase thread
  stirred := condition.stirred.erase thread
  apart := by
    rw [← Finset.erase_union_distrib]
    exact condition.apart.mono_right (Finset.erase_subset thread _)

/-- One thread that sleeps is chosen, if there is any. -/
def notifyOne (condition : ConditionVariable Thread) :
    Option Thread → Option (ConditionVariable Thread)
  | some thread =>
      if thread ∈ condition.sleeping then
        some (condition.wake thread)
      else
        none
  | none => if condition.sleeping = ∅ then some condition else none

def notifyAll (condition : ConditionVariable Thread) :
    ConditionVariable Thread where
  sleeping := ∅
  notified := condition.sleeping ∪ condition.notified
  stirred := condition.stirred
  apart := Finset.disjoint_empty_left _

/-! ## How many threads are on their way -/

/-- As long as anyone sleeps, this many threads have been notified. -/
def Covers (condition : ConditionVariable Thread) (wanted : Nat) : Prop :=
  condition.sleeping.Nonempty → wanted ≤ condition.notified.card

theorem card_wake {condition : ConditionVariable Thread} {thread : Thread}
    (sleeps : thread ∈ condition.sleeping) :
    (condition.wake thread).notified.card = condition.notified.card + 1 := by
  have outside := Finset.disjoint_left.1 condition.apart sleeps
  rw [Finset.mem_union, not_or] at outside
  exact Finset.card_insert_of_notMem outside.1

theorem Covers.mono {condition : ConditionVariable Thread} {more fewer : Nat}
    (covers : condition.Covers more) (le : fewer ≤ more) :
    condition.Covers fewer :=
  fun sleeps => le.trans (covers sleeps)

theorem covers_zero (condition : ConditionVariable Thread) :
    condition.Covers 0 :=
  fun _ => Nat.zero_le _

theorem Covers.stir {condition : ConditionVariable Thread} {wanted : Nat}
    (covers : condition.Covers wanted) (thread : Thread) :
    (condition.stir thread).Covers wanted :=
  fun sleeps => covers (sleeps.mono (Finset.erase_subset thread _))

/-- The thread that leaves may have been one of those notified. -/
theorem Covers.leave {condition : ConditionVariable Thread} {wanted : Nat}
    (covers : condition.Covers (wanted + 1)) (thread : Thread) :
    (condition.leave thread).Covers wanted := by
  intro sleeps
  have enough : wanted + 1 ≤ condition.notified.card := covers sleeps
  exact (Nat.le_sub_one_of_lt enough).trans Finset.pred_card_le_card_erase

theorem covers_notifyAll (condition : ConditionVariable Thread)
    (wanted : Nat) : condition.notifyAll.Covers wanted :=
  fun sleeps => absurd rfl sleeps.ne_empty

theorem Covers.notifyOne {condition after : ConditionVariable Thread}
    {choice : Option Thread} {wanted : Nat} (covers : condition.Covers wanted)
    (chosen : condition.notifyOne choice = some after) :
    after.Covers (wanted + 1) := by
  cases choice with
  | some thread =>
      simp only [ConditionVariable.notifyOne] at chosen
      split_ifs at chosen with sleeps
      cases chosen
      intro _
      rw [card_wake sleeps]
      exact Nat.succ_le_succ (covers ⟨thread, sleeps⟩)
  | none =>
      simp only [ConditionVariable.notifyOne] at chosen
      split_ifs at chosen with nobody
      cases chosen
      exact fun sleeps => absurd nobody sleeps.ne_empty

theorem sleeping_of_notifyOne {condition after : ConditionVariable Thread}
    {choice : Option Thread}
    (chosen : condition.notifyOne choice = some after) :
    after.sleeping ⊆ condition.sleeping := by
  cases choice with
  | some thread =>
      simp only [ConditionVariable.notifyOne] at chosen
      split_ifs at chosen with sleeps
      cases chosen
      exact Finset.erase_subset thread _
  | none =>
      simp only [ConditionVariable.notifyOne] at chosen
      split_ifs at chosen with nobody
      cases chosen
      exact Finset.Subset.refl _

end ConditionVariable
