import Mathlib.Logic.Function.Basic
import Cppws.Core.TaskQueue
import Cppws.Foundation.Machine

/-!
# Waking up the event loop

`post_response` pushes a response and then writes to the eventfd; the event
loop waits for the eventfd, reads it and then pops until the queue is empty.
The eventfd is registered for edges: a write raises one, `epoll_wait` delivers
it with the batch, or forgets it if the counter is 0 by then.  Any number of
threads post, and the callbacks of the event loop itself do too.
-/

namespace Cppws.Core

/-- Where a thread is in `post_response`. -/
inductive PostPoint where
  | outside
  /-- It has pushed and is about to write. -/
  | pushed
deriving DecidableEq

/-- An event of a batch. -/
inductive Ready where
  | wakeup
  | other
deriving DecidableEq

/-- Where the event loop is. -/
inductive LoopPoint where
  /-- About to call `epoll_.wait`. -/
  | waiting
  /-- About to handle the first of these events. -/
  | handling (batch : List Ready)
  /-- In `handle_event` for another event, whose callbacks may post. -/
  | serving (point : PostPoint) (rest : List Ready)
  /-- In `drain_pending_writes`, about to read the eventfd. -/
  | reading (rest : List Ready)
  /-- In the loop of `drain_pending_writes`. -/
  | popping (rest : List Ready)
deriving DecidableEq

structure Wakeups (Thread T : Type) where
  pendingWrites : TaskQueue T := {}
  /-- The counter of the eventfd. -/
  counter : Nat := 0
  /-- A write that `epoll_wait` has not looked at yet. -/
  edge : Bool := false
  posters : Thread → PostPoint := fun _ => .outside
  loop : LoopPoint := .waiting

namespace Wakeups

variable {Thread T : Type} [DecidableEq Thread]

inductive Action (Thread T : Type) where
  /-- A thread pushes a response. -/
  | push (thread : Thread) (item : T)
  /-- It writes to the eventfd. -/
  | write (thread : Thread)
  /-- `epoll_.wait` returns a batch. -/
  | wait (batch : List Ready)
  /-- `epoll_.wait` forgets the edge of a counter that is 0. -/
  | forget
  /-- `handle_event` is called. -/
  | handle
  /-- A callback of the event loop pushes a response. -/
  | postPush (item : T)
  | postWrite
  /-- `handle_event` returns. -/
  | served
  | read
  | tryPop
  /-- The end of an iteration of `run`. -/
  | reap

/-- `::write(wakeup_fd_, 1)`. -/
def signal (wakeups : Wakeups Thread T) : Wakeups Thread T :=
  { wakeups with counter := wakeups.counter + 1, edge := true }

def step (wakeups : Wakeups Thread T) :
    Action Thread T → Option (Wakeups Thread T)
  | .push thread item =>
      if wakeups.posters thread = .outside then
        (wakeups.pendingWrites.push item).map fun pushed =>
          { wakeups with
            pendingWrites := pushed.1
            posters := Function.update wakeups.posters thread .pushed }
      else
        none
  | .write thread =>
      if wakeups.posters thread = .pushed then
        some
          { wakeups.signal with
            posters := Function.update wakeups.posters thread .outside }
      else
        none
  | .wait batch =>
      if wakeups.loop = .waiting then
        if Ready.wakeup ∈ batch then
          if wakeups.edge ∧ 0 < wakeups.counter ∧
            batch.count .wakeup = 1 then
            some { wakeups with edge := false, loop := .handling batch }
          else
            none
        else
          some { wakeups with loop := .handling batch }
      else
        none
  | .forget =>
      if wakeups.loop = .waiting ∧ wakeups.counter = 0 then
        some { wakeups with edge := false }
      else
        none
  | .handle =>
      match wakeups.loop with
      | .handling (.wakeup :: rest) =>
          some { wakeups with loop := .reading rest }
      | .handling (.other :: rest) =>
          some { wakeups with loop := .serving .outside rest }
      | _ => none
  | .postPush item =>
      match wakeups.loop with
      | .serving .outside rest =>
          (wakeups.pendingWrites.push item).map fun pushed =>
            { wakeups with
              pendingWrites := pushed.1
              loop := .serving .pushed rest }
      | _ => none
  | .postWrite =>
      match wakeups.loop with
      | .serving .pushed rest =>
          some { wakeups.signal with loop := .serving .outside rest }
      | _ => none
  | .served =>
      match wakeups.loop with
      | .serving .outside rest => some { wakeups with loop := .handling rest }
      | _ => none
  | .read =>
      match wakeups.loop with
      | .reading rest =>
          some { wakeups with counter := 0, loop := .popping rest }
      | _ => none
  | .tryPop =>
      match wakeups.loop with
      | .popping rest =>
          let popped := wakeups.pendingWrites.tryPop
          some
            { wakeups with
              pendingWrites := popped.1
              loop :=
                if popped.2.isSome then .popping rest else .handling rest }
      | _ => none
  | .reap =>
      if wakeups.loop = .handling [] then
        some { wakeups with loop := .waiting }
      else
        none

def machine (Thread T : Type) [DecidableEq Thread] :
    Machine (Wakeups Thread T) (Action Thread T) where
  step := step

/-! ## What keeps a response from being forgotten -/

section

omit [DecidableEq Thread]

/-- The eventfd has an edge that the next `epoll_wait` delivers. -/
def Signalled (wakeups : Wakeups Thread T) : Prop :=
  wakeups.edge = true ∧ 0 < wakeups.counter

/-- The wakeup event of the batch is still to be handled. -/
def Noticed (wakeups : Wakeups Thread T) : Prop :=
  ∃ rest, Ready.wakeup ∈ rest ∧
    (wakeups.loop = .handling rest ∨
      ∃ point, wakeups.loop = .serving point rest)

/-- Someone has pushed and not yet written. -/
def HalfPosted (wakeups : Wakeups Thread T) : Prop :=
  (∃ thread, wakeups.posters thread = .pushed) ∨
    ∃ rest, wakeups.loop = .serving .pushed rest

/-- The event loop has not come to its last `try_pop`. -/
def Draining (wakeups : Wakeups Thread T) : Prop :=
  ∃ rest, wakeups.loop = .reading rest ∨ wakeups.loop = .popping rest

end

end Wakeups

/-- Before it waits again, the event loop writes or looks at the queue. -/
def LoopPoint.Attends : LoopPoint → Prop
  | .waiting => False
  | .handling batch => Ready.wakeup ∈ batch
  | .serving point rest => point = .pushed ∨ Ready.wakeup ∈ rest
  | .reading _ => True
  | .popping _ => True

namespace Wakeups

variable {Thread T : Type} [DecidableEq Thread]

/-- A response in the queue is going to be looked at. -/
def Kept (wakeups : Wakeups Thread T) : Prop :=
  wakeups.pendingWrites.queue ≠ [] →
    wakeups.Signalled ∨ (∃ thread, wakeups.posters thread = .pushed) ∨
      wakeups.loop.Attends

omit [DecidableEq Thread] in
/-- Nothing gets lost when no thread writes. -/
theorem Kept.moves {before after : Wakeups Thread T} (kept : before.Kept)
    (queue : after.pendingWrites = before.pendingWrites)
    (posters : after.posters = before.posters)
    (signalled : before.Signalled → after.Signalled ∨ after.loop.Attends)
    (loop : before.loop.Attends → after.loop.Attends) : after.Kept := by
  intro pending
  rw [queue] at pending
  rcases kept pending with signal | ⟨thread, pushed⟩ | attends
  · rcases signalled signal with signal | attends
    · exact Or.inl signal
    · exact Or.inr (Or.inr attends)
  · rw [← posters] at pushed
    exact Or.inr (Or.inl ⟨thread, pushed⟩)
  · exact Or.inr (Or.inr (loop attends))

theorem Kept.step {before after : Wakeups Thread T}
    {action : Action Thread T} (kept : before.Kept)
    (stepped : (machine Thread T).step before action = some after) :
    after.Kept := by
  have stepped : before.step action = some after := stepped
  cases action with
  | push thread item =>
      simp only [Wakeups.step] at stepped
      split_ifs at stepped
      rcases Option.map_eq_some_iff.1 stepped with ⟨pushed, _, rfl⟩
      exact fun _ => Or.inr (Or.inl ⟨thread, Function.update_self _ _ _⟩)
  | write thread =>
      simp only [Wakeups.step] at stepped
      split_ifs at stepped
      cases stepped
      exact fun _ => Or.inl ⟨rfl, Nat.succ_pos _⟩
  | wait batch =>
      simp only [Wakeups.step] at stepped
      split_ifs at stepped with waiting delivered
      · cases stepped
        exact fun _ => Or.inr (Or.inr delivered)
      · cases stepped
        refine Kept.moves kept rfl rfl Or.inl ?_
        rw [waiting]
        exact False.elim
  | forget =>
      simp only [Wakeups.step] at stepped
      split_ifs at stepped with idle
      cases stepped
      refine Kept.moves kept rfl rfl ?_ id
      rintro ⟨_, positive⟩
      rw [idle.2] at positive
      cases positive
  | handle =>
      simp only [Wakeups.step] at stepped
      split at stepped
      case h_1 rest loop =>
        cases stepped
        exact Kept.moves kept rfl rfl Or.inl fun _ => trivial
      case h_2 rest loop =>
        cases stepped
        refine Kept.moves kept rfl rfl Or.inl ?_
        rw [loop]
        rintro (_ | ⟨_, later⟩)
        exact Or.inr later
      case h_3 => cases stepped
  | postPush item =>
      simp only [Wakeups.step] at stepped
      split at stepped
      case h_1 rest loop =>
        rcases Option.map_eq_some_iff.1 stepped with ⟨pushed, _, rfl⟩
        exact fun _ => Or.inr (Or.inr (Or.inl rfl))
      case h_2 => cases stepped
  | postWrite =>
      simp only [Wakeups.step] at stepped
      split at stepped
      case h_1 rest loop =>
        cases stepped
        exact fun _ => Or.inl ⟨rfl, Nat.succ_pos _⟩
      case h_2 => cases stepped
  | served =>
      simp only [Wakeups.step] at stepped
      split at stepped
      case h_1 rest loop =>
        cases stepped
        refine Kept.moves kept rfl rfl Or.inl ?_
        rw [loop]
        rintro (outside | later)
        · cases outside
        · exact later
      case h_2 => cases stepped
  | read =>
      simp only [Wakeups.step] at stepped
      split at stepped
      case h_1 rest loop =>
        cases stepped
        exact Kept.moves kept rfl rfl (fun _ => Or.inr trivial) fun _ => trivial
      case h_2 => cases stepped
  | tryPop =>
      simp only [Wakeups.step] at stepped
      split at stepped
      case h_1 rest loop =>
        cases stepped
        intro pending
        unfold TaskQueue.tryPop at pending ⊢
        split at pending
        case h_1 => exact Or.inr (Or.inr trivial)
        case h_2 empty => exact absurd empty pending
      case h_2 => cases stepped
  | reap =>
      simp only [Wakeups.step] at stepped
      split_ifs at stepped with ended
      cases stepped
      refine Kept.moves kept rfl rfl Or.inl ?_
      rw [ended]
      exact nofun

theorem kept_of_reachable {wakeups : Wakeups Thread T}
    (reachable : (machine Thread T).Reachable {} wakeups) : wakeups.Kept :=
  reachable.invariant (fun _ _ _ kept stepped => Kept.step kept stepped)
    fun pending => absurd rfl pending

/--
In every reachable state in which a response is queued, the eventfd has an edge
to be delivered, or its event is still in the batch, or somebody has pushed and
not yet written, or the event loop is going to pop again.
-/
theorem pending_noticed {wakeups : Wakeups Thread T}
    (reachable : (machine Thread T).Reachable {} wakeups)
    (pending : wakeups.pendingWrites.queue ≠ []) :
    wakeups.Signalled ∨ wakeups.Noticed ∨ wakeups.HalfPosted ∨
      wakeups.Draining := by
  rcases kept_of_reachable reachable pending with
    signalled | pushed | attends
  · exact Or.inl signalled
  · exact Or.inr (Or.inr (Or.inl (Or.inl pushed)))
  · cases loop : wakeups.loop with
    | waiting =>
        rw [loop] at attends
        exact attends.elim
    | handling batch =>
        rw [loop] at attends
        exact Or.inr (Or.inl ⟨batch, attends, Or.inl loop⟩)
    | serving point rest =>
        rw [loop] at attends
        rcases attends with rfl | later
        · exact Or.inr (Or.inr (Or.inl (Or.inr ⟨rest, loop⟩)))
        · exact Or.inr (Or.inl ⟨rest, later, Or.inr ⟨point, loop⟩⟩)
    | reading rest =>
        exact Or.inr (Or.inr (Or.inr ⟨rest, Or.inl loop⟩))
    | popping rest =>
        exact Or.inr (Or.inr (Or.inr ⟨rest, Or.inr loop⟩))

theorem step_tryPop {wakeups : Wakeups Thread T} {rest : List Ready}
    (popping : wakeups.loop = .popping rest) :
    (machine Thread T).step wakeups .tryPop =
      some
        { wakeups with
          pendingWrites := wakeups.pendingWrites.tryPop.1
          loop :=
            if wakeups.pendingWrites.tryPop.2.isSome then .popping rest
            else .handling rest } := by
  show wakeups.step .tryPop = _
  simp only [step, popping]

/-- The loop of `drain_pending_writes` pops whatever is queued. -/
theorem run_popping (queue : List T) {rest : List Ready}
    (wakeups : Wakeups Thread T)
    (queued : wakeups.pendingWrites.queue = queue)
    (popping : wakeups.loop = .popping rest) :
    ∃ after,
      (machine Thread T).run wakeups
          (List.replicate (queue.length + 1) .tryPop) = some after ∧
        after.pendingWrites.queue = [] ∧ after.loop = .handling rest := by
  have popped := step_tryPop popping
  induction queue generalizing wakeups with
  | nil =>
      rw [TaskQueue.tryPop_of_nil queued] at popped
      exact ⟨_, Machine.run_cons_eq_some.2 ⟨_, popped, rfl⟩, queued,
        rfl⟩
  | cons item queue ih =>
      rcases TaskQueue.tryPop_of_cons queued with ⟨tasks, took, left⟩
      rw [took] at popped
      rcases ih { wakeups with pendingWrites := tasks, loop := .popping rest }
        left rfl (step_tryPop rfl) with ⟨after, ran, emptied⟩
      exact ⟨after, Machine.run_cons_eq_some.2 ⟨_, popped, ran⟩,
        emptied⟩

/--
When the event loop waits and nobody is in `post_response`, the next wait can
deliver the wakeup, and the event loop empties the queue by itself.
-/
theorem pending_drained {wakeups : Wakeups Thread T}
    (reachable : (machine Thread T).Reachable {} wakeups)
    (waiting : wakeups.loop = .waiting)
    (outside : ∀ thread, wakeups.posters thread = .outside)
    (pending : wakeups.pendingWrites.queue ≠ []) :
    ∃ pops after,
      (machine Thread T).run wakeups
          (.wait [.wakeup] :: .handle :: .read :: List.replicate pops .tryPop) =
        some after ∧
        after.pendingWrites.queue = [] ∧ after.loop = .handling [] := by
  have signalled : wakeups.Signalled := by
    rcases kept_of_reachable reachable pending with
      signalled | ⟨thread, pushed⟩ | attends
    · exact signalled
    · cases (outside thread).symm.trans pushed
    · rw [waiting] at attends
      exact attends.elim
  have noticed : (machine Thread T).step wakeups (.wait [.wakeup]) =
      some { wakeups with edge := false, loop := .handling [.wakeup] } := by
    show wakeups.step (.wait [.wakeup]) = _
    simp only [step]
    rw [if_pos waiting, if_pos (by decide),
      if_pos ⟨signalled.1, signalled.2, by decide⟩]
  rcases run_popping wakeups.pendingWrites.queue
    { wakeups with edge := false, counter := 0, loop := .popping [] } rfl rfl
    with ⟨after, ran, emptied⟩
  refine ⟨wakeups.pendingWrites.queue.length + 1, after, ?_, emptied⟩
  rw [Machine.run, noticed]
  exact ran

/-- A thread posts while the event loop has read the eventfd and popped. -/
theorem pending_noticed_overlap :
    ∃ wakeups : Wakeups Bool Nat,
      (machine Bool Nat).run {}
          [.push false 1, .write false, .wait [.wakeup], .handle, .read,
            .tryPop, .tryPop, .push true 2, .write true] = some wakeups ∧
        (wakeups.Signalled ∨ wakeups.Noticed ∨ wakeups.HalfPosted ∨
          wakeups.Draining) := by
  have finishes : ∃ wakeups : Wakeups Bool Nat,
      (machine Bool Nat).run {}
          [.push false 1, .write false, .wait [.wakeup], .handle, .read,
            .tryPop, .tryPop, .push true 2, .write true] = some wakeups ∧
        wakeups.pendingWrites.queue = [2] :=
    Option.map_eq_some_iff.1 (by decide)
  rcases finishes with ⟨wakeups, ran, queued⟩
  have pending : wakeups.pendingWrites.queue ≠ [] := by
    rw [queued]
    decide
  exact ⟨wakeups, ran, pending_noticed ⟨_, ran⟩ pending⟩

end Wakeups

end Cppws.Core
