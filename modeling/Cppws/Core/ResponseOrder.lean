import Cppws.Core.Threads
import Mathlib.Data.Nat.Init
import Mathlib.Tactic.Common

/-!
# The order of the responses

Nothing orders the workers: a task that is popped later can be posted earlier,
and the error response of the event loop overtakes every task.  Responses keep
the order of their requests while a connection has at most one request on its
way, or a single worker handles all of them and no parse error follows.
-/

namespace Cppws.Core

/-- The first job may not be posted after the second. -/
def Job.Before (first second : Job) : Prop :=
  first.conn = second.conn → first.seq < second.seq

instance : DecidableRel Job.Before := fun _ _ =>
  inferInstanceAs (Decidable (_ → _))

namespace Threads

/-- No request of the connection is still on its way. -/
def Answered (threads : Threads) (conn : Nat) : Prop :=
  ∀ job ∈ threads.outstanding, job.conn ≠ conn

instance (threads : Threads) (conn : Nat) :
    Decidable (threads.Answered conn) :=
  inferInstanceAs (Decidable (∀ job ∈ threads.outstanding, _))

/--
A request is recognised only when one worker handles all of them or the
connection waits for no response; a parse error only in the latter case.
-/
def OneAtATime (threads : Threads) : Action → Prop
  | .recognise conn => threads.workers.length = 1 ∨ threads.Answered conn
  | .parseError conn => threads.Answered conn
  | _ => True

instance (threads : Threads) :
    ∀ action, Decidable (threads.OneAtATime action)
  | .recognise _ => inferInstanceAs (Decidable (_ ∨ _))
  | .parseError conn => inferInstanceAs (Decidable (threads.Answered conn))
  | .loopPush | .wakeup | .drain | .stop | .leave | .join | .pop _
  | .dispatch _ _ | .post _ => inferInstanceAs (Decidable True)

/-- What holds while requests come one at a time. -/
structure InOrder (threads : Threads) : Prop where
  posted : threads.posted.Pairwise Job.Before
  waiting : ∀ job ∈ threads.posted, ∀ later ∈ threads.outstanding,
    job.Before later
  numbered : ∀ job ∈ threads.posted ++ threads.outstanding,
    job.seq < threads.recognised job.conn
  single : threads.workers.length = 1 →
    threads.outstanding.Pairwise Job.Before
  several : threads.workers.length ≠ 1 →
    threads.outstanding.Pairwise fun first second => first.conn ≠ second.conn
  inline : ∀ job, threads.loop = .posting job →
    ∀ other ∈ threads.outstanding, other.conn = job.conn → other = job

theorem start_inOrder (workers : Nat) : (start workers).InOrder := by
  have nothing := start_outstanding workers
  have empty : (start workers).posted = [] := rfl
  constructor <;> simp only [nothing, empty] <;> simp

theorem Job.Before.of_conn_ne {first second : Job}
    (different : first.conn ≠ second.conn) : first.Before second :=
  fun same => absurd same different

theorem recognise_le (threads : Threads) (conn other : Nat) :
    threads.recognised other ≤ threads.recognise conn other := by
  unfold recognise Function.update
  split
  case isTrue same => exact same ▸ Nat.le_succ _
  case isFalse => exact Nat.le_refl _

/-- The new job comes after every job counted so far. -/
theorem before_nextJob {threads : Threads} {conn : Nat} {job : Job}
    (numbered : job.seq < threads.recognised job.conn) :
    job.Before (threads.nextJob conn) := by
  intro same
  rw [same] at numbered
  exact numbered

/-- The job that is posted next comes before all others on their way. -/
theorem InOrder.leads {threads : Threads} (ordered : threads.InOrder)
    {job : Job} {left right : List Job}
    (split : threads.outstanding = left ++ job :: right)
    (first : threads.workers.length = 1 → left ≠ [] →
      threads.loop = .posting job) :
    ∀ later ∈ left ++ right, job.Before later := by
  intro later member
  by_cases alone : threads.workers.length = 1
  · have sorted := ordered.single alone
    rw [split, List.pairwise_append, List.pairwise_cons] at sorted
    rcases sorted with ⟨_, ⟨rightwards, _⟩, across⟩
    rcases List.mem_append.1 member with early | late
    · have inline := ordered.inline job
        (first alone (List.ne_nil_of_mem early)) later
        (by rw [split]; exact List.mem_append_left _ early)
      intro same
      have equal := inline same.symm
      have smaller := across later early job List.mem_cons_self same.symm
      rw [equal] at smaller
      exact absurd smaller (Nat.lt_irrefl _)
    · exact rightwards later late
  · have apart := ordered.several alone
    rw [split, List.pairwise_append, List.pairwise_cons] at apart
    rcases apart with ⟨_, ⟨rightwards, _⟩, across⟩
    apply Job.Before.of_conn_ne
    rcases List.mem_append.1 member with early | late
    · exact (across later early job List.mem_cons_self).symm
    · exact rightwards later late

theorem InOrder.arrives {before after : Threads} (ordered : before.InOrder)
    {conn : Nat} {action : Action} (guard : before.OneAtATime action)
    (announced :
      action = .recognise conn ∧
          after.loop = .submitting (before.nextJob conn) ∨
        action = .parseError conn ∧
          after.loop = .posting (before.nextJob conn))
    (joined : after.outstanding = before.outstanding ++ [before.nextJob conn])
    (counted : after.recognised = before.recognise conn)
    (posted : after.posted = before.posted)
    (workers : after.workers.length = before.workers.length) :
    after.InOrder := by
  have last : ∀ job ∈ before.posted ++ before.outstanding,
      job.Before (before.nextJob conn) :=
    fun job member => before_nextJob (ordered.numbered job member)
  constructor
  · rw [posted]
    exact ordered.posted
  · rw [posted, joined]
    intro job member later appended
    rcases List.mem_append.1 appended with old | new
    · exact ordered.waiting job member later old
    · rw [List.mem_singleton.1 new]
      exact last job (List.mem_append_left _ member)
  · rw [posted, joined, counted, ← List.append_assoc]
    intro job member
    rcases List.mem_append.1 member with old | new
    · exact Nat.lt_of_lt_of_le (ordered.numbered job old)
        (recognise_le before conn job.conn)
    · rw [List.mem_singleton.1 new]
      simp [recognise, nextJob]
  · rw [workers, joined]
    intro alone
    refine List.pairwise_append.2
      ⟨ordered.single alone, List.pairwise_singleton _ _, ?_⟩
    intro job member new appended
    rw [List.mem_singleton.1 appended]
    exact last job (List.mem_append_right _ member)
  · rw [workers, joined]
    intro alone
    have answered : before.Answered conn := by
      rcases announced with ⟨rfl, _⟩ | ⟨rfl, _⟩
      · exact guard.resolve_left alone
      · exact guard
    refine List.pairwise_append.2
      ⟨ordered.several alone, List.pairwise_singleton _ _, ?_⟩
    intro job member new appended
    rw [List.mem_singleton.1 appended]
    exact answered job member
  · intro job busy other member same
    rcases announced with ⟨_, submitting⟩ | ⟨rfl, posting⟩
    · rw [submitting] at busy
      cases busy
    · rw [posting] at busy
      cases busy
      rw [joined] at member
      rcases List.mem_append.1 member with old | new
      · exact absurd same (guard other old)
      · exact List.mem_singleton.1 new

theorem InOrder.moves {before after : Threads} (ordered : before.InOrder)
    (handed : after.outstanding.Sublist before.outstanding ∨
      before.workers.length ≠ 1 ∧
        after.outstanding.Perm before.outstanding)
    (kept : ∀ job, after.loop = .posting job → before.loop = .posting job)
    (counted : after.recognised = before.recognised)
    (posted : after.posted = before.posted)
    (workers : after.workers.length = before.workers.length) :
    after.InOrder := by
  have known : ∀ job ∈ after.outstanding, job ∈ before.outstanding := by
    intro job member
    rcases handed with fewer | ⟨_, same⟩
    · exact fewer.subset member
    · exact same.mem_iff.1 member
  constructor
  · rw [posted]
    exact ordered.posted
  · rw [posted]
    exact fun job member later still =>
      ordered.waiting job member later (known later still)
  · rw [posted, counted]
    intro job member
    apply ordered.numbered job
    rcases List.mem_append.1 member with old | still
    · exact List.mem_append_left _ old
    · exact List.mem_append_right _ (known job still)
  · rw [workers]
    intro alone
    rcases handed with fewer | ⟨several, _⟩
    · exact (ordered.single alone).sublist fewer
    · exact absurd alone several
  · rw [workers]
    intro alone
    rcases handed with fewer | ⟨_, same⟩
    · exact (ordered.several alone).sublist fewer
    · exact (same.pairwise_iff fun different => different.symm).2
        (ordered.several alone)
  · exact fun job busy other member =>
      ordered.inline job (kept job busy) other (known other member)

theorem InOrder.posts {before after : Threads} (ordered : before.InOrder)
    {job : Job} {left right : List Job}
    (was : before.outstanding = left ++ job :: right)
    (remains : after.outstanding = left ++ right)
    (first : before.workers.length = 1 → left ≠ [] →
      before.loop = .posting job)
    (kept : ∀ job, after.loop = .posting job → before.loop = .posting job)
    (counted : after.recognised = before.recognised)
    (posted : after.posted = before.posted ++ [job])
    (workers : after.workers.length = before.workers.length) :
    after.InOrder := by
  have fewer : after.outstanding.Sublist before.outstanding := by
    rw [was, remains]
    exact List.Sublist.append_left (List.sublist_cons_self job right) left
  have taken : job ∈ before.outstanding := by
    rw [was]
    exact List.mem_append_right _ List.mem_cons_self
  constructor
  · rw [posted]
    refine List.pairwise_append.2
      ⟨ordered.posted, List.pairwise_singleton _ _, ?_⟩
    intro old member new appended
    rw [List.mem_singleton.1 appended]
    exact ordered.waiting old member job taken
  · rw [posted]
    intro old member later still
    rcases List.mem_append.1 member with earlier | new
    · exact ordered.waiting old earlier later (fewer.subset still)
    · rw [List.mem_singleton.1 new]
      rw [remains] at still
      exact ordered.leads was first later still
  · rw [posted, counted]
    intro other member
    apply ordered.numbered other
    rcases List.mem_append.1 member with answered | still
    · rcases List.mem_append.1 answered with old | new
      · exact List.mem_append_left _ old
      · rw [List.mem_singleton.1 new]
        exact List.mem_append_right _ taken
    · exact List.mem_append_right _ (fewer.subset still)
  · rw [workers]
    exact fun alone => (ordered.single alone).sublist fewer
  · rw [workers]
    exact fun several => (ordered.several several).sublist fewer
  · exact fun other busy another member =>
      ordered.inline other (kept other busy) another (fewer.subset member)

theorem InOrder.step {before after : Threads} {action : Action}
    (ordered : before.InOrder) (guard : before.OneAtATime action)
    (stepped : before.step action = some after) : after.InOrder := by
  have workers := (step_frame stepped).1
  cases step_effect stepped with
  | arrives conn announced joined counted posted _ =>
      exact ordered.arrives guard announced joined counted posted workers
  | moves handed kept counted posted _ =>
      exact ordered.moves handed kept counted posted workers
  | posts job left right was remains first kept counted posted _ =>
      exact ordered.posts was remains first kept counted posted workers

/--
In every run whose requests and parse errors come one at a time, the responses
of each connection are posted in the order of its requests.
-/
theorem posted_inOrder (workers : Nat) (actions : List Action)
    (threads : Threads)
    (guarded : machine.Guarded OneAtATime (start workers) actions)
    (ran : machine.run (start workers) actions = some threads) :
    threads.posted.Pairwise Job.Before :=
  (guarded.invariant
    (fun _ _ _ ordered guard stepped => ordered.step guard stepped)
    (start_inOrder workers) ran).posted

/-- A request, its response, and a parse error on the same connection. -/
theorem posted_inOrder_request_parseError :
    ∃ threads,
      machine.run (start 2)
          [.recognise 0, .loopPush, .pop 1, .dispatch 1 false, .post 1,
            .parseError 0, .loopPush] = some threads ∧
        threads.posted = [⟨0, 0⟩, ⟨0, 1⟩] ∧
        threads.posted.Pairwise Job.Before := by
  have finishes : ∃ threads,
      machine.run (start 2)
          [.recognise 0, .loopPush, .pop 1, .dispatch 1 false, .post 1,
            .parseError 0, .loopPush] = some threads ∧
        threads.posted = [⟨0, 0⟩, ⟨0, 1⟩] :=
    Option.map_eq_some_iff.1 (by decide)
  rcases finishes with ⟨threads, ran, posted⟩
  exact ⟨threads, ran, posted, posted_inOrder 2 _ threads (by decide) ran⟩

/-- Two workers take one request each and the second is the faster one. -/
theorem posted_inOrder_fasterWorker :
    ¬ ∀ workers ≥ 1, ∀ actions threads,
        machine.run (start workers) actions = some threads →
          threads.posted.Pairwise Job.Before := by
  intro always
  have finishes : ∃ threads,
      machine.run (start 2)
          [.recognise 0, .loopPush, .recognise 0, .loopPush, .pop 0, .pop 1,
            .dispatch 1 false, .post 1, .dispatch 0 false,
            .post 0] = some threads ∧
        threads.posted = [⟨0, 1⟩, ⟨0, 0⟩] :=
    Option.map_eq_some_iff.1 (by decide)
  rcases finishes with ⟨threads, ran, posted⟩
  have ordered := always 2 (by decide) _ threads ran
  rw [posted] at ordered
  revert ordered
  decide

end Threads

end Cppws.Core
