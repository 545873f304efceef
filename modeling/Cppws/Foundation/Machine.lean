import Mathlib.Logic.Basic
import Mathlib.Data.Option.Basic

/-!
# Machines and their runs

A machine is a partial step function on states, with everything the step does
not determine itself in its label.  A run is a list of labels.  Invariants are
proved one step at a time and hold in every state of a run; where a step keeps
an invariant only under a condition on the state it starts from and its label,
the invariant holds in every state of a run whose steps meet the condition.
-/

universe u v

/-- A partial step function with labels. -/
structure Machine (State : Type u) (Label : Type v) where
  step : State → Label → Option State

namespace Machine

variable {State : Type u} {Label : Type v}

/-- The state after a list of labels, if each of them is enabled in turn. -/
def run (machine : Machine State Label) :
    State → List Label → Option State
  | state, [] => some state
  | state, label :: rest =>
      (machine.step state label).bind fun next => machine.run next rest

/-- Some run leads from `start` to `state`. -/
def Reachable (machine : Machine State Label) (start state : State) : Prop :=
  ∃ labels, machine.run start labels = some state

/-- Every step of the run from `start` meets the condition where it is taken. -/
def Guarded (machine : Machine State Label) (guard : State → Label → Prop) :
    State → List Label → Prop
  | _, [] => True
  | state, label :: rest =>
      guard state label ∧
        ∀ next, machine.step state label = some next →
          machine.Guarded guard next rest

variable {machine : Machine State Label}

instance decidableGuarded {guard : State → Label → Prop}
    [∀ state label, Decidable (guard state label)] :
    ∀ start labels, Decidable (machine.Guarded guard start labels)
  | _, [] => inferInstanceAs (Decidable True)
  | start, label :: rest =>
      match stepped : machine.step start label with
      | none =>
          decidable_of_iff (guard start label)
            ⟨fun held => ⟨held, by simp [stepped]⟩, fun held => held.1⟩
      | some next =>
          have : Decidable (machine.Guarded guard next rest) :=
            decidableGuarded next rest
          decidable_of_iff
            (guard start label ∧ machine.Guarded guard next rest)
            ⟨fun held => ⟨held.1, by simpa [stepped] using held.2⟩,
              fun held => ⟨held.1, held.2 next stepped⟩⟩

@[simp]
theorem run_nil (state : State) : machine.run state [] = some state :=
  rfl

theorem run_cons_eq_some {start state : State} {label : Label}
    {rest : List Label} :
    machine.run start (label :: rest) = some state ↔
      ∃ next, machine.step start label = some next ∧
        machine.run next rest = some state := by
  simp only [run, Option.bind_eq_some_iff]

theorem run_append (start : State) (first second : List Label) :
    machine.run start (first ++ second) =
      (machine.run start first).bind fun next => machine.run next second := by
  induction first generalizing start with
  | nil => rfl
  | cons label rest ih =>
      simp only [List.cons_append, run, ih, Option.bind_assoc]

/--
An invariant that every step meeting the condition preserves holds in every
state of a run whose steps all meet it.
-/
theorem Guarded.invariant {guard : State → Label → Prop}
    {invariant : State → Prop} {start state : State} {labels : List Label}
    (guarded : machine.Guarded guard start labels)
    (preserved : ∀ before label after, invariant before →
      guard before label → machine.step before label = some after →
        invariant after)
    (initially : invariant start)
    (ran : machine.run start labels = some state) :
    invariant state := by
  induction labels generalizing start with
  | nil =>
      rw [run_nil, Option.some.injEq] at ran
      exact ran ▸ initially
  | cons label rest ih =>
      rcases run_cons_eq_some.1 ran with ⟨next, stepped, ran⟩
      have kept := preserved start label next initially guarded.1 stepped
      exact ih (guarded.2 next stepped) kept ran

/-- What is reachable stays so after another step. -/
theorem Reachable.step {start state next : State} {label : Label}
    (reachable : machine.Reachable start state)
    (stepped : machine.step state label = some next) :
    machine.Reachable start next := by
  rcases reachable with ⟨labels, ran⟩
  refine ⟨labels ++ [label], ?_⟩
  rw [run_append, ran, Option.bind_some]
  exact run_cons_eq_some.2 ⟨next, stepped, rfl⟩

/-- An invariant that every step preserves holds in every reachable state. -/
theorem Reachable.invariant {invariant : State → Prop} {start state : State}
    (reachable : machine.Reachable start state)
    (preserved : ∀ before label after, invariant before →
      machine.step before label = some after → invariant after)
    (initially : invariant start) :
    invariant state := by
  rcases reachable with ⟨labels, ran⟩
  have unconditional : machine.Guarded (fun _ _ => True) start labels := by
    clear ran initially
    induction labels generalizing start with
    | nil => trivial
    | cons label rest ih => exact ⟨trivial, fun next _ => ih⟩
  exact unconditional.invariant
    (fun before label after kept _ stepped =>
      preserved before label after kept stepped)
    initially ran

/--
If each step of a machine is a run of another one, seen through a function of
the states, then so is every run.
-/
theorem run_of_simulation {OtherState : Type*} {OtherLabel : Type*}
    {other : Machine OtherState OtherLabel} (view : State → OtherState)
    (image : Label → List OtherLabel)
    (simulated : ∀ before label after,
      machine.step before label = some after →
        other.run (view before) (image label) = some (view after))
    {start state : State} {labels : List Label}
    (ran : machine.run start labels = some state) :
    other.run (view start) (labels.flatMap image) = some (view state) := by
  induction labels generalizing start with
  | nil =>
      cases ran
      rfl
  | cons label rest ih =>
      rcases run_cons_eq_some.1 ran with ⟨next, stepped, ran⟩
      rw [List.flatMap_cons, run_append, simulated start label next stepped]
      exact ih ran

/-- Conditions that agree on every step agree on every run. -/
theorem guarded_congr {guard other : State → Label → Prop}
    (invariant : State → Prop) {start state : State} {labels : List Label}
    (agree : ∀ before label after, invariant before →
      machine.step before label = some after →
        (guard before label ↔ other before label))
    (preserved : ∀ before label after, invariant before →
      machine.step before label = some after → invariant after)
    (initially : invariant start)
    (ran : machine.run start labels = some state) :
    machine.Guarded guard start labels ↔
      machine.Guarded other start labels := by
  induction labels generalizing start with
  | nil => exact Iff.rfl
  | cons label rest ih =>
      rcases run_cons_eq_some.1 ran with ⟨next, stepped, ran⟩
      have kept := preserved start label next initially stepped
      have tail : ∀ after, machine.step start label = some after →
          (machine.Guarded guard after rest ↔
            machine.Guarded other after rest) := by
        intro after again
        rw [stepped, Option.some.injEq] at again
        exact again ▸ ih kept ran
      constructor
      · exact fun held =>
          ⟨(agree start label next initially stepped).1 held.1,
            fun after again => (tail after again).1 (held.2 after again)⟩
      · exact fun held =>
          ⟨(agree start label next initially stepped).2 held.1,
            fun after again => (tail after again).2 (held.2 after again)⟩

/--
When a failure is final and a step fails exactly if it misses the condition, a
run has not failed exactly if all its steps meet the condition.
-/
theorem not_failed_iff_guarded {guard : State → Label → Prop}
    {invariant failed : State → Prop} {start state : State}
    {labels : List Label}
    (fails : ∀ before label after, invariant before → ¬ failed before →
      machine.step before label = some after →
        (failed after ↔ ¬ guard before label))
    (preserved : ∀ before label after, invariant before →
      ¬ failed before →
      machine.step before label = some after → ¬ failed after →
        invariant after)
    (final : ∀ before label after, failed before →
      machine.step before label = some after → failed after)
    (initially : invariant start) (works : ¬ failed start)
    (ran : machine.run start labels = some state) :
    ¬ failed state ↔ machine.Guarded guard start labels := by
  have stays : ∀ {first : State} {labels : List Label}, failed first →
      machine.run first labels = some state → failed state := by
    intro first labels failure
    induction labels generalizing first with
    | nil =>
        intro ran
        rw [run_nil, Option.some.injEq] at ran
        exact ran ▸ failure
    | cons label rest ih =>
        intro ran
        rcases run_cons_eq_some.1 ran with ⟨next, stepped, ran⟩
        exact ih (final first label next failure stepped) ran
  induction labels generalizing start with
  | nil =>
      rw [run_nil, Option.some.injEq] at ran
      exact iff_of_true (ran ▸ works) trivial
  | cons label rest ih =>
      rcases run_cons_eq_some.1 ran with ⟨next, stepped, ran⟩
      have step := fails start label next initially works stepped
      by_cases failure : failed next
      · refine iff_of_false (not_not.2 (stays failure ran)) ?_
        exact fun held => step.1 failure held.1
      · have kept := preserved start label next initially works stepped failure
        refine (ih kept failure ran).trans ?_
        constructor
        · intro held
          refine ⟨not_not.1 (mt step.2 failure), fun after again => ?_⟩
          rw [stepped, Option.some.injEq] at again
          exact again ▸ held
        · exact fun held => held.2 next stepped

/--
A property that is looked at in some states only, where what is `good` between
them is known.  A step of a run that goes on makes a good state of a good state
exactly if it meets the condition, and what is not good stays so up to the next
state that is looked at.
-/
theorem checked_iff_guarded {guard : State → Label → Prop}
    (invariant good checked alive required : State → Prop)
    {start state : State} {labels : List Label}
    (agree : ∀ before label after, invariant before → good before →
      machine.step before label = some after → alive after →
        (good after ↔ guard before label))
    (stays : ∀ before label after, invariant before → ¬ checked before →
      ¬ good before → machine.step before label = some after →
        alive after → ¬ good after)
    (preserved : ∀ before label after, invariant before →
      machine.step before label = some after → alive after →
        invariant after)
    (back : ∀ before label after, machine.step before label = some after →
      alive after → alive before)
    (reads : ∀ state, invariant state →
      (required state ↔ (checked state → good state)))
    (initially : invariant start) (begins : good start)
    (ran : machine.run start labels = some state)
    (goesOn : alive state) (ends : checked state) :
    machine.Guarded (fun state _ => required state) start labels ∧
        required state ↔
      machine.Guarded guard start labels := by
  have survives : ∀ {first : State} {labels : List Label},
      machine.run first labels = some state → alive first := by
    intro first labels
    induction labels generalizing first with
    | nil =>
        intro ran
        rw [run_nil, Option.some.injEq] at ran
        exact ran ▸ goesOn
    | cons label rest ih =>
        intro ran
        rcases run_cons_eq_some.1 ran with ⟨next, stepped, ran⟩
        exact back first label next stepped (ih ran)
  have remains : ∀ {first : State} {labels : List Label},
      invariant first → ¬ good first →
        machine.run first labels = some state →
          ¬ (machine.Guarded (fun state _ => required state) first labels ∧
            required state) := by
    intro first labels
    induction labels generalizing first with
    | nil =>
        rintro holds bad ran ⟨_, last⟩
        rw [run_nil, Option.some.injEq] at ran
        subst ran
        exact bad ((reads first holds).1 last ends)
    | cons label rest ih =>
        rintro holds bad ran ⟨held, last⟩
        rcases run_cons_eq_some.1 ran with ⟨next, stepped, ran⟩
        have unchecked : ¬ checked first := fun looked =>
          bad ((reads first holds).1 held.1 looked)
        have goes := survives ran
        exact ih (preserved first label next holds stepped goes)
          (stays first label next holds unchecked bad stepped goes) ran
          ⟨held.2 next stepped, last⟩
  induction labels generalizing start with
  | nil =>
      rw [run_nil, Option.some.injEq] at ran
      subst ran
      exact iff_of_true ⟨trivial, (reads start initially).2 fun _ => begins⟩
        trivial
  | cons label rest ih =>
      rcases run_cons_eq_some.1 ran with ⟨next, stepped, ran⟩
      have goes := survives ran
      have holds := preserved start label next initially stepped goes
      have met := agree start label next initially begins stepped goes
      have now := (reads start initially).2 fun _ => begins
      by_cases kept : good next
      · have tail := ih holds kept ran
        constructor
        · rintro ⟨held, last⟩
          refine ⟨met.1 kept, fun after again => ?_⟩
          rw [stepped, Option.some.injEq] at again
          exact again ▸ tail.1 ⟨held.2 next stepped, last⟩
        · intro guarded
          have both := tail.2 (guarded.2 next stepped)
          refine ⟨⟨now, fun after again => ?_⟩, both.2⟩
          rw [stepped, Option.some.injEq] at again
          exact again ▸ both.1
      · refine iff_of_false ?_ fun guarded => kept (met.2 guarded.1)
        rintro ⟨held, last⟩
        exact remains holds kept ran ⟨held.2 next stepped, last⟩

end Machine
