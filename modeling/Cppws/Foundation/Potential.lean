import Mathlib.Algebra.GroupWithZero.Nat
import Mathlib.Algebra.BigOperators.Group.List.Basic
import Cppws.Foundation.Machine

/-!
# Potentials and progress

Amounts summed over the steps of a run.  A potential that pays for what every
step costs bounds the cost of a whole run by what the run has gained, and if it
balances every step the two sums are equal.  Where the potential falls with
each step of a kind, a state that allows none of them is always in reach, and
no run takes more of them than its other steps have paid for.
-/

universe u v

/-- A sum over the items of a list when one of them is replaced. -/
theorem List.sum_map_set {Item : Type u} {Amount : Type v}
    [AddCommMonoid Amount] (measure : Item → Amount)
    {items : List Item} {index : Nat} {item : Item}
    (found : items[index]? = some item) (next : Item) :
    ((items.set index next).map measure).sum + measure item =
      (items.map measure).sum + measure next := by
  induction items generalizing index with
  | nil => cases found
  | cons first rest ih =>
      cases index with
      | zero =>
          cases found
          simp only [List.set_cons_zero, List.map_cons, List.sum_cons]
          ac_rfl
      | succ index =>
          simp only [List.set_cons_succ, List.map_cons, List.sum_cons]
          rw [add_assoc, ih found, add_assoc]

namespace Machine

variable {State : Type u} {Label : Type v}

/-- The sum of an amount over the steps of a run. -/
def total (machine : Machine State Label) (amount : State → Label → Nat) :
    State → List Label → Nat
  | _, [] => 0
  | state, label :: rest =>
      amount state label +
        (machine.step state label).elim 0 fun next =>
          machine.total amount next rest

/-- How many steps of a run are of this kind where they are taken. -/
def count (machine : Machine State Label) (kind : State → Label → Prop)
    [∀ state label, Decidable (kind state label)] :
    State → List Label → Nat :=
  machine.total fun state label => if kind state label then 1 else 0

/-- No step of this kind is enabled. -/
def Quiescent (machine : Machine State Label) (kind : State → Label → Prop)
    (state : State) : Prop :=
  ∀ label, kind state label → machine.step state label = none

variable {machine : Machine State Label}

@[simp]
theorem total_nil (amount : State → Label → Nat) (start : State) :
    machine.total amount start [] = 0 :=
  rfl

theorem total_cons {amount : State → Label → Nat} {start next : State}
    {label : Label} {rest : List Label}
    (stepped : machine.step start label = some next) :
    machine.total amount start (label :: rest) =
      amount start label + machine.total amount next rest := by
  rw [total, stepped, Option.elim_some]

/-- A multiple of an amount. -/
theorem total_mul (factor : Nat) (amount : State → Label → Nat)
    (start : State) (labels : List Label) :
    machine.total (fun state label => factor * amount state label) start
        labels =
      factor * machine.total amount start labels := by
  induction labels generalizing start with
  | nil => rfl
  | cons label rest ih =>
      cases stepped : machine.step start label with
      | none => simp [total, stepped]
      | some next =>
          rw [total_cons stepped, total_cons stepped, ih, Nat.mul_add]

/-- A run that meets a condition meets every weaker one. -/
theorem Guarded.mono {strong weak : State → Label → Prop} {start : State}
    {labels : List Label} (guarded : machine.Guarded strong start labels)
    (weaker : ∀ state label, strong state label → weak state label) :
    machine.Guarded weak start labels := by
  induction labels generalizing start with
  | nil => trivial
  | cons label rest ih =>
      exact ⟨weaker start label guarded.1,
        fun next stepped => ih (guarded.2 next stepped)⟩

section Accounts

variable {guard : State → Label → Prop} {invariant : State → Prop}
  {cost gain : State → Label → Nat} {start state : State}
  {labels : List Label}

/-- A potential that pays for every step pays for the run. -/
theorem Guarded.total_le (potential : State → Nat)
    (guarded : machine.Guarded guard start labels)
    (preserved : ∀ before label after, invariant before →
      guard before label → machine.step before label = some after →
        invariant after)
    (pays : ∀ before label after, invariant before →
      guard before label → machine.step before label = some after →
        cost before label + potential after ≤
          potential before + gain before label)
    (initially : invariant start)
    (ran : machine.run start labels = some state) :
    machine.total cost start labels + potential state ≤
      potential start + machine.total gain start labels := by
  induction labels generalizing start with
  | nil =>
      cases ran
      simp
  | cons label rest ih =>
      rcases run_cons_eq_some.1 ran with ⟨next, stepped, ran⟩
      have kept := preserved start label next initially guarded.1 stepped
      have now := pays start label next initially guarded.1 stepped
      have later := ih (guarded.2 next stepped) kept ran
      rw [total_cons stepped, total_cons stepped]
      omega

/--
What a step spends comes out of one account or is earned in another one, and so
does what a run spends.
-/
theorem total_eq (spent earned : State → Nat)
    (preserved : ∀ before label after, invariant before →
      machine.step before label = some after → invariant after)
    (balances : ∀ before label after, invariant before →
      machine.step before label = some after →
        cost before label + spent after + earned before =
          spent before + earned after + gain before label)
    (initially : invariant start)
    (ran : machine.run start labels = some state) :
    machine.total cost start labels + spent state + earned start =
      spent start + earned state + machine.total gain start labels := by
  induction labels generalizing start with
  | nil =>
      cases ran
      simp
  | cons label rest ih =>
      rcases run_cons_eq_some.1 ran with ⟨next, stepped, ran⟩
      have kept := preserved start label next initially stepped
      have now := balances start label next initially stepped
      have later := ih kept ran
      rw [total_cons stepped, total_cons stepped]
      omega

end Accounts

/--
Where every step of a kind lowers the potential, such steps lead from any state
to one that allows no more of them.
-/
theorem exists_quiescent {kind : State → Label → Prop}
    {invariant : State → Prop} (potential : State → Nat)
    (preserved : ∀ before label after, invariant before →
      kind before label → machine.step before label = some after →
        invariant after)
    (falls : ∀ before label after, invariant before →
      kind before label → machine.step before label = some after →
        potential after < potential before)
    (start : State) (initially : invariant start) :
    ∃ labels state,
      machine.Guarded kind start labels ∧
        machine.run start labels = some state ∧
        invariant state ∧ machine.Quiescent kind state := by
  induction bound : potential start using Nat.strongRecOn
    generalizing start with
  | _ bound ih =>
      by_cases rests : machine.Quiescent kind start
      · exact ⟨[], start, trivial, rfl, initially, rests⟩
      · rcases not_forall.1 rests with ⟨label, enabled⟩
        rcases Classical.not_imp.1 enabled with ⟨own, enabled⟩
        rcases Option.ne_none_iff_exists'.1 enabled with ⟨next, stepped⟩
        have kept := preserved start label next initially own stepped
        have lower := falls start label next initially own stepped
        rcases ih (potential next) (bound ▸ lower) next kept rfl with
          ⟨labels, state, guarded, ran, holds, rests⟩
        refine ⟨label :: labels, state, ⟨own, fun other again => ?_⟩,
          run_cons_eq_some.2 ⟨next, stepped, ran⟩, holds, rests⟩
        rw [stepped, Option.some.injEq] at again
        exact again ▸ guarded

end Machine
