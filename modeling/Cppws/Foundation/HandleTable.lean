import Cppws.Foundation.Machine
import Mathlib.Data.List.Range
import Mathlib.Data.Multiset.AddSub
import Mathlib.Logic.Function.Basic

/-!
# Handles that are opened, used and closed

The handles that some program holds, as a multiset: a handle with two owners
counts twice.  The table accepts the use and the closing of handles that are
held only, and it does not mind the handles of others.  A handle that is opened
once is closed at most once, and not used after that.
-/

universe u v

/-- What is done with a handle. -/
inductive HandleUse (Handle : Type u) where
  | opens (handle : Handle)
  | uses (handle : Handle)
  | closes (handle : Handle)
deriving DecidableEq

namespace HandleUse

variable {Handle : Type u}

def opened? : HandleUse Handle → Option Handle
  | .opens handle => some handle
  | _ => none

def closed? : HandleUse Handle → Option Handle
  | .closes handle => some handle
  | _ => none

/-- The handles that were opened. -/
def opened (log : List (HandleUse Handle)) : List Handle :=
  log.filterMap opened?

/-- The handles that were closed. -/
def closed (log : List (HandleUse Handle)) : List Handle :=
  log.filterMap closed?

theorem opened_append (first second : List (HandleUse Handle)) :
    opened (first ++ second) = opened first ++ opened second :=
  List.filterMap_append

theorem opened_opens (handle : Option Handle) :
    opened (handle.toList.map .opens) = handle.toList := by
  cases handle <;> rfl

variable [DecidableEq Handle]

/-- The handles that are held. -/
def table : Machine (Multiset Handle) (HandleUse Handle) where
  step held
    | .opens handle => some (handle ::ₘ held)
    | .uses handle => if handle ∈ held then some held else none
    | .closes handle =>
        if handle ∈ held then some (held.erase handle) else none

/-! ## Runs of the table -/

/-- The handles of others do not matter. -/
theorem step_add {held after : Multiset Handle} {use : HandleUse Handle}
    (stepped : table.step held use = some after) (others : Multiset Handle) :
    table.step (held + others) use = some (after + others) := by
  cases use with
  | opens handle =>
      cases stepped
      exact congrArg some (Multiset.cons_add handle held others).symm
  | uses handle =>
      simp only [table] at stepped ⊢
      split_ifs at stepped with member
      cases stepped
      rw [if_pos (Multiset.mem_add.2 (Or.inl member))]
  | closes handle =>
      simp only [table] at stepped ⊢
      split_ifs at stepped with member
      cases stepped
      rw [if_pos (Multiset.mem_add.2 (Or.inl member)),
        Multiset.erase_add_left_pos others member]

theorem run_add {held after : Multiset Handle} {log : List (HandleUse Handle)}
    (ran : table.run held log = some after) (others : Multiset Handle) :
    table.run (held + others) log = some (after + others) := by
  induction log generalizing held with
  | nil =>
      cases ran
      rfl
  | cons use rest ih =>
      rcases Machine.run_cons_eq_some.1 ran with ⟨next, stepped, ran⟩
      exact Machine.run_cons_eq_some.2
        ⟨next + others, step_add stepped others, ih ran⟩

theorem run_append {held middle after : Multiset Handle}
    {first second : List (HandleUse Handle)}
    (before : table.run held first = some middle)
    (later : table.run middle second = some after) :
    table.run held (first ++ second) = some after := by
  rw [Machine.run_append, before]
  exact later

theorem run_opens (held : Multiset Handle) (handle : Option Handle) :
    table.run held (handle.toList.map .opens) =
      some (↑handle.toList + held) := by
  cases handle with
  | none => exact congrArg some (Multiset.zero_add held).symm
  | some handle => exact congrArg some (Multiset.singleton_add handle held).symm

/-- The only handle is closed. -/
theorem run_closes (handle : Option Handle) :
    table.run (handle.toList : Multiset Handle) (handle.toList.map .closes) =
      some 0 := by
  cases handle with
  | none => rfl
  | some handle =>
      refine Machine.run_cons_eq_some.2 ⟨0, ?_, rfl⟩
      simp [table]

/-- Every handle that was opened is held or has been closed. -/
theorem count_run {held after : Multiset Handle}
    {log : List (HandleUse Handle)} (ran : table.run held log = some after)
    (handle : Handle) :
    held.count handle + (opened log).count handle =
      (closed log).count handle + after.count handle := by
  induction log generalizing held with
  | nil =>
      cases ran
      exact Nat.add_comm _ _
  | cons use rest ih =>
      rcases Machine.run_cons_eq_some.1 ran with ⟨next, stepped, ran⟩
      have balanced := ih ran
      cases use with
      | opens other =>
          cases stepped
          rw [Multiset.count_cons] at balanced
          show _ + (other :: opened rest).count handle =
            (closed rest).count handle + _
          rw [← balanced, List.count_cons]
          by_cases same : other = handle
          · simp only [same, beq_self_eq_true, if_true]
            omega
          · simp only [beq_iff_eq, same, Ne.symm same, if_false]
            omega
      | uses other =>
          simp only [table] at stepped
          split_ifs at stepped
          cases stepped
          exact balanced
      | closes other =>
          simp only [table] at stepped
          split_ifs at stepped with member
          cases stepped
          show _ + (opened rest).count handle =
            (other :: closed rest).count handle + _
          rw [List.count_cons]
          by_cases same : other = handle
          · subst same
            have positive : 0 < held.count other :=
              Multiset.count_pos.2 member
            rw [Multiset.count_erase_self] at balanced
            simp only [beq_self_eq_true, if_true]
            omega
          · rw [Multiset.count_erase_of_ne (Ne.symm same)] at balanced
            simp only [beq_iff_eq, same, if_false]
            exact balanced

theorem step_unheld {held next : Multiset Handle} {use : HandleUse Handle}
    {handle : Handle} (stepped : table.step held use = some next)
    (unheld : handle ∉ held) (unopened : use ≠ .opens handle) :
    handle ∉ next ∧ use ≠ .uses handle ∧ use ≠ .closes handle := by
  cases use with
  | opens other =>
      cases stepped
      refine ⟨?_, (fun same => by cases same), fun same => by cases same⟩
      rw [Multiset.mem_cons]
      rintro (rfl | held)
      · exact unopened rfl
      · exact unheld held
  | uses other =>
      simp only [table] at stepped
      split_ifs at stepped with member
      cases stepped
      refine ⟨unheld, ?_, fun same => by cases same⟩
      rintro ⟨⟩
      exact unheld member
  | closes other =>
      simp only [table] at stepped
      split_ifs at stepped with member
      cases stepped
      refine ⟨fun still => unheld (Multiset.mem_of_mem_erase still),
        (fun same => by cases same), ?_⟩
      rintro ⟨⟩
      exact unheld member

/-- A handle that is not held and not opened is left alone. -/
theorem unused_of_not_held {held after : Multiset Handle}
    {log : List (HandleUse Handle)} {handle : Handle}
    (ran : table.run held log = some after) (unheld : handle ∉ held)
    (unopened : .opens handle ∉ log) :
    .uses handle ∉ log ∧ .closes handle ∉ log := by
  induction log generalizing held with
  | nil => exact ⟨List.not_mem_nil, List.not_mem_nil⟩
  | cons use rest ih =>
      rcases Machine.run_cons_eq_some.1 ran with ⟨next, stepped, ran⟩
      rw [List.mem_cons, not_or] at unopened
      rcases step_unheld stepped unheld (Ne.symm unopened.1) with
        ⟨still, unused, unclosed⟩
      rcases ih ran still unopened.2 with ⟨later, after⟩
      simp only [List.mem_cons, not_or]
      exact ⟨⟨Ne.symm unused, later⟩, Ne.symm unclosed, after⟩

/-- What is opened once is closed once, and left alone after that. -/
theorem closed_for_good {after : Multiset Handle} {handle : Handle}
    {before later : List (HandleUse Handle)}
    (ran : table.run 0 (before ++ .closes handle :: later) = some after)
    (once : (opened (before ++ .closes handle :: later)).count handle ≤ 1) :
    .closes handle ∉ before ∧ .uses handle ∉ later ∧
      .closes handle ∉ later := by
  rw [Machine.run_append] at ran
  rcases Option.bind_eq_some_iff.1 ran with ⟨held, first, ran⟩
  rcases Machine.run_cons_eq_some.1 ran with ⟨next, stepped, second⟩
  have balanced := count_run first handle
  rw [opened_append, List.count_append] at once
  have kept : opened (.closes handle :: later) = opened later := rfl
  rw [kept] at once
  simp only [table] at stepped
  split_ifs at stepped with member
  cases stepped
  have positive : 0 < held.count handle := Multiset.count_pos.2 member
  rw [Multiset.count_zero] at balanced
  have unclosed : (closed before).count handle = 0 := by
    omega
  have unheld : handle ∉ held.erase handle := by
    rw [← Multiset.count_eq_zero, Multiset.count_erase_self]
    omega
  have unopened : .opens handle ∉ later := by
    intro member
    have reopened : 0 < (opened later).count handle :=
      List.count_pos_iff.2 (List.mem_filterMap.2 ⟨_, member, rfl⟩)
    omega
  refine ⟨?_, unused_of_not_held second unheld unopened⟩
  intro member
  exact List.count_eq_zero.1 unclosed
    (List.mem_filterMap.2 ⟨_, member, rfl⟩)

end HandleUse

/-! ## Slots that hold a handle each -/

section Slots

variable {Slot : Type u} {Handle : Type v}

/-- A slot's own handle, and those of the other slots. -/
theorem filterMap_update {holds : Nat → Option Handle} {size id : Nat}
    (bounded : id < size) (handle : Option Handle) :
    (((List.range size).filterMap (Function.update holds id handle) :
      List Handle) : Multiset Handle) =
      ↑handle.toList +
        ↑((List.range size).filterMap (Function.update holds id none)) := by
  have split := List.perm_cons_erase (List.mem_range.2 bounded)
  have fresh : ∀ other ∈ (List.range size).erase id, other ≠ id :=
    fun other member same =>
      (List.nodup_range.mem_erase_iff.1 member).1 same
  have others : ∀ value : Option Handle,
      ((List.range size).erase id).filterMap (Function.update holds id value) =
        ((List.range size).erase id).filterMap holds := by
    intro value
    refine List.filterMap_congr fun other member => ?_
    exact Function.update_of_ne (fresh other member) _ _
  have parts : ∀ value : Option Handle,
      (((List.range size).filterMap (Function.update holds id value) :
        List Handle) : Multiset Handle) =
        ↑value.toList + ↑(((List.range size).erase id).filterMap
          holds) := by
    intro value
    rw [Multiset.coe_eq_coe.2 (split.filterMap _), List.filterMap_cons,
      Function.update_self, others]
    cases value <;> rfl
  rw [parts handle, parts none]
  exact congrArg _ (Multiset.zero_add _).symm

variable [DecidableEq Handle]

/-- No slot holds a handle that does not occur. -/
theorem slot_ne_of_count_eq_zero {slots : List Slot}
    {holds : Slot → Option Handle}
    {handle : Handle} (absent : (slots.filterMap holds).count handle = 0)
    (index : Nat) : slots[index]?.bind holds ≠ some handle := by
  intro found
  rcases Option.bind_eq_some_iff.1 found with ⟨slot, read, held⟩
  exact List.count_eq_zero.1 absent
    (List.mem_filterMap.2 ⟨slot, List.mem_of_getElem? read, held⟩)

/-- One slot holds a handle that occurs once. -/
theorem existsUnique_slot {slots : List Slot} {holds : Slot → Option Handle}
    {handle : Handle} (once : (slots.filterMap holds).count handle = 1) :
    ∃! index : Nat, slots[index]?.bind holds = some handle := by
  induction slots with
  | nil => cases once
  | cons slot rest ih =>
      by_cases held : holds slot = some handle
      · rw [List.filterMap_cons_some held, List.count_cons_self] at once
        have absent : ∀ index : Nat,
            rest[index]?.bind holds ≠ some handle :=
          slot_ne_of_count_eq_zero (Nat.succ.inj once)
        refine ⟨0, held, fun (index : Nat) found => ?_⟩
        cases index with
        | zero => rfl
        | succ index => exact absurd found (absent index)
      · have later : (rest.filterMap holds).count handle = 1 := by
          cases other : holds slot with
          | none => rwa [List.filterMap_cons_none other] at once
          | some first =>
              have different : first ≠ handle := by
                rintro rfl
                exact held other
              rwa [List.filterMap_cons_some other,
                List.count_cons_of_ne different] at once
        rcases ih later with ⟨index, found, unique⟩
        refine ⟨index + 1, found, fun (other : Nat) read => ?_⟩
        cases other with
        | zero => exact absurd read held
        | succ other => exact congrArg (· + 1) (unique other read)

end Slots
