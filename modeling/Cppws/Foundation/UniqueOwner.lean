import Mathlib.Algebra.Order.Group.Multiset
import Cppws.Foundation.HandleTable
import Cppws.Foundation.Potential

/-!
# Owners that cannot be copied

Objects that hold a handle each, or none, and the handles that no object holds
yet.  An object gets a handle from outside or takes it away from another
object, and it closes what it holds before it takes something else and at its
end.  Every handle that is open has one owner then, and what is closed is open.
-/

universe u

/-- What the program does with its objects, which are known by their numbers. -/
inductive OwnerAction (Handle : Type u) where
  /-- A handle is opened that no object holds. -/
  | opens (handle : Handle)
  /-- A new object takes a handle that no object holds. -/
  | adopts (handle : Handle)
  /-- A new object that holds nothing. -/
  | empties
  /-- A new object takes what this one holds. -/
  | moves (source : Nat)
  /-- An object closes what it holds and takes what the other one holds. -/
  | assigns (target source : Nat)
  /-- An object closes what it holds. -/
  | releases (owner : Nat)

structure Owners (Handle : Type u) where
  /-- What each object holds. -/
  slots : List (Option Handle) := []
  loose : List Handle := []
  log : List (HandleUse Handle) := []

namespace Owners

variable {Handle : Type u}

/-- What one object holds. -/
def held (slot : Option Handle) : Multiset Handle :=
  ↑slot.toList

/-- The handles of all objects. -/
def contents (slots : List (Option Handle)) : Multiset Handle :=
  (slots.map held).sum

/-- Everything that is open. -/
def all (owners : Owners Handle) : Multiset Handle :=
  contents owners.slots + ↑owners.loose

/-- An object closes what it holds. -/
def closing (slot : Option Handle) : List (HandleUse Handle) :=
  slot.toList.map .closes

variable [DecidableEq Handle]

def step (owners : Owners Handle) :
    OwnerAction Handle → Option (Owners Handle)
  | .opens handle =>
      if handle ∈ owners.loose ∨ some handle ∈ owners.slots then
        none
      else
        some
          { owners with
            loose := handle :: owners.loose
            log := owners.log ++ [.opens handle] }
  | .adopts handle =>
      if handle ∈ owners.loose then
        some
          { owners with
            slots := owners.slots ++ [some handle]
            loose := owners.loose.erase handle }
      else
        none
  | .empties => some { owners with slots := owners.slots ++ [none] }
  | .moves source =>
      owners.slots[source]?.map fun slot =>
        { owners with slots := owners.slots.set source none ++ [slot] }
  | .assigns target source =>
      owners.slots[target]?.bind fun old =>
        owners.slots[source]?.map fun new =>
          if target = source then
            owners
          else
            { owners with
              slots := (owners.slots.set target new).set source none
              log := owners.log ++ closing old }
  | .releases owner =>
      owners.slots[owner]?.map fun old =>
        { owners with
          slots := owners.slots.set owner none
          log := owners.log ++ closing old }

def machine : Machine (Owners Handle) (OwnerAction Handle) where
  step := step

/-! ## Where the handles are -/

omit [DecidableEq Handle] in
theorem contents_append (first second : List (Option Handle)) :
    contents (first ++ second) = contents first + contents second := by
  rw [contents, List.map_append, List.sum_append]
  rfl

omit [DecidableEq Handle] in
theorem contents_single (slot : Option Handle) : contents [slot] = held slot :=
  add_zero _

omit [DecidableEq Handle] in
theorem contents_set {slots : List (Option Handle)} {index : Nat}
    {slot : Option Handle} (found : slots[index]? = some slot)
    (next : Option Handle) :
    contents (slots.set index next) + held slot =
      contents slots + held next :=
  List.sum_map_set held found next

omit [DecidableEq Handle] in
/-- A slot that is emptied gives away what it held. -/
theorem contents_emptied {slots : List (Option Handle)} {index : Nat}
    {slot : Option Handle} (found : slots[index]? = some slot) :
    contents (slots.set index none) + held slot = contents slots :=
  (contents_set found none).trans (add_zero _)

omit [DecidableEq Handle] in
theorem mem_contents {slots : List (Option Handle)} {handle : Handle} :
    handle ∈ contents slots ↔ some handle ∈ slots := by
  induction slots with
  | nil => simp [contents]
  | cons slot rest ih =>
      have split : contents (slot :: rest) = held slot + contents rest := rfl
      rw [split, Multiset.mem_add, ih, List.mem_cons]
      cases slot <;> simp [held]

/-- A handle that an object holds can be closed. -/
theorem run_closing {rest whole : Multiset Handle} (slot : Option Handle)
    (parts : rest + held slot = whole) :
    HandleUse.table.run whole (closing slot) = some rest := by
  have closes := HandleUse.run_add (HandleUse.run_closes slot) rest
  rw [zero_add] at closes
  rw [← parts, add_comm]
  exact closes

/-! ## One owner for each handle -/

/-- Every handle that is open is in one place, and only those were closed. -/
structure Sound (owners : Owners Handle) : Prop where
  logged : HandleUse.table.run 0 owners.log = some owners.all
  single : owners.all.Nodup

theorem sound_start : ({} : Owners Handle).Sound where
  logged := rfl
  single := Multiset.nodup_zero

/-- A handle goes from one place to another. -/
theorem Sound.same {before after : Owners Handle} (sound : before.Sound)
    (all : after.all = before.all) (log : after.log = before.log) :
    after.Sound where
  logged := by
    rw [log, all]
    exact sound.logged
  single := all ▸ sound.single

/-- An object closes what it holds. -/
theorem Sound.closes {before after : Owners Handle} (sound : before.Sound)
    (slot : Option Handle) (parts : after.all + held slot = before.all)
    (log : after.log = before.log ++ closing slot) : after.Sound where
  logged := by
    rw [log]
    exact HandleUse.run_append sound.logged (run_closing slot parts)
  single := by
    have whole := sound.single
    rw [← parts] at whole
    exact Multiset.nodup_of_le (Multiset.le_add_right _ _) whole

theorem Sound.step {before after : Owners Handle}
    {action : OwnerAction Handle} (sound : before.Sound)
    (stepped : before.step action = some after) : after.Sound := by
  cases action with
  | opens handle =>
      simp only [Owners.step] at stepped
      split_ifs at stepped with known
      cases stepped
      rw [not_or] at known
      have fresh : handle ∉ before.all := by
        rw [all, Multiset.mem_add, mem_contents, Multiset.mem_coe]
        exact not_or.2 ⟨known.2, known.1⟩
      have grown : contents before.slots + ↑(handle :: before.loose) =
          handle ::ₘ before.all := by
        rw [← Multiset.cons_coe, Multiset.add_cons]
        rfl
      refine ⟨?_, ?_⟩
      · refine HandleUse.run_append sound.logged ?_
        exact congrArg some grown.symm
      · show (contents before.slots + ↑(handle :: before.loose)).Nodup
        rw [grown]
        exact Multiset.nodup_cons.2 ⟨fresh, sound.single⟩
  | adopts handle =>
      simp only [Owners.step] at stepped
      split_ifs at stepped with loose
      cases stepped
      refine sound.same ?_ rfl
      show contents (before.slots ++ [some handle]) +
          ↑(before.loose.erase handle) = before.all
      rw [contents_append, contents_single, all, add_assoc,
        Multiset.coe_eq_coe.2 (List.perm_cons_erase loose)]
      rfl
  | empties =>
      cases stepped
      refine sound.same ?_ rfl
      show contents (before.slots ++ [none]) + _ = _
      rw [contents_append, contents_single]
      exact congrArg (· + _) (add_zero _)
  | moves source =>
      rcases Option.map_eq_some_iff.1 stepped with ⟨slot, found, rfl⟩
      refine sound.same ?_ rfl
      show contents (before.slots.set source none ++ [slot]) + _ = _
      rw [contents_append, contents_single, contents_emptied found]
      rfl
  | assigns target source =>
      rcases Option.bind_eq_some_iff.1 stepped with ⟨old, held, stepped⟩
      rcases Option.map_eq_some_iff.1 stepped with ⟨new, found, rfl⟩
      split_ifs with self
      · exact sound
      · refine sound.closes old ?_ rfl
        have still : (before.slots.set target new)[source]? = some new := by
          rw [List.getElem?_set_ne self, found]
        have moved : contents ((before.slots.set target new).set source none) +
            Owners.held old = contents before.slots := by
          apply add_right_cancel (b := Owners.held new)
          rw [add_right_comm, contents_emptied still, contents_set held new]
        show contents _ + _ + Owners.held old = _
        rw [add_right_comm, moved]
        rfl
  | releases owner =>
      rcases Option.map_eq_some_iff.1 stepped with ⟨old, found, rfl⟩
      refine sound.closes old ?_ rfl
      show contents (before.slots.set owner none) + _ + held old = _
      rw [add_right_comm, contents_emptied found]
      rfl

theorem sound_of_run {actions : List (OwnerAction Handle)}
    {owners : Owners Handle} (ran : machine.run {} actions = some owners) :
    owners.Sound :=
  Machine.Reachable.invariant ⟨actions, ran⟩
    (fun _ _ _ sound stepped => Sound.step sound stepped) sound_start

/-- No two objects hold the same handle. -/
theorem Sound.unique {owners : Owners Handle} (sound : owners.Sound)
    {first second : Nat} {handle : Handle}
    (one : owners.slots[first]? = some (some handle))
    (other : owners.slots[second]? = some (some handle)) : first = second := by
  by_contra different
  have still : (owners.slots.set first none)[second]? = some (some handle) := by
    rw [List.getElem?_set_ne different, other]
  have again := mem_contents.2 (List.mem_of_getElem? still)
  have whole := sound.single
  rw [all, ← contents_emptied one, add_assoc] at whole
  have apart := (Multiset.nodup_add.1 whole).2.2
  exact (Multiset.disjoint_left.1 apart) again
    (Multiset.mem_add.2 (Or.inl (Multiset.mem_singleton_self handle)))

/-- What an object holds is not loose. -/
theorem Sound.not_loose {owners : Owners Handle} (sound : owners.Sound)
    {index : Nat} {handle : Handle}
    (holds : owners.slots[index]? = some (some handle)) :
    handle ∉ owners.loose := by
  have apart := (Multiset.nodup_add.1 sound.single).2.2
  exact Multiset.disjoint_left.1 apart
    (mem_contents.2 (List.mem_of_getElem? holds))

/-- As often as a handle was opened it has been closed, unless it is open. -/
theorem Sound.count {owners : Owners Handle} (sound : owners.Sound)
    (handle : Handle) :
    (HandleUse.opened owners.log).count handle =
      (HandleUse.closed owners.log).count handle +
        owners.all.count handle := by
  have balanced := HandleUse.count_run sound.logged handle
  rwa [Multiset.count_zero, Nat.zero_add] at balanced

end Owners
