import Mathlib.Data.List.Chain
import Mathlib.Data.PNat.Defs
import Cppws.Foundation.Machine
import Cppws.Net.Epoll

/-!
# Waiting on several epoll instances

`Epoll::wait` with the array it hands to the kernel, which belongs to the
thread and is as large as that of the largest instance waited on so far.  The
kernel is given the size of this array and not that of the instance, so that a
smaller instance can be given more events than it has room for.
-/

namespace Cppws.Net

def noEvent : EpollEvent where
  events := {}
  fd := 0

/-- An object of `Epoll`; one that has been moved from has no array. -/
structure Epoll where
  /-- `epfd_`, unless it is -1. -/
  epfd : Option Fd := none
  events : List EpollEvent := []
  nReady : Nat := 0
  empty_of_closed : epfd = none → events = [] := by
    exact fun _ => rfl

namespace Epoll

/-- The constructor, for the descriptor that `epoll_create1` returns. -/
def ofMaxEvents (epfd : Fd) (maxEvents : ℕ+) : Epoll where
  epfd := some epfd
  events := List.replicate maxEvents noEvent
  empty_of_closed := by
    intro closed
    cases closed

/-- What `epoll_wait` comes to. -/
inductive Outcome where
  | ready (batch : List EpollEvent)
  /-- `EINTR`. -/
  | interrupted
  | failed

/-- What `wait` does, with the indices at which it writes `events_`. -/
structure Waited where
  epoll : Epoll
  raw : List EpollEvent
  written : List Nat
  /-- The length of the span it returns, unless it throws. -/
  span : Option Nat

/-- `raw_events` is resized unless it is large enough. -/
def grown (epoll : Epoll) (raw : List EpollEvent) : List EpollEvent :=
  raw ++ List.replicate (epoll.events.length - raw.length) noEvent

/-- The loop that translates the first `n` raw events. -/
def translate (raw events : List EpollEvent) (n : Nat) : List EpollEvent :=
  (List.range n).foldl (fun events i => events.set i (raw.getD i noEvent))
    events

theorem length_translate (raw events : List EpollEvent) (n : Nat) :
    (translate raw events n).length = events.length := by
  induction n with
  | zero => rfl
  | succ n ih =>
      rw [translate, List.range_succ, List.foldl_concat, List.length_set]
      exact ih

/--
`wait`.  The kernel returns no more events than there is room for in the array
it is given, and fails for a closed descriptor.
-/
def wait (epoll : Epoll) (raw : List EpollEvent) : Outcome → Option Waited
  | .ready batch =>
      if isOpen : epoll.epfd.isSome then
        if batch.length ≤ (epoll.grown raw).length then
          let filled := batch ++ (epoll.grown raw).drop batch.length
          some
            { epoll :=
                { epoll with
                  events := translate filled epoll.events batch.length
                  nReady := batch.length
                  empty_of_closed := by
                    intro closed
                    rw [closed] at isOpen
                    cases isOpen }
              raw := filled
              written := List.range batch.length
              span := some batch.length }
        else
          none
      else
        none
  | .interrupted =>
      if epoll.epfd.isSome then
        some
          { epoll :=
              { epoll with
                nReady := 0
                empty_of_closed := epoll.empty_of_closed }
            raw := epoll.grown raw
            written := []
            span := some 0 }
      else
        none
  | .failed =>
      some
        { epoll := epoll
          raw := epoll.grown raw
          written := []
          span := none }

/-- The size of `events_`, while the descriptor is open. -/
def room (epoll : Epoll) : Option Nat :=
  epoll.epfd.map fun _ => epoll.events.length

theorem length_grown (epoll : Epoll) (raw : List EpollEvent) :
    (epoll.grown raw).length = max raw.length epoll.events.length := by
  rw [grown, List.length_append, List.length_replicate]
  omega

/-- Whatever is reported, the sizes of the arrays are known. -/
theorem wait_sizes {epoll : Epoll} {raw : List EpollEvent} {outcome : Outcome}
    {waited : Waited} (waits : epoll.wait raw outcome = some waited) :
    waited.epoll.room = epoll.room ∧
      waited.raw.length = max raw.length epoll.events.length := by
  rw [← epoll.length_grown raw]
  cases outcome with
  | ready batch =>
      rw [wait] at waits
      split_ifs at waits with isOpen fits
      cases waits
      constructor
      · simp only [room, length_translate]
      · simp only [List.length_append, List.length_drop]
        omega
  | interrupted =>
      rw [wait] at waits
      split_ifs at waits
      cases waits
      exact ⟨rfl, rfl⟩
  | failed =>
      cases waits
      exact ⟨rfl, rfl⟩

/-- What is written and returned is as long as the batch. -/
theorem wait_writes {epoll : Epoll} {raw : List EpollEvent} {outcome : Outcome}
    {waited : Waited} (waits : epoll.wait raw outcome = some waited) :
    (waited.written = [] ∧ ∀ length ∈ waited.span, length = 0) ∨
      ∃ n ≤ max raw.length epoll.events.length,
        waited.written = List.range n ∧ waited.span = some n := by
  rw [← epoll.length_grown raw]
  cases outcome with
  | ready batch =>
      rw [wait] at waits
      split_ifs at waits with isOpen fits
      cases waits
      exact Or.inr ⟨_, fits, rfl, rfl⟩
  | interrupted =>
      rw [wait] at waits
      split_ifs at waits
      cases waits
      exact Or.inl ⟨rfl, fun length returned =>
        (Option.some.inj returned).symm⟩
  | failed =>
      cases waits
      exact Or.inl ⟨rfl, fun length returned => by cases returned⟩

theorem wait_of_closed {epoll : Epoll} {raw : List EpollEvent}
    {outcome : Outcome} {waited : Waited} (closed : epoll.epfd = none)
    (waits : epoll.wait raw outcome = some waited) :
    waited.written = [] ∧ waited.span = none := by
  cases outcome with
  | ready batch | interrupted => simp [wait, closed] at waits
  | failed =>
      cases waits
      exact ⟨rfl, rfl⟩

/-- The kernel can fill the whole array. -/
theorem wait_full {epoll : Epoll} (isOpen : epoll.epfd.isSome)
    (raw : List EpollEvent) :
    ∃ waited, epoll.wait raw (.ready (epoll.grown raw)) = some waited ∧
      waited.span = some (max raw.length epoll.events.length) := by
  rw [wait, dif_pos isOpen, if_pos (Nat.le_refl _), ← epoll.length_grown raw]
  exact ⟨_, rfl, rfl⟩

end Epoll

/-- The objects of a thread, before any of them is constructed or moved to. -/
structure EpollThread where
  raw : List EpollEvent := []
  epolls : Nat → Epoll := fun _ => {}

namespace EpollThread

inductive Action where
  | construct (object : Nat) (epfd : Fd) (maxEvents : ℕ+)
  /-- Move construction or assignment. -/
  | move (source target : Nat)
  | wait (object : Nat) (outcome : Epoll.Outcome)

def step (thread : EpollThread) : Action → Option EpollThread
  | .construct object epfd maxEvents =>
      some
        { thread with
          epolls :=
            Function.update thread.epolls object
              (.ofMaxEvents epfd maxEvents) }
  | .move source target =>
      some
        { thread with
          epolls :=
            if source = target then
              thread.epolls
            else
              Function.update
                (Function.update thread.epolls target (thread.epolls source))
                source {} }
  | .wait object outcome =>
      ((thread.epolls object).wait thread.raw outcome).map fun waited =>
        { raw := waited.raw
          epolls := Function.update thread.epolls object waited.epoll }

def machine : Machine EpollThread Action where
  step := step

/-- A call of `wait` writes and returns elements of `events_` only. -/
def WaitsWithin (thread : EpollThread) : Action → Prop
  | .wait object outcome =>
      ∀ waited,
        (thread.epolls object).wait thread.raw outcome = some waited →
          (∀ index ∈ waited.written,
            index < (thread.epolls object).events.length) ∧
          ∀ length ∈ waited.span,
            length ≤ (thread.epolls object).events.length
  | _ => True

/-- What a program does with its objects, whatever the kernel reports. -/
inductive Use where
  | construct (object : Nat) (epfd : Fd) (maxEvents : ℕ+)
  | move (source target : Nat)
  | wait (object : Nat)

def Action.use : Action → Use
  | .construct object epfd maxEvents => .construct object epfd maxEvents
  | .move source target => .move source target
  | .wait object _ => .wait object

/-- The sizes of `events_` of the objects waited on, in the order of the calls.
Calls on objects that have been moved from are left out. -/
def sizesWaitedOn (room : Nat → Option Nat) : List Use → List Nat
  | [] => []
  | .construct object _ maxEvents :: rest =>
      sizesWaitedOn (Function.update room object (some maxEvents)) rest
  | .move source target :: rest =>
      sizesWaitedOn
        (if source = target then
          room
        else
          Function.update (Function.update room target (room source))
            source none)
        rest
  | .wait object :: rest =>
      (room object).toList ++ sizesWaitedOn room rest

/-- The sizes of `events_` of the objects there are. -/
def room (thread : EpollThread) (object : Nat) : Option Nat :=
  (thread.epolls object).room

/-- All calls of `wait` stay within `events_`, whatever the kernel reports. -/
def Safe (thread : EpollThread) (schedule : List Use) : Prop :=
  ∀ actions, actions.map Action.use = schedule →
    machine.Guarded WaitsWithin thread actions

/-- Every schedule is carried out somehow, if only by calls that fail. -/
theorem use_surjective : Function.Surjective Action.use := by
  intro use
  cases use with
  | construct object epfd maxEvents =>
      exact ⟨.construct object epfd maxEvents, rfl⟩
  | move source target => exact ⟨.move source target, rfl⟩
  | wait object => exact ⟨.wait object .failed, rfl⟩

theorem safe_cons_iff {thread : EpollThread} {use : Use} {rest : List Use} :
    thread.Safe (use :: rest) ↔
      ∀ action, action.use = use →
        thread.WaitsWithin action ∧
          ∀ next, thread.step action = some next → next.Safe rest := by
  constructor
  · rintro safe action rfl
    constructor
    · rcases List.map_surjective_iff.2 use_surjective rest with
        ⟨others, rfl⟩
      exact (safe (action :: others) List.map_cons).1
    · rintro next stepped others rfl
      exact (safe (action :: others) List.map_cons).2 next stepped
  · intro safe actions same
    rcases List.map_eq_cons_iff.1 same with ⟨action, others, rfl, used, rfl⟩
    have first := safe action used
    exact ⟨first.1, fun next stepped => first.2 next stepped others rfl⟩

/-- The kernel has no part in a step but a call of `wait`. -/
theorem safe_cons_of_determined {thread next : EpollThread} {use : Use}
    {rest : List Use} {action : Action}
    (only : ∀ other : Action, other.use = use ↔ other = action)
    (within : thread.WaitsWithin action)
    (stepped : thread.step action = some next) :
    thread.Safe (use :: rest) ↔ next.Safe rest := by
  rw [safe_cons_iff]
  constructor
  · intro safe
    exact (safe action ((only action).2 rfl)).2 next stepped
  · intro safe other used
    rw [(only other).1 used]
    refine ⟨within, fun after again => ?_⟩
    rw [stepped, Option.some.injEq] at again
    exact again ▸ safe

theorem room_construct {thread next : EpollThread} {object : Nat} {epfd : Fd}
    {maxEvents : ℕ+}
    (stepped : thread.step (.construct object epfd maxEvents) = some next) :
    next.raw = thread.raw ∧
      next.room = Function.update thread.room object (some maxEvents) := by
  cases stepped
  refine ⟨rfl, ?_⟩
  ext1 other
  by_cases same : other = object
  · subst same
    simp [room, Epoll.room, Epoll.ofMaxEvents]
  · simp [room, same]

theorem room_move {thread next : EpollThread} {source target : Nat}
    (stepped : thread.step (.move source target) = some next) :
    next.raw = thread.raw ∧
      next.room =
        if source = target then thread.room
        else
          Function.update
            (Function.update thread.room target (thread.room source))
            source none := by
  cases stepped
  refine ⟨rfl, ?_⟩
  split_ifs with self
  · rfl
  ext1 other
  by_cases isSource : other = source
  · subst isSource
    simp [room, Epoll.room]
  · by_cases isTarget : other = target
    · subst isTarget
      simp [room, isSource]
    · simp [room, isSource, isTarget]

theorem room_wait {thread next : EpollThread} {object : Nat}
    {outcome : Epoll.Outcome}
    (stepped : thread.step (.wait object outcome) = some next) :
    next.raw.length =
        max thread.raw.length (thread.epolls object).events.length ∧
      next.room = thread.room := by
  rcases Option.map_eq_some_iff.1 stepped with ⟨waited, waits, rfl⟩
  rcases Epoll.wait_sizes waits with ⟨sameRoom, length⟩
  refine ⟨length, ?_⟩
  ext1 other
  by_cases same : other = object
  · subst same
    simpa [room] using sameRoom
  · simp [room, same]

/-- The calls on an object that has been moved from write nothing. -/
theorem waitsWithin_of_closed {thread : EpollThread} {object : Nat}
    (closed : thread.room object = none) (outcome : Epoll.Outcome) :
    thread.WaitsWithin (.wait object outcome) := by
  intro waited waits
  rcases Epoll.wait_of_closed (Option.map_eq_none_iff.1 closed) waits with
    ⟨written, span⟩
  rw [written, span]
  constructor
  · intro index member
    cases member
  · intro length returned
    cases returned

theorem waitsWithin_of_le {thread : EpollThread} {object : Nat}
    (largest : thread.raw.length ≤ (thread.epolls object).events.length)
    (outcome : Epoll.Outcome) : thread.WaitsWithin (.wait object outcome) := by
  intro waited waits
  rcases Epoll.wait_writes waits with
    ⟨written, span⟩ | ⟨n, atMost, written, span⟩
  · rw [written]
    constructor
    · intro index member
      cases member
    · intro length returned
      rw [span length returned]
      exact Nat.zero_le _
  · rw [Nat.max_eq_right largest] at atMost
    rw [written, span]
    constructor
    · intro index member
      exact Nat.lt_of_lt_of_le (List.mem_range.1 member) atMost
    · intro length returned
      cases returned
      exact atMost

theorem le_of_waitsWithin {thread : EpollThread} {object : Nat} {size : Nat}
    (isOpen : thread.room object = some size)
    (within : ∀ outcome, thread.WaitsWithin (.wait object outcome)) :
    thread.raw.length ≤ size := by
  rcases Option.map_eq_some_iff.1 isOpen with ⟨epfd, opened, rfl⟩
  rcases Epoll.wait_full (Option.isSome_of_eq_some opened) thread.raw with
    ⟨waited, waits, span⟩
  have atMost := (within _ waited waits).2 _ span
  exact (le_max_left _ _).trans atMost

/-- A call of `wait` is safe, and so is what follows it in any case. -/
theorem safe_wait_iff {thread : EpollThread} {object : Nat} {rest : List Use} :
    thread.Safe (.wait object :: rest) ↔
      (∀ outcome, thread.WaitsWithin (.wait object outcome)) ∧
        ∀ outcome next, thread.step (.wait object outcome) = some next →
          next.Safe rest := by
  rw [safe_cons_iff]
  constructor
  · intro safe
    exact ⟨fun outcome => (safe (.wait object outcome) rfl).1,
      fun outcome => (safe (.wait object outcome) rfl).2⟩
  · rintro ⟨within, later⟩ action used
    cases action with
    | construct other epfd maxEvents | move source target => cases used
    | wait other outcome =>
        cases used
        exact ⟨within outcome, later outcome⟩

/-- One call of `wait`, if it is known when what follows it is safe. -/
theorem safe_wait_iff_isChain {thread : EpollThread} {object : Nat}
    {rest : List Use}
    (later : ∀ outcome next,
      thread.step (.wait object outcome) = some next →
      (next.Safe rest ↔
        (max thread.raw.length (thread.epolls object).events.length ::
          sizesWaitedOn thread.room rest).IsChain (· ≤ ·))) :
    thread.Safe (.wait object :: rest) ↔
      (thread.raw.length ::
        sizesWaitedOn thread.room (.wait object :: rest)).IsChain
          (· ≤ ·) := by
  have fails : ∃ next, thread.step (.wait object .failed) = some next :=
    ⟨_, rfl⟩
  rcases fails with ⟨failed, stepped⟩
  rw [safe_wait_iff, sizesWaitedOn]
  cases isOpen : thread.room object with
  | none =>
      have noEvents := (thread.epolls object).empty_of_closed
        (Option.map_eq_none_iff.1 isOpen)
      rw [noEvents, List.length_nil, Nat.max_zero] at later
      constructor
      · intro safe
        exact (later _ _ stepped).1 (safe.2 _ _ stepped)
      · intro chain
        exact ⟨waitsWithin_of_closed isOpen,
          fun outcome next again => (later _ _ again).2 chain⟩
  | some size =>
      have length : (thread.epolls object).events.length = size := by
        rcases Option.map_eq_some_iff.1 isOpen with ⟨-, -, length⟩
        exact length
      rw [Option.toList_some, List.singleton_append, List.isChain_cons_cons]
      constructor
      · intro safe
        have largest := le_of_waitsWithin isOpen safe.1
        have chain := (later _ _ stepped).1 (safe.2 _ _ stepped)
        rw [length, Nat.max_eq_right largest] at chain
        exact ⟨largest, chain⟩
      · rintro ⟨largest, chain⟩
        rw [length, Nat.max_eq_right largest] at later
        exact ⟨waitsWithin_of_le (length.symm ▸ largest),
          fun outcome next again => (later _ _ again).2 chain⟩

/--
Whatever the kernel reports, all calls stay within `events_` exactly if the
array of the thread is never larger than `events_`.
-/
theorem safe_iff (schedule : List Use) (thread : EpollThread) :
    thread.Safe schedule ↔
      (thread.raw.length :: sizesWaitedOn thread.room schedule).IsChain
        (· ≤ ·) := by
  induction schedule generalizing thread with
  | nil =>
      refine iff_of_true ?_ (List.IsChain.singleton _)
      intro actions same
      rw [List.map_eq_nil_iff] at same
      rw [same]
      trivial
  | cons use rest ih =>
      cases use with
      | construct object epfd maxEvents =>
          have only : ∀ other : Action,
              other.use = .construct object epfd maxEvents ↔
                other = .construct object epfd maxEvents := by
            intro other
            cases other <;> simp [Action.use]
          have steps : ∃ next,
              thread.step (.construct object epfd maxEvents) = some next :=
            ⟨_, rfl⟩
          rcases steps with ⟨next, stepped⟩
          rcases room_construct stepped with ⟨raw, room⟩
          rw [safe_cons_of_determined only trivial stepped, ih, raw, room]
          rfl
      | move source target =>
          have only : ∀ other : Action,
              other.use = .move source target ↔
                other = .move source target := by
            intro other
            cases other <;> simp [Action.use]
          have steps : ∃ next,
              thread.step (.move source target) = some next := ⟨_, rfl⟩
          rcases steps with ⟨next, stepped⟩
          rcases room_move stepped with ⟨raw, room⟩
          rw [safe_cons_of_determined only trivial stepped, ih, raw, room]
          rfl
      | wait object =>
          apply safe_wait_iff_isChain
          intro outcome next stepped
          rcases room_wait stepped with ⟨raw, room⟩
          rw [ih, raw, room]

/--
On a thread that has not waited yet all calls of `wait` stay within `events_`,
whatever the kernel reports, exactly if the objects waited on do not get
smaller from one call to the next.
-/
theorem waits_within_iff (schedule : List Use) :
    (∀ actions, actions.map Action.use = schedule →
        machine.Guarded WaitsWithin {} actions) ↔
      (sizesWaitedOn (fun _ => none) schedule).IsChain (· ≤ ·) := by
  have start := safe_iff schedule {}
  rw [show room {} = fun _ => none from rfl] at start
  refine start.trans ?_
  cases sizesWaitedOn (fun _ => none) schedule with
  | nil => simp
  | cons size sizes =>
      rw [List.isChain_cons_cons]
      exact and_iff_right (Nat.zero_le size)

/--
The first object is waited on in vain, and then the second one, which has room
for one event, is given two.
-/
theorem written_beyond :
    ¬ machine.Guarded WaitsWithin {}
      [ .construct 0 3 2,
        .construct 1 4 1,
        .wait 0 (.ready []),
        .wait 1 (.ready [⟨{ input := true }, 6⟩,
          ⟨{ input := true }, 7⟩]) ] := by
  intro guarded
  have last := ((guarded.2 _ rfl).2 _ rfl).2 _ rfl
  have within := last.1 _ rfl
  exact absurd (within.1 1 (by decide)) (by decide)

end EpollThread

end Cppws.Net
