import Mathlib.Logic.Function.Basic
import Cppws.Net.Flush

/-!
# Descriptors and the epoll instance

What the kernel knows of the server: which socket a descriptor number refers
to, and for which events it is registered with the epoll instance.  A number is
free again as soon as it is closed, and closing it also takes it out of the
epoll instance.  `Epoll` of `net/epoll.hpp` is the wrapper over this; where it
throws, the operation is `none`.  Descriptors of files are left out.
-/

namespace Cppws.Net

/-- The bits of an event mask. -/
structure Events where
  input : Bool := false
  output : Bool := false
  rdhup : Bool := false
  hup : Bool := false
  err : Bool := false
  edgeTriggered : Bool := false
deriving DecidableEq

structure EpollEvent where
  events : Events
  fd : Fd
deriving DecidableEq

namespace EpollEvent

def isReadable (event : EpollEvent) : Bool :=
  event.events.input

def isWritable (event : EpollEvent) : Bool :=
  event.events.output

def isHangup (event : EpollEvent) : Bool :=
  event.events.hup || event.events.rdhup

def isError (event : EpollEvent) : Bool :=
  event.events.err

def isClosed (event : EpollEvent) : Bool :=
  event.isHangup || event.isError

end EpollEvent

structure Kernel where
  /-- The socket that an open descriptor refers to. -/
  descriptor : Fd → Option Nat
  /-- The mask that a descriptor is registered with. -/
  interest : Fd → Option Events
  /-- How many sockets have been opened. -/
  opened : Nat
  registeredOpen : ∀ fd, (interest fd).isSome → (descriptor fd).isSome

namespace Kernel

/-- The listening socket and the wakeup descriptor, both registered. -/
def listening (listenFd wakeupFd : Fd) (events : Events) : Kernel where
  descriptor :=
    Function.update (Function.update (fun _ => none) listenFd (some 0))
      wakeupFd (some 1)
  interest := fun fd =>
    if fd = listenFd ∨ fd = wakeupFd then some events else none
  opened := 2
  registeredOpen := by
    intro fd registered
    by_cases wakeup : fd = wakeupFd
    · rw [wakeup, Function.update_self]
      rfl
    · have listen : fd = listenFd := by
        by_contra other
        simp [wakeup, other] at registered
      rw [Function.update_of_ne wakeup, listen, Function.update_self]
      rfl

/--
`epoll_wait` can report a batch: every event once, for a registered descriptor,
with bits of its mask; `EPOLLHUP` and `EPOLLERR` need not be asked for.
-/
def Reports (kernel : Kernel) (batch : List EpollEvent) : Prop :=
  (batch.map EpollEvent.fd).Nodup ∧
    ∀ event ∈ batch, ∃ mask ∈ kernel.interest event.fd,
      event.events.input ≤ mask.input ∧
        event.events.output ≤ mask.output ∧
        event.events.rdhup ≤ mask.rdhup

instance (kernel : Kernel) (batch : List EpollEvent) :
    Decidable (kernel.Reports batch) :=
  inferInstanceAs (Decidable (_ ∧ ∀ event ∈ batch, ∃ mask ∈ _, _))

/-- A socket is opened on a free number. -/
def openSocket (kernel : Kernel) (fd : Fd) : Option Kernel :=
  if kernel.descriptor fd = none then
    some
      { kernel with
        descriptor := Function.update kernel.descriptor fd kernel.opened
        opened := kernel.opened + 1
        registeredOpen := by
          intro other registered
          by_cases same : other = fd
          · rw [same, Function.update_self]
            rfl
          · rw [Function.update_of_ne same]
            exact kernel.registeredOpen other registered }
  else
    none

/-- `::close`. -/
def close (kernel : Kernel) (fd : Fd) : Kernel :=
  { kernel with
    descriptor := Function.update kernel.descriptor fd none
    interest := Function.update kernel.interest fd none
    registeredOpen := by
      intro other registered
      by_cases same : other = fd
      · rw [same, Function.update_self] at registered
        cases registered
      · rw [Function.update_of_ne same] at registered ⊢
        exact kernel.registeredOpen other registered }

/-- Replace the mask of an open descriptor. -/
def register (kernel : Kernel) (fd : Fd) (events : Events)
    (isOpen : (kernel.descriptor fd).isSome) : Kernel :=
  { kernel with
    interest := Function.update kernel.interest fd (some events)
    registeredOpen := by
      intro other registered
      by_cases same : other = fd
      · rw [same]
        exact isOpen
      · rw [Function.update_of_ne same] at registered
        exact kernel.registeredOpen other registered }

/-- `Epoll::add`. -/
def add (kernel : Kernel) (fd : Fd) (events : Events) : Option Kernel :=
  if isOpen : (kernel.descriptor fd).isSome then
    if kernel.interest fd = none then
      some (kernel.register fd events isOpen)
    else
      none
  else
    none

/-- `Epoll::modify`. -/
def modify (kernel : Kernel) (fd : Fd) (events : Events) : Option Kernel :=
  if registered : (kernel.interest fd).isSome then
    some (kernel.register fd events (kernel.registeredOpen fd registered))
  else
    none

/-- `Epoll::remove`, which ignores a failure. -/
def remove (kernel : Kernel) (fd : Fd) : Kernel :=
  { kernel with
    interest := Function.update kernel.interest fd none
    registeredOpen := by
      intro other registered
      by_cases same : other = fd
      · rw [same, Function.update_self] at registered
        cases registered
      · rw [Function.update_of_ne same] at registered
        exact kernel.registeredOpen other registered }

/-- `Epoll::remove` for every descriptor of a set. -/
def removeAll (kernel : Kernel) (dead : Fd → Bool) : Kernel :=
  { kernel with
    interest := fun fd => if dead fd then none else kernel.interest fd
    registeredOpen := by
      intro fd registered
      split at registered
      · cases registered
      · exact kernel.registeredOpen fd registered }

/-- What a call of a connection does; `on_close_` is `epoll_.remove`. -/
def apply (kernel : Kernel) : Call → Kernel
  | .closeCallback (some fd) => kernel.remove fd
  | .close fd => kernel.close fd
  | _ => kernel

def applyAll (kernel : Kernel) (calls : List Call) : Kernel :=
  calls.foldl apply kernel

/-! ## What the operations do to a descriptor -/

theorem applyAll_control (kernel : Kernel) (calls : List Call) :
    kernel.applyAll (control calls) = kernel.applyAll calls := by
  induction calls generalizing kernel with
  | nil => rfl
  | cons call calls ih =>
      cases call with
      | closeCallback socket => exact ih _
      | close fd => exact ih _
      | send bytes => exact ih _
      | sendfile bytes => exact ih _
      | closeFile handle => exact ih _

theorem applyAll_quiet (kernel : Kernel) {calls : List Call}
    (quiet : control calls = []) : kernel.applyAll calls = kernel := by
  rw [← applyAll_control, quiet]
  rfl

theorem interest_of_modify {kernel after : Kernel} {fd : Fd} {events : Events}
    (modified : kernel.modify fd events = some after) :
    after.descriptor = kernel.descriptor ∧ after.opened = kernel.opened ∧
      ∀ other, (after.interest other).isSome =
        (kernel.interest other).isSome := by
  unfold modify at modified
  split_ifs at modified with registered
  cases modified
  refine ⟨rfl, rfl, ?_⟩
  intro other
  show (Function.update kernel.interest fd (some events) other).isSome = _
  by_cases same : other = fd
  · rw [same, Function.update_self, registered]
    rfl
  · rw [Function.update_of_ne same]

theorem modify_eq_none_iff {kernel : Kernel} {fd : Fd} {events : Events} :
    kernel.modify fd events = none ↔ kernel.interest fd = none := by
  unfold modify
  split_ifs with registered
  · rw [← Option.not_isSome_iff_eq_none]
    simp [registered]
  · simpa using registered

end Kernel

end Cppws.Net
