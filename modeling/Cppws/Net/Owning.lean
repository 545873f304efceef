import Cppws.Foundation.UniqueOwner
import Cppws.Net.EpollWait

/-!
# The classes that own a descriptor

`Socket`, `Epoll` and `SendfileOp` with their constructors, moves and
destructors, on any number of objects.  A descriptor number can be used again
once it is closed, and a raw descriptor that no object holds is what `::open`,
or a caller of a constructor, has in a variable.
-/

namespace Cppws.Net.Owning

/-- `Socket` of `net/socket.hpp`. -/
structure Socket where
  /-- `fd_`, unless it is `INVALID_FD`. -/
  fd : Option Fd := none

namespace Socket

/-- `close`, with the descriptors it calls `::close` for. -/
def close (socket : Socket) : Socket × List Fd :=
  match socket.fd with
  | some fd => ({ fd := none }, [fd])
  | none => (socket, [])

/-- The new object, and what is left of the other one. -/
def moveConstruct (other : Socket) : Socket × Socket :=
  ({ fd := other.fd }, { other with fd := none })

/-- `operator=` for an object other than `this`. -/
def moveAssign (socket other : Socket) : (Socket × Socket) × List Fd :=
  (({ fd := other.fd }, { other with fd := none }), socket.close.2)

def destruct (socket : Socket) : List Fd :=
  socket.close.2

end Socket

/-- `SendfileOp` of `net/connection.hpp`. -/
structure SendfileOp where
  /-- `file_fd_`, unless it is negative. -/
  fileFd : Option Fd := none
  offset : Int := 0
  remaining : Int := 0

namespace SendfileOp

def construct (fileFd : Option Fd) (size : Int) : SendfileOp where
  fileFd := fileFd
  remaining := size

/-- The offset and the size are left in the other object. -/
def moveConstruct (other : SendfileOp) : SendfileOp × SendfileOp :=
  ({ other with }, { other with fileFd := none })

def moveAssign (op other : SendfileOp) :
    (SendfileOp × SendfileOp) × List Fd :=
  (({ other with }, { other with fileFd := none }), op.fileFd.toList)

def destruct (op : SendfileOp) : List Fd :=
  op.fileFd.toList

end SendfileOp

theorem empty_of_moved :
    (none : Option Fd) = none → ([] : List EpollEvent) = [] :=
  fun _ => rfl

/-- The new instance, and the other one with its vector moved away. -/
def moveConstructEpoll (other : Epoll) : Epoll × Epoll :=
  (other, { empty_of_closed := empty_of_moved })

def moveAssignEpoll (epoll other : Epoll) : (Epoll × Epoll) × List Fd :=
  ((other, { empty_of_closed := empty_of_moved }), epoll.epfd.toList)

def destructEpoll (epoll : Epoll) : List Fd :=
  epoll.epfd.toList

inductive Object where
  | socket (socket : Socket)
  | epoll (epoll : Epoll)
  | sendfileOp (op : SendfileOp)

namespace Object

/-- The descriptor that an object closes in its destructor. -/
def held : Object → Option Fd
  | .socket sock => sock.fd
  | .epoll ep => ep.epfd
  | .sendfileOp op => op.fileFd

def moveConstruct : Object → Object × Object
  | .socket other =>
      let moved := other.moveConstruct
      (.socket moved.1, .socket moved.2)
  | .epoll other =>
      let moved := moveConstructEpoll other
      (.epoll moved.1, .epoll moved.2)
  | .sendfileOp other =>
      let moved := other.moveConstruct
      (.sendfileOp moved.1, .sendfileOp moved.2)

/-- Only objects of one class can be assigned to each other. -/
def moveAssign : Object → Object → Option ((Object × Object) × List Fd)
  | .socket sock, .socket other =>
      let moved := sock.moveAssign other
      some ((.socket moved.1.1, .socket moved.1.2), moved.2)
  | .epoll ep, .epoll other =>
      let moved := moveAssignEpoll ep other
      some ((.epoll moved.1.1, .epoll moved.1.2), moved.2)
  | .sendfileOp op, .sendfileOp other =>
      let moved := op.moveAssign other
      some ((.sendfileOp moved.1.1, .sendfileOp moved.1.2), moved.2)
  | _, _ => none

def destruct : Object → List Fd
  | .socket sock => sock.destruct
  | .epoll ep => destructEpoll ep
  | .sendfileOp op => op.destruct

end Object

/-- What `accept4` comes to. -/
inductive Accepted where
  | client (fd : Fd)
  /-- `EAGAIN` or `ECONNABORTED`. -/
  | none
  | fails

structure Objects where
  /-- Every object that was constructed, until it is destroyed. -/
  objects : List (Option Object) := []
  /-- Open descriptors that no object holds. -/
  loose : List Fd := []
  log : List (HandleUse Fd) := []

namespace Objects

inductive Action where
  /-- `::open`, or another call that returns a descriptor. -/
  | openRaw (fd : Fd)
  | makeTcp (fd : Option Fd)
  | accept (listener : Nat) (accepted : Accepted)
  /-- `Socket(raw_fd)`, which throws if `fcntl` fails. -/
  | adopt (rawFd : Option Fd) (nonblocking : Bool)
  | epollCreate (epfd : Option Fd) (maxEvents : ℕ+)
  | sendfile (fileFd : Option Fd) (size : Int)
  | moveConstruct (source : Nat)
  | moveAssign (target source : Nat)
  | close (socket : Nat)
  | destruct (object : Nat)

/-- What the places of the objects hold. -/
def slots (objects : List (Option Object)) : List (Option Fd) :=
  objects.map fun object => object.bind Object.held

/-- The kernel can return this number. -/
def Fresh (world : Objects) (fd : Fd) : Prop :=
  ¬ (fd ∈ world.loose ∨ some fd ∈ slots world.objects)

instance (world : Objects) (fd : Fd) : Decidable (world.Fresh fd) :=
  inferInstanceAs (Decidable (¬ (_ ∨ _)))

/-- A constructor has returned. -/
def constructed (world : Objects) (object : Object) : Objects :=
  { world with objects := world.objects ++ [some object] }

/-- A new descriptor that an object holds at once. -/
def obtained (world : Objects) (fd : Fd) (object : Object) :
    Option Objects :=
  if world.Fresh fd then
    some
      { world with
        objects := world.objects ++ [some object]
        log := world.log ++ [.opens fd] }
  else
    none

/-- An object takes over a descriptor that was in a variable. -/
def taken (world : Objects) (fd : Fd) (object : Object) : Option Objects :=
  if fd ∈ world.loose then
    some
      { world with
        objects := world.objects ++ [some object]
        loose := world.loose.erase fd }
  else
    none

def step (world : Objects) : Action → Option Objects
  | .openRaw fd =>
      if world.Fresh fd then
        some
          { world with
            loose := fd :: world.loose
            log := world.log ++ [.opens fd] }
      else
        none
  | .makeTcp (some fd) => world.obtained fd (.socket { fd := some fd })
  | .makeTcp none => some world
  | .accept listener accepted =>
      match world.objects[listener]? with
      | some (some (.socket socket)) =>
          match accepted with
          | .client fd =>
              if socket.fd.isSome then
                world.obtained fd (.socket { fd := some fd })
              else
                none
          | .none =>
              if socket.fd.isSome then
                some (world.constructed (.socket {}))
              else
                none
          | .fails => some world
      | _ => none
  | .adopt (some rawFd) true =>
      world.taken rawFd (.socket { fd := some rawFd })
  | .adopt (some _) false => some world
  | .adopt none _ => some (world.constructed (.socket {}))
  | .epollCreate (some epfd) maxEvents =>
      world.obtained epfd (.epoll (.ofMaxEvents epfd maxEvents))
  | .epollCreate none _ => some world
  | .sendfile (some fileFd) size =>
      world.taken fileFd (.sendfileOp (.construct (some fileFd) size))
  | .sendfile none size =>
      some (world.constructed (.sendfileOp (.construct none size)))
  | .moveConstruct source =>
      match world.objects[source]? with
      | some (some other) =>
          let moved := other.moveConstruct
          some
            { world with
              objects :=
                world.objects.set source (some moved.2) ++ [some moved.1] }
      | _ => none
  | .moveAssign target source =>
      match world.objects[target]?, world.objects[source]? with
      | some (some object), some (some other) =>
          -- `this != &other`
          if target = source then
            some world
          else
            (object.moveAssign other).map fun moved =>
              { world with
                objects :=
                  (world.objects.set target (some moved.1.1)).set source
                    (some moved.1.2)
                log := world.log ++ moved.2.map .closes }
      | _, _ => none
  | .close index =>
      match world.objects[index]? with
      | some (some (.socket socket)) =>
          let closed := socket.close
          some
            { world with
              objects := world.objects.set index (some (.socket closed.1))
              log := world.log ++ closed.2.map .closes }
      | _ => none
  | .destruct index =>
      match world.objects[index]? with
      | some (some object) =>
          some
            { world with
              objects := world.objects.set index none
              log := world.log ++ object.destruct.map .closes }
      | _ => none

def machine : Machine Objects Action where
  step := step

/-! ## The objects as owners -/

def owners (world : Objects) : Owners Fd where
  slots := slots world.objects
  loose := world.loose
  log := world.log

/-- What an operation does with the descriptors. -/
def Action.owning : Action → List (OwnerAction Fd)
  | .openRaw fd => [.opens fd]
  | .makeTcp (some fd) => [.opens fd, .adopts fd]
  | .makeTcp none => []
  | .accept _ (.client fd) => [.opens fd, .adopts fd]
  | .accept _ .none => [.empties]
  | .accept _ .fails => []
  | .adopt (some rawFd) true => [.adopts rawFd]
  | .adopt (some _) false => []
  | .adopt none _ => [.empties]
  | .epollCreate (some epfd) _ => [.opens epfd, .adopts epfd]
  | .epollCreate none _ => []
  | .sendfile (some fileFd) _ => [.adopts fileFd]
  | .sendfile none _ => [.empties]
  | .moveConstruct source => [.moves source]
  | .moveAssign target source => [.assigns target source]
  | .close index | .destruct index => [.releases index]

theorem slots_append (objects : List (Option Object)) (object : Object) :
    slots (objects ++ [some object]) = slots objects ++ [object.held] :=
  List.map_append

theorem slots_set (objects : List (Option Object)) (index : Nat)
    (object : Option Object) :
    slots (objects.set index object) =
      (slots objects).set index (object.bind Object.held) :=
  List.map_set

theorem slots_found {objects : List (Option Object)} {index : Nat}
    {object : Object} (found : objects[index]? = some (some object)) :
    (slots objects)[index]? = some object.held := by
  rw [slots, List.getElem?_map, found]
  rfl

/-- What is left of an object that was moved from holds nothing. -/
theorem moveConstruct_held (other : Object) :
    other.moveConstruct.1.held = other.held ∧
      other.moveConstruct.2.held = none := by
  cases other <;> exact ⟨rfl, rfl⟩

theorem moveAssign_held {object other : Object}
    {moved : (Object × Object) × List Fd}
    (assigned : object.moveAssign other = some moved) :
    moved.1.1.held = other.held ∧ moved.1.2.held = none ∧
      moved.2 = object.held.toList := by
  cases object <;> cases other <;> cases assigned
  case socket.socket.refl sock other =>
    refine ⟨rfl, rfl, ?_⟩
    cases holds : sock.fd <;>
      simp [Socket.moveAssign, Socket.close, Object.held, holds]
  case epoll.epoll.refl => exact ⟨rfl, rfl, rfl⟩
  case sendfileOp.sendfileOp.refl => exact ⟨rfl, rfl, rfl⟩

theorem close_held (socket : Socket) :
    socket.close.1.fd = none ∧ socket.close.2 = socket.fd.toList := by
  cases holds : socket.fd <;> simp [Socket.close, holds]

/-- Every class closes in its destructor what it holds. -/
theorem destruct_eq (object : Object) :
    object.destruct = object.held.toList := by
  cases object with
  | socket socket => exact (close_held socket).2
  | epoll ep => rfl
  | sendfileOp op => rfl

theorem obtained_run {world after : Objects} {fd : Fd} {object : Object}
    (holds : object.held = some fd)
    (done : world.obtained fd object = some after) :
    Owners.machine.run world.owners [.opens fd, .adopts fd] =
      some after.owners := by
  unfold obtained at done
  split_ifs at done with fresh
  cases done
  have free : ¬ (fd ∈ world.owners.loose ∨
      some fd ∈ world.owners.slots) := fresh
  simp only [Machine.run, Owners.machine, Owners.step, if_neg free,
    Option.bind_some, List.mem_cons, true_or, if_true, List.erase_cons_head]
  simp only [owners, slots_append, holds]

theorem taken_run {world after : Objects} {fd : Fd} {object : Object}
    (holds : object.held = some fd)
    (done : world.taken fd object = some after) :
    Owners.machine.run world.owners [.adopts fd] = some after.owners := by
  unfold taken at done
  split_ifs at done with loose
  cases done
  have known : fd ∈ world.owners.loose := loose
  simp only [Machine.run, Owners.machine, Owners.step, if_pos known,
    Option.bind_some]
  simp only [owners, slots_append, holds]

theorem constructed_run (world : Objects) {object : Object}
    (holds : object.held = none) :
    Owners.machine.run world.owners [.empties] =
      some (world.constructed object).owners := by
  simp only [Machine.run, Owners.machine, Owners.step, Option.bind_some]
  simp only [owners, constructed, slots_append, holds]

theorem released_run {world : Objects} {index : Nat} {object : Object}
    {next : Option Object} {closes : List Fd}
    (found : world.objects[index]? = some (some object))
    (empty : next.bind Object.held = none)
    (closed : closes = object.held.toList) :
    Owners.machine.run world.owners [.releases index] =
      some
        { world with
          objects := world.objects.set index next
          log := world.log ++ closes.map .closes : Objects }.owners := by
  have slot : world.owners.slots[index]? = some object.held :=
    slots_found found
  simp only [Machine.run, Owners.machine, Owners.step, slot,
    Option.map_some, Option.bind_some]
  simp only [owners, slots_set, empty, closed, Owners.closing]

/-- An operation is one on the owners. -/
theorem step_owners {before after : Objects} {action : Action}
    (stepped : before.step action = some after) :
    Owners.machine.run before.owners action.owning = some after.owners := by
  cases action with
  | openRaw fd =>
      simp only [step] at stepped
      split_ifs at stepped with fresh
      cases stepped
      have free : ¬ (fd ∈ before.owners.loose ∨
          some fd ∈ before.owners.slots) := fresh
      simp only [Action.owning, Machine.run, Owners.machine, Owners.step,
        if_neg free, Option.bind_some]
      rfl
  | makeTcp fd =>
      cases fd with
      | none =>
          cases stepped
          rfl
      | some fd => exact obtained_run rfl stepped
  | accept listener accepted =>
      simp only [step] at stepped
      split at stepped
      case h_2 => cases stepped
      case h_1 socket found =>
        cases accepted with
        | client fd =>
            simp only at stepped
            split_ifs at stepped
            exact obtained_run rfl stepped
        | none =>
            simp only at stepped
            split_ifs at stepped
            cases stepped
            exact constructed_run before rfl
        | fails =>
            cases stepped
            rfl
  | adopt rawFd nonblocking =>
      cases rawFd with
      | none =>
          cases stepped
          exact constructed_run before rfl
      | some rawFd =>
          cases nonblocking with
          | false =>
              cases stepped
              rfl
          | true => exact taken_run rfl stepped
  | epollCreate epfd maxEvents =>
      cases epfd with
      | none =>
          cases stepped
          rfl
      | some epfd => exact obtained_run rfl stepped
  | sendfile fileFd size =>
      cases fileFd with
      | none =>
          cases stepped
          exact constructed_run before rfl
      | some fileFd => exact taken_run rfl stepped
  | moveConstruct source =>
      simp only [step] at stepped
      split at stepped
      case h_2 => cases stepped
      case h_1 other found =>
        cases stepped
        have slot : before.owners.slots[source]? = some other.held :=
          slots_found found
        rcases moveConstruct_held other with ⟨taken, left⟩
        simp only [Action.owning, Machine.run, Owners.machine, Owners.step,
          slot, Option.map_some, Option.bind_some]
        simp only [owners, slots_append, slots_set, taken, left,
          Option.bind_some]
  | moveAssign target source =>
      simp only [step] at stepped
      split at stepped
      case h_2 => cases stepped
      case h_1 object other held found =>
        have slot : before.owners.slots[target]? = some object.held :=
          slots_found held
        have taken : before.owners.slots[source]? = some other.held :=
          slots_found found
        simp only [Action.owning, Machine.run, Owners.machine, Owners.step,
          slot, taken, Option.map_some, Option.bind_some]
        split_ifs at stepped ⊢ with self
        · cases stepped
          rfl
        · rcases Option.map_eq_some_iff.1 stepped with
            ⟨moved, assigned, rfl⟩
          rcases moveAssign_held assigned with ⟨gets, left, closes⟩
          simp only [owners, slots_set, gets, left, closes, Option.bind_some,
            Owners.closing]
  | close index =>
      simp only [step] at stepped
      split at stepped
      case h_2 => cases stepped
      case h_1 socket found =>
        cases stepped
        exact released_run found (close_held socket).1 (close_held socket).2
  | destruct index =>
      simp only [step] at stepped
      split at stepped
      case h_2 => cases stepped
      case h_1 object found =>
        cases stepped
        exact released_run found rfl (destruct_eq object)

/-- The descriptor that the object with this number holds. -/
def holds (world : Objects) (index : Nat) : Option Fd :=
  world.objects[index]?.bind fun object => object.bind Object.held

/-- A descriptor that was opened and not closed yet. -/
def IsOpen (world : Objects) (fd : Fd) : Prop :=
  fd ∈ world.loose ∨ ∃ index, world.holds index = some fd

theorem slot_of_holds {world : Objects} {index : Nat} {fd : Fd}
    (held : world.holds index = some fd) :
    world.owners.slots[index]? = some (some fd) := by
  rcases Option.bind_eq_some_iff.1 held with ⟨object, found, held⟩
  show (slots world.objects)[index]? = _
  rw [slots, List.getElem?_map, found, Option.map_some, held]

theorem holds_of_slot {world : Objects} {index : Nat} {fd : Fd}
    (held : world.owners.slots[index]? = some (some fd)) :
    world.holds index = some fd := by
  rw [owners, slots, List.getElem?_map, Option.map_eq_some_iff] at held
  rcases held with ⟨object, found, held⟩
  exact Option.bind_eq_some_iff.2 ⟨object, found, held⟩

theorem mem_all_iff (world : Objects) (fd : Fd) :
    fd ∈ world.owners.all ↔ world.IsOpen fd := by
  rw [Owners.all, Multiset.mem_add, Owners.mem_contents, Multiset.mem_coe,
    or_comm]
  refine or_congr_right ?_
  rw [List.mem_iff_getElem?]
  exact exists_congr fun index => ⟨holds_of_slot, slot_of_holds⟩

theorem sound_of_run {actions : List Action} {world : Objects}
    (ran : machine.run {} actions = some world) : world.owners.Sound :=
  Owners.sound_of_run
    (Machine.run_of_simulation owners Action.owning
      (fun _ _ _ stepped => step_owners stepped) ran)

/--
However objects are constructed, moved, assigned to each other or to
themselves, closed and destroyed: what is closed is open at that moment, no two
objects hold one descriptor and none of them is loose, and each number has been
closed as often as it was opened, except once less while it is open.
-/
theorem descriptors_owned {actions : List Action} {world : Objects}
    (ran : machine.run {} actions = some world) :
    (HandleUse.table.run 0 world.log).isSome ∧
      (∀ fd first second, world.holds first = some fd →
        world.holds second = some fd → first = second) ∧
      (∀ fd index, world.holds index = some fd → fd ∉ world.loose) ∧
      ∀ fd,
        (world.IsOpen fd →
          (HandleUse.opened world.log).count fd =
            (HandleUse.closed world.log).count fd + 1) ∧
        (¬ world.IsOpen fd →
          (HandleUse.opened world.log).count fd =
            (HandleUse.closed world.log).count fd) := by
  have sound := sound_of_run ran
  have counted := sound.count
  refine ⟨?_, ?_, ?_, fun fd => ⟨fun isOpen => ?_, fun closed => ?_⟩⟩
  · have logged : HandleUse.table.run 0 world.log = some _ := sound.logged
    rw [logged]
    rfl
  · exact fun fd first second one other =>
      sound.unique (slot_of_holds one) (slot_of_holds other)
  · exact fun fd index held => sound.not_loose (slot_of_holds held)
  · rw [← mem_all_iff] at isOpen
    rw [← Multiset.count_eq_one_of_mem sound.single isOpen]
    exact counted fd
  · rw [← mem_all_iff, ← Multiset.count_eq_zero] at closed
    have balanced := counted fd
    rwa [closed] at balanced

/-- A number is used again, an object is assigned to itself, and one leaks. -/
theorem descriptors_owned_reused :
    ∃ world,
      machine.run {}
          [.makeTcp (some 3), .epollCreate (some 4) 1024,
            .accept 0 (.client 5), .moveConstruct 2, .moveAssign 3 3,
            .destruct 2, .destruct 3, .openRaw 5, .adopt (some 5) false,
            .makeTcp (some 6), .moveAssign 4 0, .destruct 0, .destruct 4,
            .destruct 1] = some world ∧
        (HandleUse.opened world.log).count 5 =
          (HandleUse.closed world.log).count 5 + 1 := by
  have finishes : ∃ world,
      machine.run {}
          [.makeTcp (some 3), .epollCreate (some 4) 1024,
            .accept 0 (.client 5), .moveConstruct 2, .moveAssign 3 3,
            .destruct 2, .destruct 3, .openRaw 5, .adopt (some 5) false,
            .makeTcp (some 6), .moveAssign 4 0, .destruct 0, .destruct 4,
            .destruct 1] = some world ∧ world.loose = [5] :=
    Option.map_eq_some_iff.1 (by decide)
  rcases finishes with ⟨world, ran, leaked⟩
  refine ⟨world, ran, ((descriptors_owned ran).2.2.2 5).1 (Or.inl ?_)⟩
  rw [leaked]
  exact List.mem_singleton_self 5

end Objects

end Cppws.Net.Owning
