import Cppws.App.Steps

/-!
# Who owns a descriptor

Every connection that is alive holds the socket it is stored under, and its
descriptor is registered.  A connection that has closed holds nothing, and the
number it is still stored under until it is reaped is not registered.  Each
step of the event loop keeps this unless an exception leaves `run`.
-/

namespace Cppws.App

open Cppws.Core
open Cppws.Http
open Cppws.Net

/-! ## Who owns what -/

namespace EventLoop

/-- Where a connection of the heap stands. -/
inductive Placed (loop : EventLoop) (id : Nat) (conn : Connection) :
    Prop where
  | alive (fd : Fd) (lives : conn.isAlive = true)
      (socket : conn.socket = some fd)
      (stored : loop.connections fd = some id)
      (registered : (loop.kernel.interest fd).isSome)
      (only : ∀ key, loop.connections key = some id → key = fd)
  | closed (dead : conn.isAlive = false)
      (socket : conn.socket = none)
      (file : conn.sendfileOp = none)
      (gone : ∀ key, loop.connections key = some id →
        loop.kernel.interest key = none)

/-- Every connection stands where it belongs. -/
structure Sound (loop : EventLoop) : Prop where
  named : ∀ fd id, loop.connections fd = some id → (loop.heap id).isSome
  numbered : ∀ id, (loop.heap id).isSome → id < loop.nextConnId
  placed : ∀ id client, loop.heap id = some client →
    loop.Placed id client.conn
  server : ∀ fd, fd = loop.listenFd ∨ fd = loop.wakeupFd →
    loop.connections fd = none ∧ (loop.kernel.descriptor fd).isSome

theorem start_sound (listenFd wakeupFd : Fd) :
    (start listenFd wakeupFd).Sound := by
  constructor
  · intro fd id stored
    cases stored
  · intro id exists_
    cases exists_
  · intro id client found
    cases found
  · rintro fd server
    refine ⟨rfl, ?_⟩
    show (Function.update
      (Function.update (fun _ => none) listenFd (some 0)) wakeupFd (some 1)
        fd).isSome = true
    rcases server with rfl | rfl
    · by_cases same : fd = wakeupFd
      · rw [same, Function.update_self]
        rfl
      · rw [Function.update_of_ne same, Function.update_self]
        rfl
    · rw [Function.update_self]
      rfl

/-- Numbers that have not been given out are those of no connection. -/
theorem Sound.unborn {loop : EventLoop} (sound : loop.Sound) {id : Nat}
    (later : loop.nextConnId ≤ id) : loop.heap id = none := by
  by_contra present
  have known := sound.numbered id (Option.isSome_iff_ne_none.2 present)
  exact Nat.not_lt_of_le later known

theorem Sound.stored {loop : EventLoop} (sound : loop.Sound) {id : Nat}
    {client : Client} {fd : Fd} (found : loop.heap id = some client)
    (socket : client.conn.socket = some fd) :
    loop.connections fd = some id := by
  cases sound.placed id client found with
  | alive own _ held stored =>
      rw [socket, Option.some.injEq] at held
      exact held ▸ stored
  | closed _ held =>
      rw [socket] at held
      cases held

theorem Sound.socket {loop : EventLoop} (sound : loop.Sound) {id : Nat}
    {client : Client} {fd : Fd} (found : loop.heap id = some client)
    (keyed : loop.connections fd = some id)
    (alive : client.conn.isAlive = true) : client.conn.socket = some fd := by
  cases sound.placed id client found with
  | alive own _ held _ _ only => exact only fd keyed ▸ held
  | closed dead =>
      rw [alive] at dead
      cases dead

theorem Sound.key_eq {loop : EventLoop} (sound : loop.Sound) {id : Nat}
    {client : Client} {fd key : Fd} (found : loop.heap id = some client)
    (socket : client.conn.socket = some fd)
    (keyed : loop.connections key = some id) : key = fd := by
  cases sound.placed id client found with
  | alive own _ held _ _ only =>
      rw [socket, Option.some.injEq] at held
      exact held ▸ only key keyed
  | closed _ held =>
      rw [socket] at held
      cases held

/-- The parts that `Sound` is about are the same, up to event masks. -/
structure Frame (before after : EventLoop) : Prop where
  listenFd : after.listenFd = before.listenFd
  wakeupFd : after.wakeupFd = before.wakeupFd
  connections : after.connections = before.connections
  heap : after.heap = before.heap
  nextConnId : after.nextConnId = before.nextConnId
  descriptor : after.kernel.descriptor = before.kernel.descriptor
  registered : ∀ fd, (after.kernel.interest fd).isSome =
    (before.kernel.interest fd).isSome

theorem Frame.of_kernel {before after : EventLoop}
    (listenFd : after.listenFd = before.listenFd)
    (wakeupFd : after.wakeupFd = before.wakeupFd)
    (connections : after.connections = before.connections)
    (heap : after.heap = before.heap)
    (nextConnId : after.nextConnId = before.nextConnId)
    (kernel : after.kernel = before.kernel) : Frame before after :=
  ⟨listenFd, wakeupFd, connections, heap, nextConnId,
    congrArg Kernel.descriptor kernel, fun fd => by rw [kernel]⟩

theorem Placed.frame {before after : EventLoop} {id : Nat}
    {conn : Connection} (placed : before.Placed id conn)
    (connections : after.connections = before.connections)
    (registered : ∀ fd, (after.kernel.interest fd).isSome =
      (before.kernel.interest fd).isSome) : after.Placed id conn := by
  cases placed with
  | alive fd lives socket stored known only =>
      refine .alive fd lives socket ?_ ?_ ?_
      · rw [connections]
        exact stored
      · rw [registered]
        exact known
      · rw [connections]
        exact only
  | closed dead socket file gone =>
      refine .closed dead socket file ?_
      intro key stored
      rw [connections] at stored
      have same := registered key
      rw [gone key stored] at same
      simpa using same

theorem Sound.frame {before after : EventLoop} (sound : before.Sound)
    (frame : Frame before after) : after.Sound := by
  constructor
  · rw [frame.connections, frame.heap]
    exact sound.named
  · rw [frame.heap, frame.nextConnId]
    exact sound.numbered
  · rw [frame.heap]
    intro id client found
    exact (sound.placed id client found).frame frame.connections
      frame.registered
  · rw [frame.listenFd, frame.wakeupFd, frame.connections, frame.descriptor]
    exact sound.server

theorem Frame.modify (loop : EventLoop) (socket : Option Fd)
    (events : Events) (next : Phase) :
    Frame loop (loop.modify socket events next) := by
  unfold EventLoop.modify
  split
  case h_1 kernel modified =>
    rcases Option.bind_eq_some_iff.1 modified with ⟨fd, _, modified⟩
    rcases Kernel.interest_of_modify modified with
      ⟨descriptor, _, registered⟩
    exact ⟨rfl, rfl, rfl, rfl, rfl, descriptor, registered⟩
  case h_2 => exact .of_kernel rfl rfl rfl rfl rfl rfl

/-- What a connection that closes does to the kernel. -/
theorem applyAll_closing (kernel : Kernel) {calls : List Call} {fd : Fd}
    (told : control calls =
      .closeCallback (some fd) :: (some fd).toList.map .close) :
    kernel.applyAll calls = (kernel.remove fd).close fd := by
  rw [← Kernel.applyAll_control, told]
  rfl

/-- The kernel after a connection has closed, at another descriptor. -/
theorem close_of_ne (kernel : Kernel) {fd other : Fd}
    (different : other ≠ fd) :
    ((kernel.remove fd).close fd).descriptor other =
        kernel.descriptor other ∧
      ((kernel.remove fd).close fd).interest other =
        kernel.interest other := by
  constructor
  · exact Function.update_of_ne different _ _
  · show Function.update (Function.update _ _ _) _ _ _ = _
    rw [Function.update_of_ne different, Function.update_of_ne different]

theorem close_self (kernel : Kernel) (fd : Fd) :
    ((kernel.remove fd).close fd).interest fd = none :=
  Function.update_self _ _ _

/-- What a connection that moves does to the kernel. -/
theorem Placed.kernel_put {loop : EventLoop} {id : Nat} {client moved : Client}
    {calls : List Call} (placed : loop.Placed id client.conn)
    (moves : Moves client.conn moved.conn calls) :
    (loop.put id moved calls).kernel = loop.kernel ∧
        moved.conn.socket = client.conn.socket ∧
        moved.conn.isAlive = client.conn.isAlive ∧
        (client.conn.isAlive = false →
          moved.conn.sendfileOp = client.conn.sendfileOp) ∨
      moved.conn.isAlive = false ∧ moved.conn.socket = none ∧
        moved.conn.sendfileOp = none ∧
        ∃ fd, loop.connections fd = some id ∧
          (∀ key, loop.connections key = some id → key = fd) ∧
          (loop.put id moved calls).kernel =
            (loop.kernel.remove fd).close fd := by
  cases moves with
  | stays socket alive file quiet =>
      exact Or.inl ⟨Kernel.applyAll_quiet _ quiet, socket, alive, file⟩
  | closes lives closed socket file told =>
      cases placed with
      | closed dead _ _ _ =>
          rw [lives] at dead
          cases dead
      | alive fd _ held stored _ only =>
          rw [held] at told
          exact Or.inr ⟨Output.not_isAlive closed, socket, file, fd, stored,
            only, applyAll_closing _ told⟩

/-- The connection itself stands where it belongs. -/
theorem Placed.moved {loop : EventLoop} {id : Nat} {client moved : Client}
    {calls : List Call} (placed : loop.Placed id client.conn)
    (moves : Moves client.conn moved.conn calls) :
    (loop.put id moved calls).Placed id moved.conn := by
  rcases placed.kernel_put moves with
    ⟨kernel, socket, alive, file⟩ |
    ⟨dead, socket, file, fd, _, only, kernel⟩
  · have known : ∀ fd,
        ((loop.put id moved calls).kernel.interest fd).isSome =
        (loop.kernel.interest fd).isSome := by
      intro fd
      rw [kernel]
    cases placed with
    | alive fd lives held stored registered only =>
        refine .alive fd (alive.trans lives) (socket.trans held) stored ?_ only
        rw [known]
        exact registered
    | closed dead held idle gone =>
        refine .closed (alive.trans dead) (socket.trans held)
          ((file dead).trans idle) ?_
        rw [kernel]
        exact gone
  · refine .closed dead socket file ?_
    intro key keyed
    rw [kernel, only key keyed]
    exact close_self _ _

/-- A connection does not notice what another one does. -/
theorem Placed.spared {loop : EventLoop} {id other : Nat}
    {client moved : Client} {calls : List Call} {conn : Connection}
    (standing : loop.Placed other conn) (different : other ≠ id)
    (placed : loop.Placed id client.conn)
    (moves : Moves client.conn moved.conn calls) :
    (loop.put id moved calls).Placed other conn := by
  rcases placed.kernel_put moves with
    ⟨kernel, _⟩ | ⟨_, _, _, fd, stored, _, kernel⟩
  · refine standing.frame rfl (fun fd => ?_)
    rw [kernel]
  · have apart : ∀ key, loop.connections key = some other →
        key ≠ fd := by
      rintro key keyed rfl
      rw [stored, Option.some.injEq] at keyed
      exact different keyed.symm
    cases standing with
    | alive own lives held keyed registered only =>
        refine .alive own lives held keyed ?_ only
        rw [kernel, (close_of_ne _ (apart own keyed)).2]
        exact registered
    | closed dead held idle gone =>
        refine .closed dead held idle ?_
        intro key keyed
        rw [kernel, (close_of_ne _ (apart key keyed)).2]
        exact gone key keyed

@[simp]
theorem heap_put_self (loop : EventLoop) (id : Nat) (client : Client)
    (calls : List Call) : (loop.put id client calls).heap id = some client :=
  Function.update_self _ _ _

theorem heap_put_of_ne (loop : EventLoop) {id other : Nat} (client : Client)
    (calls : List Call) (different : other ≠ id) :
    (loop.put id client calls).heap other = loop.heap other :=
  Function.update_of_ne different _ _

theorem heap_put_isSome {loop : EventLoop} {id : Nat} {client : Client}
    (moved : Client) (calls : List Call) (found : loop.heap id = some client)
    (other : Nat) :
    ((loop.put id moved calls).heap other).isSome =
      (loop.heap other).isSome := by
  by_cases same : other = id
  · rw [same, heap_put_self, found]
    rfl
  · rw [heap_put_of_ne _ _ _ same]

/-- A connection moves. -/
theorem Sound.put {loop : EventLoop} (sound : loop.Sound) {id : Nat}
    {client moved : Client} {calls : List Call}
    (found : loop.heap id = some client)
    (moves : Moves client.conn moved.conn calls) :
    (loop.put id moved calls).Sound := by
  have placed := sound.placed id client found
  constructor
  · intro fd other stored
    rw [heap_put_isSome moved calls found]
    exact sound.named fd other stored
  · intro other exists_
    rw [heap_put_isSome moved calls found] at exists_
    exact sound.numbered other exists_
  · intro other entry heap
    by_cases same : other = id
    · rw [same, heap_put_self, Option.some.injEq] at heap
      rw [same, ← heap]
      exact placed.moved moves
    · rw [heap_put_of_ne _ _ _ same] at heap
      exact (sound.placed other entry heap).spared same placed moves
  · intro key server
    have free := sound.server key server
    refine ⟨free.1, ?_⟩
    rcases placed.kernel_put moves with
      ⟨kernel, _⟩ | ⟨_, _, _, fd, stored, _, kernel⟩
    · rw [kernel]
      exact free.2
    · have different : key ≠ fd := by
        rintro rfl
        rw [free.1] at stored
        cases stored
      rw [kernel, (close_of_ne _ different).1]
      exact free.2

/-! ## Accepting and reaping -/

/-- `epoll_.add` does not throw on a socket just opened. -/
theorem add_openSocket {kernel opened : Kernel} {fd : Fd} (events : Events)
    (new : kernel.openSocket fd = some opened) :
    ∃ added, opened.add fd events = some added ∧
      kernel.descriptor fd = none ∧
      added.descriptor =
        Function.update kernel.descriptor fd (some kernel.opened) ∧
      added.interest = Function.update kernel.interest fd (some events) ∧
      added.opened = kernel.opened + 1 := by
  have unchanged : kernel.descriptor fd = none ∧
      opened.descriptor =
        Function.update kernel.descriptor fd (some kernel.opened) ∧
      opened.interest = kernel.interest ∧
      opened.opened = kernel.opened + 1 := by
    unfold Kernel.openSocket at new
    split_ifs at new with free
    cases new
    exact ⟨free, rfl, rfl, rfl⟩
  rcases unchanged with ⟨free, descriptor, interest, counted⟩
  have unregistered : opened.interest fd = none := by
    have closed := mt (kernel.registeredOpen fd)
    rw [free, ← interest] at closed
    simpa using closed
  have isOpen : (opened.descriptor fd).isSome = true := by
    rw [descriptor, Function.update_self]
    rfl
  refine ⟨opened.register fd events isOpen, ?_, free, descriptor, ?_,
    counted⟩
  · unfold Kernel.add
    rw [dif_pos isOpen, if_pos unregistered]
  · rw [← interest]
    rfl

/-- What `accept_new_connections` does with one socket. -/
inductive Accepts (before : EventLoop) (fd : Fd) (after : EventLoop) :
    Prop where
  /-- It becomes a connection. -/
  | stored (free : before.connections fd = none)
      (unopened : before.kernel.descriptor fd = none)
      (connections : after.connections =
        Function.update before.connections fd (some before.nextConnId))
      (heap : after.heap = Function.update before.heap before.nextConnId
        (some { conn := .opened fd before.nextConnId
                parser := .fresh defaultMaxBodySize }))
      (descriptor : after.kernel.descriptor = Function.update
        before.kernel.descriptor fd (some before.kernel.opened))
      (interest : after.kernel.interest =
        Function.update before.kernel.interest fd (some readMask))
  /-- A dead entry is in the way, and it is closed again. -/
  | dropped (id : Nat) (taken : before.connections fd = some id)
      (unopened : before.kernel.descriptor fd = none)
      (connections : after.connections = before.connections)
      (heap : after.heap = before.heap)
      (descriptor : after.kernel.descriptor = before.kernel.descriptor)
      (interest : after.kernel.interest = before.kernel.interest)

theorem acceptOne_accepts {before after : EventLoop} {fd : Fd}
    (accepted : before.acceptOne fd = some after) :
    Accepts before fd after ∧ after.nextConnId = before.nextConnId + 1 ∧
      after.kernel.opened = before.kernel.opened + 1 ∧
      after.listenFd = before.listenFd ∧ after.wakeupFd = before.wakeupFd ∧
      after.tasks = before.tasks ∧
      after.pendingWrites = before.pendingWrites ∧
      after.phase = before.phase := by
  rcases Option.bind_eq_some_iff.1 accepted with ⟨opened, new, accepted⟩
  rcases add_openSocket readMask new with
    ⟨added, registered, unopened, descriptor, interest, counted⟩
  rw [registered, Option.map_some, Option.some.injEq] at accepted
  subst accepted
  dsimp only
  by_cases free : before.connections fd = none
  · rw [if_pos free]
    exact ⟨.stored free unopened rfl rfl descriptor interest, rfl, counted,
      rfl, rfl, rfl, rfl, rfl⟩
  · rw [if_neg free]
    rcases Option.ne_none_iff_exists'.1 free with ⟨id, taken⟩
    refine ⟨.dropped id taken unopened rfl rfl ?_ ?_, rfl, counted, rfl, rfl,
      rfl, rfl, rfl⟩
    · show Function.update added.descriptor fd none = _
      rw [descriptor, Function.update_idem, ← unopened,
        Function.update_eq_self]
    · have unregistered : before.kernel.interest fd = none := by
        have closed := mt (before.kernel.registeredOpen fd)
        rw [unopened] at closed
        simpa using closed
      show Function.update added.interest fd none = _
      rw [interest, Function.update_idem, ← unregistered,
        Function.update_eq_self]

/-- A connection does not notice that another one is accepted. -/
theorem Placed.accepts {before after : EventLoop} (sound : before.Sound)
    {fd : Fd} (unopened : before.kernel.descriptor fd = none)
    (connections : after.connections =
      Function.update before.connections fd (some before.nextConnId))
    (interest : after.kernel.interest =
      Function.update before.kernel.interest fd (some readMask))
    {id : Nat} {client : Client} (found : before.heap id = some client) :
    after.Placed id client.conn := by
  have older : id < before.nextConnId := by
    apply sound.numbered
    rw [found]
    rfl
  have old : ∀ key, after.connections key = some id →
      key ≠ fd ∧ before.connections key = some id := by
    intro key keyed
    rw [connections] at keyed
    by_cases same : key = fd
    · rw [same, Function.update_self, Option.some.injEq] at keyed
      exact absurd older (keyed ▸ Nat.lt_irrefl _)
    · rw [Function.update_of_ne same] at keyed
      exact ⟨same, keyed⟩
  cases sound.placed id client found with
  | alive own lives socket stored registered only =>
      have different : own ≠ fd := by
        rintro rfl
        have isOpen := before.kernel.registeredOpen own registered
        rw [unopened] at isOpen
        cases isOpen
      refine .alive own lives socket ?_ ?_ ?_
      · rw [connections, Function.update_of_ne different]
        exact stored
      · rw [interest, Function.update_of_ne different]
        exact registered
      · intro key keyed
        exact only key (old key keyed).2
  | closed dead socket file gone =>
      refine .closed dead socket file ?_
      intro key keyed
      rcases old key keyed with ⟨different, keyed⟩
      rw [interest, Function.update_of_ne different]
      exact gone key keyed

/-- The new connection stands where it belongs. -/
theorem Placed.accepted {before after : EventLoop} (sound : before.Sound)
    {fd : Fd}
    (connections : after.connections =
      Function.update before.connections fd (some before.nextConnId))
    (interest : after.kernel.interest =
      Function.update before.kernel.interest fd (some readMask)) :
    after.Placed before.nextConnId (.opened fd before.nextConnId) := by
  refine .alive fd rfl rfl ?_ ?_ ?_
  · rw [connections, Function.update_self]
  · rw [interest, Function.update_self]
    rfl
  · intro key keyed
    by_contra different
    rw [connections, Function.update_of_ne different] at keyed
    exact Nat.lt_irrefl _ (sound.numbered _ (sound.named key _ keyed))

theorem Sound.acceptOne {before after : EventLoop} (sound : before.Sound)
    {fd : Fd} (accepted : before.acceptOne fd = some after) :
    after.Sound := by
  rcases acceptOne_accepts accepted with
    ⟨accepts, counted, _, listenFd, wakeupFd, _⟩
  cases accepts with
  | stored free unopened connections heap descriptor interest =>
      constructor
      · intro key id keyed
        rw [heap]
        by_cases new : id = before.nextConnId
        · rw [new, Function.update_self]
          rfl
        · rw [Function.update_of_ne new]
          rw [connections] at keyed
          by_cases same : key = fd
          · rw [same, Function.update_self, Option.some.injEq] at keyed
            exact absurd keyed.symm new
          · rw [Function.update_of_ne same] at keyed
            exact sound.named key id keyed
      · intro id exists_
        rw [counted, Nat.lt_succ_iff]
        rw [heap] at exists_
        by_cases new : id = before.nextConnId
        · exact Nat.le_of_eq new
        · rw [Function.update_of_ne new] at exists_
          exact Nat.le_of_lt (sound.numbered id exists_)
      · intro id client found
        rw [heap] at found
        by_cases new : id = before.nextConnId
        · rw [new, Function.update_self, Option.some.injEq] at found
          rw [new, ← found]
          exact .accepted sound connections interest
        · rw [Function.update_of_ne new] at found
          exact .accepts sound unopened connections interest found
      · rw [listenFd, wakeupFd, connections, descriptor]
        intro key server
        rcases sound.server key server with ⟨unkeyed, isOpen⟩
        have different : key ≠ fd := by
          rintro rfl
          rw [unopened] at isOpen
          cases isOpen
        rw [Function.update_of_ne different, Function.update_of_ne different]
        exact ⟨unkeyed, isOpen⟩
  | dropped id taken unopened connections heap descriptor interest =>
      constructor
      · rw [connections, heap]
        exact sound.named
      · rw [heap, counted]
        exact fun other exists_ =>
          Nat.lt_succ_of_lt (sound.numbered other exists_)
      · rw [heap]
        intro other client found
        refine (sound.placed other client found).frame connections ?_
        intro key
        rw [interest]
      · rw [listenFd, wakeupFd, connections, descriptor]
        exact sound.server

theorem Sound.acceptAll {clients : List Fd} {before after : EventLoop}
    (sound : before.Sound) (accepted : before.acceptAll clients = some after) :
    after.Sound := by
  induction clients generalizing before with
  | nil =>
      cases accepted
      exact sound
  | cons fd rest ih =>
      rcases Option.bind_eq_some_iff.1 accepted with ⟨next, first, accepted⟩
      exact ih (sound.acceptOne first) accepted

/-- Only connections that have closed are reaped. -/
theorem dead_eq_true_iff {loop : EventLoop} {fd : Fd} :
    loop.dead fd = true ↔ ∃ id client, loop.connections fd = some id ∧
      loop.heap id = some client ∧ client.conn.isAlive = false := by
  simp only [dead, Option.any_eq_true, Prod.exists, find_eq_some_iff,
    Bool.not_eq_true', and_assoc]

theorem Sound.reaped {loop : EventLoop} (sound : loop.Sound) :
    loop.reaped.Sound := by
  have kept : ∀ fd id, loop.reaped.connections fd = some id →
      loop.dead fd = false ∧ loop.connections fd = some id := by
    intro fd id stored
    have stored' : (if loop.dead fd then none else loop.connections fd) =
        some id := stored
    split_ifs at stored' with dead
    exact ⟨by simpa using dead, stored'⟩
  constructor
  · exact fun fd id stored => sound.named fd id (kept fd id stored).2
  · exact sound.numbered
  · intro id client found
    cases sound.placed id client found with
    | alive fd lives socket stored registered only =>
        have living : loop.dead fd = false := by
          apply Bool.eq_false_of_not_eq_true
          rw [dead_eq_true_iff]
          rintro ⟨other, entry, stored', found', dead⟩
          rw [stored, Option.some.injEq] at stored'
          subst stored'
          have found'' : loop.heap id = some client := found
          rw [found'', Option.some.injEq] at found'
          rw [← found', lives] at dead
          cases dead
        refine .alive fd lives socket ?_ ?_ ?_
        · show (if loop.dead fd then none else loop.connections fd) = _
          rw [living]
          exact stored
        · show (if loop.dead fd then none
            else loop.kernel.interest fd).isSome = true
          rw [living]
          exact registered
        · exact fun key keyed => only key (kept key id keyed).2
    | closed dead socket file gone =>
        refine .closed dead socket file ?_
        intro key keyed
        show (if loop.dead key then none else loop.kernel.interest key) = none
        rw [gone key (kept key id keyed).2, ite_self]
  · intro fd server
    rcases sound.server fd server with ⟨unkeyed, isOpen⟩
    have unkeyed' : loop.connections fd = none := unkeyed
    refine ⟨?_, isOpen⟩
    show (if loop.dead fd then none else loop.connections fd) = none
    rw [unkeyed', ite_self]

/-! ## Every step -/

/-- The queues and the phase do not matter. -/
theorem Sound.aside {loop : EventLoop} (sound : loop.Sound)
    (pendingWrites : TaskQueue PendingWrite) (tasks : List Nat)
    (running : Bool) (phase : Phase) :
    Sound
      { loop with
        pendingWrites := pendingWrites
        tasks := tasks
        running := running
        phase := phase } :=
  sound.frame (.of_kernel rfl rfl rfl rfl rfl rfl)

theorem Sound.handles {before after : EventLoop} (sound : before.Sound)
    {event : EpollEvent} {rest : List EpollEvent}
    (handles : Handles before event rest after) : after.Sound := by
  cases handles with
  | closes id client keyed found closed =>
      refine (Sound.put sound found ?_).aside _ _ _ _
      exact .onClosed rfl rfl rfl
  | wakeup | stale | reads | writes | ignores => exact sound.aside _ _ _ _

theorem Sound.reads {before after : EventLoop} (sound : before.Sound)
    {event : EpollEvent} {rest : List EpollEvent} {received : Received}
    {id : Nat} {client : Client} (found : before.heap id = some client)
    (reads : Reads before event rest received id client after) :
    after.Sound := by
  cases reads with
  | more =>
      apply sound.put found
      exact .stays rfl rfl (fun _ => rfl) rfl
  | posts | submits | blocked =>
      refine (Sound.put sound found ?_).aside _ _ _ _
      exact .stays rfl rfl (fun _ => rfl) rfl
  | closes last readBuf read =>
      refine (Sound.put sound found ?_).aside _ _ _ _
      subst read
      exact .onClosed rfl rfl rfl

theorem Sound.drains {before after : EventLoop} (sound : before.Sound)
    {rest : List EpollEvent} {answers : List Answer}
    (drains : Drains before rest answers after) : after.Sound := by
  cases drains with
  | finishes | discards => exact sound.aside _ _ _ _
  | delivers pw queue _ id client flushed _ found alive delivered _ next same =>
      have delivering : next.Sound := by
        rw [same]
        refine (Sound.put sound found ?_).aside _ _ _ _
        exact .deliver alive delivered
      split_ifs
      · exact delivering.frame (.modify next _ _ _)
      · exact delivering

/-- A flush of a connection that has closed returns 0 and makes no call. -/
theorem flushWrite_of_closed {conn : Connection} {answers : List Answer}
    {flushed : Connection.Flushed} (dead : conn.isAlive = false)
    (socket : conn.socket = none) (file : conn.sendfileOp = none)
    (ran : conn.flushWrite answers = some flushed) :
    flushed.remaining = 0 ∧ flushed.calls = [] := by
  by_cases idle : conn.Idle
  · rw [Connection.flushWrite_of_idle idle, Option.some.injEq] at ran
    rw [← ran, file]
    exact ⟨rfl, rfl⟩
  · have closed : conn.state = .closed := by
      simpa [Connection.isAlive] using dead
    rcases Connection.flushWrite_of_closed_busy closed socket idle ran with
      ⟨_, quiet, nothing⟩
    exact ⟨nothing, quiet⟩

theorem phase_modify {loop : EventLoop} {fd : Fd} (events : Events)
    (next : Phase) :
    (loop.modify (some fd) events next).phase =
      if (loop.kernel.interest fd).isSome then next
      else .threw (.modify (some fd)) := by
  unfold EventLoop.modify
  rw [Option.bind_some]
  cases modified : loop.kernel.modify fd events with
  | none =>
      rw [Kernel.modify_eq_none_iff.1 modified]
      rfl
  | some kernel =>
      have registered : (loop.kernel.interest fd).isSome = true := by
        rw [Option.isSome_iff_ne_none]
        intro none
        rw [Kernel.modify_eq_none_iff.2 none] at modified
        cases modified
      rw [if_pos registered]

/-- A flush for a connection that has closed ends in an exception. -/
theorem Placed.writes_closed {loop after : EventLoop} {event : EpollEvent}
    {rest : List EpollEvent} {answers : List Answer} {id : Nat}
    {client : Client} {flushed : Connection.Flushed}
    (placed : loop.Placed id client.conn)
    (keyed : loop.connections event.fd = some id)
    (dead : client.conn.isAlive = false)
    (flush : client.conn.flushWrite answers = some flushed)
    (writes : Writes loop event rest id client flushed after) :
    after.phase = .threw (.modify (some event.fd)) := by
  cases placed with
  | alive fd lives _ _ _ _ =>
      rw [dead] at lives
      cases lives
  | closed _ socket file gone =>
      rcases flushWrite_of_closed dead socket file flush with
        ⟨nothing, quiet⟩
      cases writes with
      | partly left => exact absurd nothing left
      | drained _ =>
          rw [phase_modify, if_neg]
          rw [quiet]
          show ¬ (loop.kernel.interest event.fd).isSome = true
          rw [gone event.fd keyed]
          exact nofun

theorem Sound.writes {before after : EventLoop} (sound : before.Sound)
    {event : EpollEvent} {rest : List EpollEvent} {answers : List Answer}
    {id : Nat} {client : Client} {flushed : Connection.Flushed}
    (found : before.heap id = some client)
    (alive : client.conn.isAlive = true)
    (flush : client.conn.flushWrite answers = some flushed)
    (writes : Writes before event rest id client flushed after) :
    after.Sound := by
  have moves : Moves client.conn flushed.conn flushed.calls :=
    .of_flushes (Connection.flushWrite_flushes flush) rfl alive alive
  cases writes with
  | drained =>
      refine Sound.frame ?_ (.modify _ _ _ _)
      exact sound.put found moves
  | partly =>
      refine (Sound.put sound found ?_).aside _ _ _ _
      exact moves

/-- A call of `epoll_.modify` has thrown out of `run`. -/
def ModifyThrew (loop : EventLoop) : Prop :=
  ∃ socket, loop.phase = .threw (.modify socket)

/-- After an exception there are only workers and signals. -/
theorem step_of_threw {before after : EventLoop} {action : Action}
    {fault : Fault} (threw : before.phase = .threw fault)
    (stepped : machine.step before action = some after) :
    after.phase = .threw fault := by
  cases step_effect stepped with
  | wait _ phase | accept _ _ _ _ phase | handle _ _ phase | recv _ _ _ phase
  | write _ _ _ phase | drain _ _ phase | reap phase =>
      rw [threw] at phase
      cases phase
  | work index response _ finishes => cases finishes <;> exact threw
  | stop => exact threw

theorem ModifyThrew.step {before after : EventLoop} {action : Action}
    (threw : before.ModifyThrew)
    (stepped : machine.step before action = some after) :
    after.ModifyThrew := by
  rcases threw with ⟨socket, threw⟩
  exact ⟨socket, step_of_threw threw stepped⟩

/-- Every step keeps connections and descriptors together, or throws. -/
theorem Sound.step {before after : EventLoop} {action : Action}
    (sound : before.Sound) (stepped : machine.step before action = some after) :
    after.Sound ∨ after.ModifyThrew := by
  cases step_effect stepped with
  | wait | stop => exact Or.inl (sound.aside _ _ _ _)
  | accept clients last event rest _ _ next accepted =>
      exact Or.inl ((sound.acceptAll accepted).aside _ _ _ _)
  | handle event rest _ _ _ handles => exact Or.inl (sound.handles handles)
  | recv received event rest _ id client _ found _ reads =>
      exact Or.inl (sound.reads found reads)
  | write answers event rest _ id client flushed keyed found flush _ _ writes =>
      cases alive : client.conn.isAlive with
      | true => exact Or.inl (sound.writes found alive flush writes)
      | false =>
          exact Or.inr ⟨_, (sound.placed id client found).writes_closed keyed
            alive flush writes⟩
  | drain answers rest _ _ drains => exact Or.inl (sound.drains drains)
  | reap => exact Or.inl sound.reaped
  | work index response _ finishes =>
      cases finishes with
      | throws | posts => exact Or.inl (sound.aside _ _ _ _)

end EventLoop

end Cppws.App
