import Cppws.App.Ownership

/-!
# What is owed to a connection

A response is on its way as a task or as a pending write, and no more of them
are on their way than the connection has recognised and not been handed over.
With this the other facts about the event loop that hold in every state: no
descriptor has two events left in a batch, there is room to read into, and no
closed connection is stored between two iterations.
-/

namespace Cppws.App

open Cppws.Core
open Cppws.Http
open Cppws.Net

/-- The pending writes for a connection. -/
def toward (id : Nat) (queue : List PendingWrite) : Nat :=
  queue.countP fun pw => pw.conn = some id

theorem toward_cons (id : Nat) (pw : PendingWrite)
    (queue : List PendingWrite) :
    toward id (pw :: queue) =
      toward id queue + if pw.conn = some id then 1 else 0 := by
  rw [toward, List.countP_cons]
  simp only [decide_eq_true_eq]
  rfl

theorem toward_append (id : Nat) (first second : List PendingWrite) :
    toward id (first ++ second) = toward id first + toward id second :=
  List.countP_append

/-- A push adds at most the item itself. -/
theorem toward_push {queue after : TaskQueue PendingWrite} {pw : PendingWrite}
    {accepted : Bool} (pushed : queue.push pw = some (after, accepted))
    (id : Nat) :
    toward id after.queue ≤
      toward id queue.queue + if pw.conn = some id then 1 else 0 := by
  rcases TaskQueue.push_eq_some pushed with
    ⟨_, _, same⟩ | ⟨_, _, _, queued, _, _⟩
  · rw [same]
    exact Nat.le_add_right _ _
  · rw [queued, toward_append, toward_cons]
    simp [toward]

/-- The events that are being handled or still to be handled. -/
def Phase.events : Phase → List EpollEvent
  | .waiting => []
  | .handling batch => batch
  | .draining rest => rest
  | .reading event rest => event :: rest
  | .writing event rest => event :: rest
  | .threw _ => []

namespace EventLoop

/-! ## Responses on their way -/

/-- The responses on their way to a connection. -/
def owed (loop : EventLoop) (id : Nat) : Nat :=
  loop.tasks.count id + toward id loop.pendingWrites.queue

structure Counted (loop : EventLoop) : Prop where
  known : ∀ id client, loop.heap id = some client →
    client.answered + loop.owed id ≤ client.recognised
  unknown : ∀ id, loop.heap id = none → loop.owed id = 0

theorem start_counted (listenFd wakeupFd : Fd) :
    (start listenFd wakeupFd).Counted := by
  constructor
  · intro id client found
    cases found
  · exact fun id _ => rfl

theorem Counted.fewer {before after : EventLoop} (counted : before.Counted)
    (heap : after.heap = before.heap)
    (fewer : ∀ id, after.owed id ≤ before.owed id) : after.Counted := by
  constructor
  · intro id client found
    rw [heap] at found
    exact Nat.le_trans (Nat.add_le_add_left (fewer id) _)
      (counted.known id client found)
  · intro id absent
    rw [heap] at absent
    have nothing := fewer id
    rw [counted.unknown id absent] at nothing
    exact Nat.le_zero.1 nothing

/-- One connection changes. -/
theorem Counted.changes {before after : EventLoop} (counted : before.Counted)
    {id : Nat} {client moved : Client} (found : before.heap id = some client)
    (heap : after.heap = Function.update before.heap id (some moved))
    (itself : moved.answered + after.owed id ≤ moved.recognised)
    (others : ∀ other, other ≠ id →
      after.owed other ≤ before.owed other) :
    after.Counted := by
  constructor
  · intro other entry known
    rw [heap] at known
    by_cases same : other = id
    · rw [same, Function.update_self, Option.some.injEq] at known
      rw [same, ← known]
      exact itself
    · rw [Function.update_of_ne same] at known
      exact Nat.le_trans (Nat.add_le_add_left (others other same) _)
        (counted.known other entry known)
  · intro other absent
    rw [heap] at absent
    have different : other ≠ id := by
      rintro rfl
      rw [Function.update_self] at absent
      cases absent
    rw [Function.update_of_ne different] at absent
    have nothing := others other different
    rw [counted.unknown other absent] at nothing
    exact Nat.le_zero.1 nothing

/-- One connection changes and nothing else. -/
theorem Counted.put {before after : EventLoop} (counted : before.Counted)
    {id : Nat} {client moved : Client} (found : before.heap id = some client)
    (heap : after.heap = Function.update before.heap id (some moved))
    (tasks : after.tasks = before.tasks)
    (queue : after.pendingWrites = before.pendingWrites)
    (recognised : moved.recognised = client.recognised)
    (answered : moved.answered = client.answered) : after.Counted := by
  have same : ∀ other, after.owed other = before.owed other := by
    intro other
    rw [owed, owed, tasks, queue]
  apply counted.changes found heap
  · rw [recognised, answered, same]
    exact counted.known id client found
  · exact fun other _ => Nat.le_of_eq (same other)

theorem Counted.reads {before after : EventLoop} (counted : before.Counted)
    {event : EpollEvent} {rest : List EpollEvent} {received : Received}
    {id : Nat} {client : Client} (found : before.heap id = some client)
    (reads : Reads before event rest received id client after) :
    after.Counted := by
  have bound := counted.known id client found
  cases reads with
  | more | blocked | closes =>
      exact counted.put found rfl rfl rfl rfl rfl
  | posts _ _ _ _ data queue accepted pushed =>
      refine counted.changes found rfl ?_ fun other different => ?_
      · have added := toward_push pushed id
        rw [if_pos rfl] at added
        show client.answered +
          (before.tasks.count id + toward id queue.queue) ≤
            client.recognised + 1
        rw [owed] at bound
        omega
      · have added := toward_push pushed other
        rw [if_neg fun same => different (Option.some.inj same).symm] at added
        exact Nat.add_le_add_left added _
  | submits _ _ _ _ keepAlive =>
      refine counted.changes found rfl ?_ fun other different => ?_
      · show client.answered + ((before.tasks ++ [id]).count id +
          toward id before.pendingWrites.queue) ≤ client.recognised + 1
        rw [List.count_append, List.count_singleton_self]
        rw [owed] at bound
        omega
      · show (before.tasks ++ [id]).count other + _ ≤ _
        rw [List.count_append, List.count_singleton, if_neg]
        · exact Nat.le_refl _
        · simpa using different.symm

theorem Counted.drains {before after : EventLoop} (counted : before.Counted)
    {rest : List EpollEvent} {answers : List Answer}
    (drains : Drains before rest answers after) : after.Counted := by
  cases drains with
  | finishes => exact counted.fewer rfl fun id => Nat.le_refl _
  | discards pw queue popped =>
      refine counted.fewer rfl fun id => ?_
      rw [owed, owed, popped, toward_cons]
      exact Nat.add_le_add_left (Nat.le_add_right _ _) _
  | delivers pw queue popped id client flushed named found _ _ _ next same =>
      have bound := counted.known id client found
      have delivering : next.Counted := by
        rw [same]
        refine counted.changes found rfl ?_ fun other _ => ?_
        · rw [owed, popped, toward_cons, if_pos named] at bound
          show client.answered + 1 +
            (before.tasks.count id + toward id queue.queue) ≤
              client.recognised
          omega
        · show before.tasks.count other + toward other queue.queue ≤ _
          rw [owed, popped, toward_cons]
          exact Nat.add_le_add_left (Nat.le_add_right _ _) _
      have modified : ∀ events phase,
          (next.modify flushed.conn.socket events phase).Counted := by
        intro events phase
        unfold modify
        split <;> exact delivering.fewer rfl fun id => Nat.le_refl _
      split_ifs
      · exact modified _ _
      · exact delivering

theorem Counted.finishes {before after : EventLoop} (counted : before.Counted)
    {index : Nat} (finishes : Finishes before index after) :
    after.Counted := by
  have fewer : ∀ {id : Nat}, before.tasks[index]? = some id → ∀ other,
      (before.tasks.eraseIdx index).count other +
        (if id = other then 1 else 0) = before.tasks.count other := by
    intro id task other
    rcases List.getElem?_eq_some_iff.1 task with ⟨inside, task⟩
    have split := List.getElem_cons_eraseIdx_perm inside
    rw [← split.count_eq other, List.count_cons, task]
    simp
  cases finishes with
  | throws id task =>
      refine counted.fewer rfl fun other => ?_
      have less := fewer task other
      show (before.tasks.eraseIdx index).count other +
        toward other before.pendingWrites.queue ≤ _
      rw [owed]
      omega
  | posts id task pw named queue accepted pushed =>
      refine counted.fewer rfl fun other => ?_
      have less := fewer task other
      have added := toward_push pushed other
      simp only [named, Option.some.injEq] at added
      show (before.tasks.eraseIdx index).count other +
        toward other queue.queue ≤ _
      rw [owed]
      omega

theorem acceptOne_heap {before after : EventLoop} {fd : Fd}
    (accepted : before.acceptOne fd = some after) (id : Nat) :
    after.heap id = before.heap id ∨
      id = before.nextConnId ∧ ∃ client, after.heap id = some client ∧
        client.answered = 0 ∧ client.recognised = 0 ∧
          client.conn = .opened fd id := by
  cases (acceptOne_accepts accepted).1 with
  | stored _ _ _ heap =>
      rw [heap]
      by_cases new : id = before.nextConnId
      · rw [new, Function.update_self]
        exact Or.inr ⟨rfl, _, rfl, rfl, rfl, rfl⟩
      · rw [Function.update_of_ne new]
        exact Or.inl rfl
  | dropped _ _ _ _ heap =>
      rw [heap]
      exact Or.inl rfl

/-- A connection that was not there before is new. -/
theorem acceptAll_new {clients : List Fd} {before after : EventLoop}
    (sound : before.Sound) (accepted : before.acceptAll clients = some after)
    (id : Nat) :
    after.heap id = before.heap id ∨
      before.heap id = none ∧ ∃ client, after.heap id = some client ∧
        client.answered = 0 ∧ client.recognised = 0 ∧
          ∃ fd, client.conn = .opened fd id := by
  induction clients generalizing before with
  | nil =>
      cases accepted
      exact Or.inl rfl
  | cons fd rest ih =>
      rcases Option.bind_eq_some_iff.1 accepted with ⟨next, first, accepted⟩
      have absent := sound.unborn (Nat.le_refl before.nextConnId)
      rcases ih (sound.acceptOne first) accepted with same | ⟨absent', new⟩
      · rw [same]
        rcases acceptOne_heap first id with
          kept | ⟨rfl, client, found, zero⟩
        · exact Or.inl kept
        · exact Or.inr ⟨absent, client, found, zero.1, zero.2.1, fd,
            zero.2.2⟩
      · rcases acceptOne_heap first id with kept | ⟨rfl, _⟩
        · exact Or.inr ⟨kept ▸ absent', new⟩
        · exact Or.inr ⟨absent, new⟩

/-- What is not known before has just been opened. -/
theorem acceptAll_opened {clients : List Fd} {before after : EventLoop}
    (sound : before.Sound) (accepted : before.acceptAll clients = some after)
    {id : Nat} {client : Client} (found : after.heap id = some client) :
    before.heap id = some client ∨
      before.heap id = none ∧ ∃ fd, client.conn = .opened fd id := by
  rcases acceptAll_new sound accepted id with
    kept | ⟨absent, new, stored, _, _, made⟩
  · exact Or.inl (kept ▸ found)
  · rw [found, Option.some.injEq] at stored
    exact Or.inr ⟨absent, stored ▸ made⟩

theorem acceptAll_queues {clients : List Fd} {before after : EventLoop}
    (accepted : before.acceptAll clients = some after) :
    after.tasks = before.tasks ∧
      after.pendingWrites = before.pendingWrites ∧
      after.listenFd = before.listenFd ∧
        after.wakeupFd = before.wakeupFd := by
  induction clients generalizing before with
  | nil =>
      cases accepted
      exact ⟨rfl, rfl, rfl, rfl⟩
  | cons fd rest ih =>
      rcases Option.bind_eq_some_iff.1 accepted with ⟨next, first, accepted⟩
      rcases acceptOne_accepts first with
        ⟨_, _, _, listenFd, wakeupFd, tasks, pendingWrites, _⟩
      rcases ih accepted with ⟨tasks', pendingWrites', listenFd', wakeupFd'⟩
      exact ⟨tasks'.trans tasks, pendingWrites'.trans pendingWrites,
        listenFd'.trans listenFd, wakeupFd'.trans wakeupFd⟩

theorem Counted.accepts {clients : List Fd} {before after : EventLoop}
    (counted : before.Counted) (sound : before.Sound)
    (accepted : before.acceptAll clients = some after) : after.Counted := by
  rcases acceptAll_queues accepted with ⟨tasks, queue, _⟩
  have same : ∀ id, after.owed id = before.owed id := by
    intro id
    rw [owed, owed, tasks, queue]
  constructor
  · intro id client found
    rw [same]
    rcases acceptAll_new sound accepted id with
      kept | ⟨absent, new, found', answered, recognised, _⟩
    · exact counted.known id client (kept ▸ found)
    · rw [found, Option.some.injEq] at found'
      rw [found', answered, counted.unknown id absent]
      exact Nat.zero_le _
  · intro id absent
    rw [same]
    rcases acceptAll_new sound accepted id with
      kept | ⟨_, client, found, _⟩
    · exact counted.unknown id (kept ▸ absent)
    · rw [absent] at found
      cases found

theorem Counted.step {before after : EventLoop} {action : Action}
    (counted : before.Counted) (sound : before.Sound)
    (stepped : machine.step before action = some after) : after.Counted := by
  cases step_effect stepped with
  | wait | reap | stop => exact counted.fewer rfl fun id => Nat.le_refl _
  | accept clients last event rest _ _ next accepted =>
      exact (counted.accepts sound accepted).fewer rfl fun id => Nat.le_refl _
  | handle event rest _ _ _ handles =>
      cases handles with
      | closes id client keyed found =>
          exact counted.put found rfl rfl rfl rfl rfl
      | wakeup | stale | reads | writes | ignores =>
          exact counted.fewer rfl fun id => Nat.le_refl _
  | recv received event rest _ id client _ found _ reads =>
      exact counted.reads found reads
  | write answers event rest _ id client flushed _ found _ _ _ writes =>
      cases writes with
      | partly => exact counted.put found rfl rfl rfl rfl rfl
      | drained =>
          unfold modify
          split <;> exact counted.put found rfl rfl rfl rfl rfl
  | drain answers rest _ _ drains => exact counted.drains drains
  | work index response _ finishes => exact counted.finishes finishes

/-! ## The events of a batch -/

/-- No descriptor has two of them. -/
def Distinct (loop : EventLoop) : Prop :=
  (loop.phase.events.map EpollEvent.fd).Nodup

theorem events_modify (loop : EventLoop) (socket : Option Fd)
    (events : Events) (next : Phase) :
    (loop.modify socket events next).phase.events.Sublist next.events := by
  unfold modify
  split
  case h_1 => exact List.Sublist.refl _
  case h_2 => exact List.nil_sublist _

/-- Events come in a batch and are handled in turn. -/
theorem step_events {before after : EventLoop} {action : Action}
    (stepped : machine.step before action = some after) :
    after.phase.events.Sublist before.phase.events ∨
      ∃ batch, action = .wait batch ∧ after.phase.events = batch ∧
        before.kernel.Reports batch := by
  cases step_effect stepped with
  | wait batch _ reported => exact Or.inr ⟨batch, rfl, rfl, reported⟩
  | accept clients last event rest phase _ next _ =>
      rw [phase]
      refine Or.inl ?_
      cases last with
      | again | aborted => exact List.sublist_cons_self _ _
      | other => exact List.nil_sublist _
  | handle event rest phase _ _ handles =>
      rw [phase]
      refine Or.inl ?_
      cases handles with
      | wakeup | stale | closes | ignores => exact List.sublist_cons_self _ _
      | reads | writes => exact List.Sublist.refl _
  | recv received event rest phase id client _ _ _ reads =>
      refine Or.inl ?_
      cases reads with
      | more | posts | submits => exact List.Sublist.refl _
      | blocked =>
          rw [phase]
          dsimp only
          split_ifs
          · exact List.Sublist.refl _
          · exact List.sublist_cons_self _ _
      | closes =>
          rw [phase]
          exact List.sublist_cons_self _ _
  | write answers event rest phase id client flushed _ _ _ _ _ writes =>
      rw [phase]
      refine Or.inl ?_
      cases writes with
      | drained =>
          exact (events_modify _ _ _ _).trans (List.sublist_cons_self _ _)
      | partly => exact List.sublist_cons_self _ _
  | drain answers rest phase _ drains =>
      rw [phase]
      refine Or.inl ?_
      cases drains with
      | finishes => exact List.Sublist.refl _
      | discards =>
          show before.phase.events.Sublist _
          rw [phase]
      | delivers _ _ _ _ _ _ _ _ _ _ _ next same =>
          split_ifs
          · exact events_modify _ _ _ _
          · rw [same]
            show before.phase.events.Sublist _
            rw [phase]
  | reap => exact Or.inl (List.nil_sublist _)
  | work index response _ finishes =>
      cases finishes <;> exact Or.inl (List.Sublist.refl _)
  | stop => exact Or.inl (List.Sublist.refl _)

theorem Distinct.step {before after : EventLoop} {action : Action}
    (distinct : before.Distinct)
    (stepped : machine.step before action = some after) : after.Distinct := by
  rcases step_events stepped with fewer | ⟨batch, _, same, reported⟩
  · exact (fewer.map EpollEvent.fd).nodup distinct
  · rw [Distinct, same]
    exact reported.1

/-! ## Room to read -/

/-- No read buffer is full. -/
def Roomy (loop : EventLoop) : Prop :=
  ∀ id client, loop.heap id = some client →
    0 < client.conn.readBuf.writableBytes

theorem readBuf_onClosed (conn : Connection) :
    conn.onClosed.1.readBuf = conn.readBuf := by
  unfold Connection.onClosed
  split <;> rfl

theorem readBuf_of_flushes {conn : Connection} {answers : List Answer}
    {flushed : Connection.Flushed}
    (flushes : Connection.Flushes conn answers flushed) :
    flushed.conn.readBuf = conn.readBuf := by
  cases flushes with
  | opened _ _ _ _ _ readBuf => exact readBuf
  | shut _ _ _ last owner closed =>
      rw [closed, readBuf_onClosed, owner.readBuf]

theorem readBuf_of_delivered {pw : PendingWrite} {conn : Connection}
    {answers : List Answer} {flushed : Connection.Flushed}
    (delivered : pw.deliver conn answers = some flushed) :
    flushed.conn.readBuf = conn.readBuf := by
  rcases PendingWrite.deliver_flushes delivered with
    ⟨calls, _, _, flush, rfl, flushes⟩
  have handed : (pw.handedOver conn).readBuf = conn.readBuf := by
    unfold PendingWrite.handedOver
    cases pw.fileFd <;> rfl
  exact (readBuf_of_flushes flushes).trans handed

theorem Roomy.put {before after : EventLoop} (roomy : before.Roomy) {id : Nat}
    {moved : Client}
    (heap : after.heap = Function.update before.heap id (some moved))
    (room : 0 < moved.conn.readBuf.writableBytes) : after.Roomy := by
  intro other entry found
  rw [heap] at found
  by_cases same : other = id
  · rw [same, Function.update_self, Option.some.injEq] at found
    exact found ▸ room
  · rw [Function.update_of_ne same] at found
    exact roomy other entry found

theorem Roomy.step {before after : EventLoop} {action : Action}
    (roomy : before.Roomy) (sound : before.Sound)
    (stepped : machine.step before action = some after) : after.Roomy := by
  cases step_effect stepped with
  | wait | reap | stop => exact roomy
  | accept clients last event rest _ _ next accepted =>
      intro id client found
      rcases acceptAll_new sound accepted id with
        kept | ⟨_, new, found', _, _, fd, opened⟩
      · exact roomy id client (kept ▸ found)
      · have same : some client = some new := found ▸ found'
        rw [Option.some.inj same, opened]
        show 0 < Net.defaultCapacity - 0
        decide
  | handle event rest _ _ _ handles =>
      cases handles with
      | closes id client keyed found =>
          apply roomy.put rfl
          rw [readBuf_onClosed]
          exact roomy id client found
      | wakeup | stale | reads | writes | ignores => exact roomy
  | recv received event rest _ id client _ found _ reads =>
      have room := roomy id client found
      cases reads with
      | more _ _ _ kept | posts _ _ _ kept | submits _ _ _ kept
      | blocked _ _ kept => exact roomy.put rfl (kept room)
      | closes last readBuf read kept =>
          apply roomy.put rfl
          rw [readBuf_onClosed, read]
          exact kept room
  | write answers event rest _ id client flushed _ found flush _ _ writes =>
      have room := roomy id client found
      rw [← readBuf_of_flushes (Connection.flushWrite_flushes flush)] at room
      cases writes with
      | partly => exact roomy.put rfl room
      | drained =>
          unfold modify
          split <;> exact roomy.put rfl room
  | drain answers rest _ _ drains =>
      cases drains with
      | finishes | discards => exact roomy
      | delivers _ _ _ id client flushed _ found _ delivered _ next same =>
          have room := roomy id client found
          rw [← readBuf_of_delivered delivered] at room
          have delivering : next.Roomy := by
            rw [same]
            exact roomy.put rfl room
          split_ifs
          · unfold modify
            split <;> exact delivering
          · exact delivering
  | work index response _ finishes => cases finishes <;> exact roomy

/-! ## Between two iterations -/

/-- No closed connection is stored between two iterations. -/
def Tidy (loop : EventLoop) : Prop :=
  loop.phase = .waiting → ∀ fd, loop.dead fd = false

theorem dead_reaped (loop : EventLoop) (fd : Fd) :
    loop.reaped.dead fd = false := by
  apply Bool.eq_false_of_not_eq_true
  rw [dead_eq_true_iff]
  rintro ⟨id, client, stored, found, dead⟩
  have stored : (if loop.dead fd then none else loop.connections fd) =
      some id := stored
  split_ifs at stored with living
  exact living (dead_eq_true_iff.2 ⟨id, client, stored, found, dead⟩)

theorem Tidy.step {before after : EventLoop} {action : Action}
    (tidy : before.Tidy)
    (stepped : machine.step before action = some after) : after.Tidy := by
  intro waiting
  cases step_effect stepped with
  | wait => cases waiting
  | accept clients last => cases last <;> cases waiting
  | handle event rest _ _ _ handles => cases handles <;> cases waiting
  | recv received event rest phase id client _ _ _ reads =>
      cases reads with
      | more | posts | submits => cases phase.symm.trans waiting
      | closes => cases waiting
      | blocked =>
          dsimp only at waiting
          split_ifs at waiting
  | write answers event rest phase id client flushed _ _ _ _ _ writes =>
      cases writes with
      | partly => cases waiting
      | drained =>
          rw [phase_modify] at waiting
          split_ifs at waiting
  | drain answers rest phase _ drains =>
      cases drains with
      | finishes => cases waiting
      | discards => cases phase.symm.trans waiting
      | delivers _ _ _ _ _ flushed _ _ _ _ _ next same =>
          split_ifs at waiting
          · unfold modify at waiting
            split at waiting <;> cases waiting
          · rw [same] at waiting
            cases phase.symm.trans waiting
  | reap => exact fun fd => dead_reaped before fd
  | work index response _ finishes =>
      cases finishes <;> exact tidy waiting
  | stop => exact tidy waiting

/-! ## Every state -/

/-- What holds in every state unless `epoll_.modify` has thrown. -/
structure Standing (loop : EventLoop) : Prop where
  sound : loop.Sound
  counted : loop.Counted
  distinct : loop.Distinct
  roomy : loop.Roomy
  tidy : loop.Tidy

theorem start_standing (listenFd wakeupFd : Fd) :
    (start listenFd wakeupFd).Standing where
  sound := start_sound listenFd wakeupFd
  counted := start_counted listenFd wakeupFd
  distinct := List.nodup_nil
  roomy := fun id client found => by cases found
  tidy := fun _ fd => rfl

theorem Standing.step {before after : EventLoop} {action : Action}
    (standing : before.Standing)
    (stepped : machine.step before action = some after)
    (works : ¬ after.ModifyThrew) : after.Standing where
  sound := (standing.sound.step stepped).resolve_right works
  counted := standing.counted.step standing.sound stepped
  distinct := standing.distinct.step stepped
  roomy := standing.roomy.step standing.sound stepped
  tidy := standing.tidy.step stepped

/--
What every step keeps unless `epoll_.modify` throws holds in every state of
every run, with what is known of these states already.
-/
theorem standing_and_of_reachable {property : EventLoop → Prop}
    (preserved : ∀ before action after, before.Standing →
      property before →
      machine.step before action = some after → ¬ after.ModifyThrew →
        property after)
    {listenFd wakeupFd : Fd} (initially : property (start listenFd wakeupFd))
    {loop : EventLoop}
    (reachable : machine.Reachable (start listenFd wakeupFd) loop)
    (works : ¬ loop.ModifyThrew) : loop.Standing ∧ property loop := by
  have kept : ∀ (before : EventLoop) (action : Action) (after : EventLoop),
      before.Standing ∧ property before ∨ before.ModifyThrew →
        machine.step before action = some after →
          after.Standing ∧ property after ∨ after.ModifyThrew := by
    rintro before action after (⟨standing, holds⟩ | threw) stepped
    · by_cases threw : after.ModifyThrew
      · exact Or.inr threw
      · exact Or.inl ⟨standing.step stepped threw,
          preserved before action after standing holds stepped threw⟩
    · exact Or.inr (threw.step stepped)
  have holds := reachable.invariant kept
    (Or.inl ⟨start_standing listenFd wakeupFd, initially⟩)
  exact holds.resolve_right works

end EventLoop

end Cppws.App
