import Cppws.App.Trace
import Cppws.Net.FileUses
import Mathlib.Algebra.Order.Group.Multiset
import Mathlib.Tactic.Abel

/-!
# Who owns the file of a response

The event loop with the files of the responses that are posted to it: the calls
of `post_response` that have not ended their push, and what has been done with
every file since.  A file that is opened for a response is a handle of its own.
A response that `drain_pending_writes` has taken is handed over or dropped
within one step.
-/

namespace Cppws.Core

open Cppws.Net
open HandleUse (table)

namespace PendingWrite

/-- The file of the response. -/
def handle (pw : PendingWrite) : Option Nat :=
  pw.fileFd.map OpenFile.handle

/-- What delivering the response does with files, in order. -/
def deliverUses (pw : PendingWrite) (conn : Connection)
    (answers : List Answer) : List (HandleUse Nat) :=
  let queued := conn.enqueueWrite pw.data
  match pw.fileFd with
  | some file =>
      let begun := queued.beginSendfile file pw.fileSize
      fileCloses begun.2 ++ begun.1.flushUses answers
  | none => queued.flushUses answers

theorem opened_deliverUses (pw : PendingWrite) (conn : Connection)
    (answers : List Answer) :
    HandleUse.opened (pw.deliverUses conn answers) = [] := by
  unfold deliverUses
  cases pw.fileFd with
  | none => exact Connection.opened_flushUses _ _
  | some file =>
      dsimp only
      rw [HandleUse.opened_append, opened_fileCloses,
        Connection.opened_flushUses]
      rfl

/-- The file goes to the connection, which closes the one it holds. -/
theorem deliverUses_run {pw : PendingWrite} {conn : Connection}
    {answers : List Answer} {flushed : Connection.Flushed}
    (delivered : pw.deliver conn answers = some flushed) :
    table.run (↑conn.handle.toList + ↑pw.handle.toList)
        (pw.deliverUses conn answers) = some ↑flushed.conn.handle.toList := by
  unfold deliver at delivered
  unfold deliverUses handle
  cases found : pw.fileFd with
  | none =>
      rw [found] at delivered
      have alone : (conn.handle.toList : Multiset Nat) +
          ↑(Option.map OpenFile.handle none).toList = ↑conn.handle.toList :=
        Multiset.add_zero _
      rw [alone]
      exact Connection.flushUses_run delivered
  | some file =>
      rw [found] at delivered
      rcases Option.map_eq_some_iff.1 delivered with ⟨flush, ran, rfl⟩
      have replaced : Connection.Releases conn
          { conn with sendfileOp := none } (releaseFile conn.sendfileOp) :=
        .destructs rfl
      have given := HandleUse.run_add replaced
        ((some file.handle).toList : Multiset Nat)
      exact HandleUse.run_append given (Connection.flushUses_run ran)

end PendingWrite

end Cppws.Core

namespace Cppws.App

open Cppws.Core
open Cppws.Http
open Cppws.Net
open HandleUse (table)

/-! ## The event loop with its files -/

namespace EventLoop

/-- The file that a connection holds. -/
def handleAt (loop : EventLoop) (id : Nat) : Option Nat :=
  (loop.heap id).bind fun client => client.conn.handle

/-- What `handle_event` does with files before its first system call. -/
def handleUses (loop : EventLoop) (event : EpollEvent) :
    List (HandleUse Nat) :=
  if event.fd = loop.wakeupFd then
    []
  else
    match loop.find event.fd with
    | none => []
    | some (_, client) =>
        if event.isClosed then fileCloses client.conn.onClosed.2 else []

/-- What one round of `drain_pending_writes` does with files. -/
def drainUses (loop : EventLoop) (answers : List Answer) :
    List (HandleUse Nat) :=
  match loop.pendingWrites.queue with
  | [] => []
  | pw :: _ =>
      match loop.deref pw.conn with
      | none => fileCloses (releasePending pw)
      | some (_, client) =>
          if client.conn.isAlive then
            pw.deliverUses client.conn answers
          else
            fileCloses (releasePending pw)

/-- What a step does with files, in order. -/
def fileUses (loop : EventLoop) : Action → List (HandleUse Nat)
  | .handle =>
      match loop.phase with
      | .handling (event :: _) => loop.handleUses event
      | _ => []
  | .recv received =>
      match loop.currentClient with
      | some (_, client) => fileCloses (client.conn.readOnce received).2.1
      | none => []
  | .write answers =>
      match loop.currentClient with
      | some (_, client) => client.conn.flushUses answers
      | none => []
  | .drain answers => loop.drainUses answers
  | _ => []

/-- The step ends a call of `post_response` by a worker. -/
def Action.posts : Action → Bool
  | .work _ (some _) => true
  | _ => false

end EventLoop

structure Files where
  loop : EventLoop
  /-- The responses that workers are pushing. -/
  pushing : List PendingWrite := []
  /-- What has been done with files; one is opened when it is posted. -/
  log : List (HandleUse Nat) := []

namespace Files

inductive Action where
  /-- A worker calls `post_response`. -/
  | post (pw : PendingWrite)
  /-- The response is pushed, and the task ends. -/
  | push (slot index : Nat)
  | loop (action : EventLoop.Action)

def step (files : Files) : Action → Option Files
  | .post pw =>
      if ∀ handle ∈ pw.handle, handle ∉ HandleUse.opened files.log then
        some
          { files with
            pushing := files.pushing ++ [pw]
            log := files.log ++ pw.handle.toList.map .opens }
      else
        none
  | .push slot index =>
      files.pushing[slot]?.bind fun pw =>
        (files.loop.step (.work index (some pw))).map fun next =>
          { files with loop := next, pushing := files.pushing.eraseIdx slot }
  | .loop action =>
      if action.posts then
        none
      else
        (files.loop.step action).map fun next =>
          { files with
            loop := next
            log := files.log ++ files.loop.fileUses action }

def machine : Machine Files Action where
  step := step

/-- The event loop when `run` begins. -/
def start (listenFd wakeupFd : Fd) : Files where
  loop := .start listenFd wakeupFd

/-- Where a file can be. -/
inductive Place where
  /-- In a response that a worker is pushing. -/
  | pushing (slot : Nat)
  /-- In a response of `pending_writes_`. -/
  | queued (position : Nat)
  /-- In the `sendfile_op_` of a connection. -/
  | sending (id : Nat)
  /-- It was closed at this place of the log. -/
  | closed (turn : Nat)

/-- The file is there. -/
def At (files : Files) (handle : Nat) : Place → Prop
  | .pushing slot =>
      ∃ pw, files.pushing[slot]? = some pw ∧ pw.handle = some handle
  | .queued position =>
      ∃ pw, files.loop.pendingWrites.queue[position]? = some pw ∧
        pw.handle = some handle
  | .sending id =>
      ∃ client, files.loop.heap id = some client ∧
        client.conn.handle = some handle
  | .closed turn => files.log[turn]? = some (.closes handle)

/-- What becomes of the files that are posted. -/
structure SingleOwner (files : Files) : Prop where
  /-- Every file that was posted is in exactly one place. -/
  owned : ∀ handle ∈ HandleUse.opened files.log,
    ∃! place, files.At handle place
  /-- No file is closed twice. -/
  once : ∀ handle, (HandleUse.closed files.log).count handle ≤ 1
  /-- No file is sent from after it has been closed. -/
  openWhenSent : ∀ earlier later handle,
    files.log = earlier ++ .uses handle :: later → .closes handle ∉ earlier
  /-- A connection that holds a file is not destroyed. -/
  stored : ∀ id client handle, files.loop.heap id = some client →
    client.conn.handle = some handle →
      ∃ fd, files.loop.connections fd = some id

end Files

/-! ## What a step does with the files that are held -/

namespace EventLoop

/-- The files of the responses in `pending_writes_`. -/
def queuedFiles (loop : EventLoop) : Multiset Nat :=
  ↑(loop.pendingWrites.queue.filterMap PendingWrite.handle)

/-- The files of the connections. -/
def sentFiles (loop : EventLoop) : Multiset Nat :=
  ↑((List.range loop.nextConnId).filterMap loop.handleAt)

/-- One connection changes, and the others keep their files. -/
theorem Replaces.sentFiles {before after : EventLoop} {id : Nat}
    {client moved : Client} (replaces : Replaces before after id moved)
    (sound : before.Sound) (found : before.heap id = some client) :
    ∃ others : Multiset Nat,
      before.sentFiles = ↑client.conn.handle.toList + others ∧
        after.sentFiles = ↑moved.conn.handle.toList + others := by
  have bounded : id < before.nextConnId :=
    sound.numbered id (by rw [found]; rfl)
  have own : before.handleAt =
      Function.update before.handleAt id client.conn.handle := by
    rw [eq_comm, Function.update_eq_self_iff, handleAt, found]
    rfl
  have changed : after.handleAt =
      Function.update before.handleAt id moved.conn.handle := by
    funext other
    rw [handleAt, replaces.heap]
    by_cases same : other = id
    · rw [same, Function.update_self, Function.update_self]
      rfl
    · rw [Function.update_of_ne same, Function.update_of_ne same]
      rfl
  refine ⟨↑((List.range before.nextConnId).filterMap
    (Function.update before.handleAt id none)), ?_, ?_⟩
  · rw [EventLoop.sentFiles, own, Function.update_idem]
    exact filterMap_update bounded _
  · rw [EventLoop.sentFiles, changed, replaces.nextConnId]
    exact filterMap_update bounded _

/-- What one connection does with its file is what is done with all of them. -/
theorem Replaces.run {before after : EventLoop} {id : Nat}
    {client moved : Client} {uses : List (HandleUse Nat)}
    (replaces : Replaces before after id moved) (sound : before.Sound)
    (found : before.heap id = some client)
    (ran : table.run (client.conn.handle.toList : Multiset Nat) uses =
      some ↑moved.conn.handle.toList)
    (queued : after.queuedFiles = before.queuedFiles) :
    table.run (before.sentFiles + before.queuedFiles) uses =
      some (after.sentFiles + after.queuedFiles) := by
  rcases replaces.sentFiles sound found with ⟨others, own, changed⟩
  rw [own, changed, queued]
  exact HandleUse.run_add (HandleUse.run_add ran others) _

theorem handleEvent_run {loop : EventLoop} (sound : loop.Sound)
    (event : EpollEvent) (rest : List EpollEvent) :
    table.run (loop.sentFiles + loop.queuedFiles) (loop.handleUses event) =
      some ((loop.handleEvent event rest).sentFiles +
        (loop.handleEvent event rest).queuedFiles) := by
  unfold handleUses handleEvent
  cases found : loop.find event.fd with
  | none =>
      dsimp only
      split_ifs <;> rfl
  | some entry =>
      have heap := (find_eq_some_iff.1 found).2
      dsimp only
      split_ifs with woken closed
      · rfl
      · have replaces : Replaces loop
            { loop.put entry.1
                { entry.2 with conn := entry.2.conn.onClosed.1 }
                entry.2.conn.onClosed.2 with
              phase := .handling rest } entry.1
            { entry.2 with conn := entry.2.conn.onClosed.1 } :=
          ⟨rfl, rfl, rfl⟩
        exact replaces.run sound heap
          (Connection.onClosed_releases entry.2.conn) rfl
      · rfl
      · rfl
      · rfl

theorem readCallback_conn (conn : Connection) (parser : HttpParser) :
    (readCallback conn parser).1.handle = conn.handle ∧
      (readCallback conn parser).1.state = conn.state := by
  unfold readCallback
  dsimp only
  split <;> exact ⟨rfl, rfl⟩

/-- What the read callback pushes has no file. -/
theorem queuedFiles_of_callback {loop after : EventLoop} {id : Nat}
    (queued : after.pendingWrites = loop.pendingWrites ∨
      ∃ data accepted,
        loop.pendingWrites.push { conn := some id, data := data } =
          some (after.pendingWrites, accepted)) :
    after.queuedFiles = loop.queuedFiles := by
  rw [queuedFiles, queuedFiles]
  rcases queued with same | ⟨data, accepted, pushed⟩
  · rw [same]
  · rcases TaskQueue.push_eq_some pushed with
      ⟨_, _, same⟩ | ⟨_, _, _, queued, _⟩
    · rw [same]
    · rw [queued, List.filterMap_append]
      exact congrArg _ (List.append_nil _)

/-- A round of `on_readable` does to files what its `recv` does. -/
theorem readSome_files {loop after : EventLoop} {event : EpollEvent}
    {rest : List EpollEvent} {received : Received}
    (ran : loop.readSome event rest received = some after) :
    ∃ id client, loop.find event.fd = some (id, client) ∧
      ∃ moved : Client, Replaces loop after id moved ∧
        moved.conn.handle = (client.conn.readOnce received).1.handle ∧
        moved.conn.state = (client.conn.readOnce received).1.state ∧
        after.queuedFiles = loop.queuedFiles := by
  rcases readSome_replaces ran with
    ⟨id, client, found, ⟨moved, replaces, conn⟩, queued⟩
  rcases readCallback_conn (client.conn.readOnce received).1 client.parser with
    ⟨handle, state⟩
  refine ⟨id, client, found, moved, replaces, ?_, ?_,
    queuedFiles_of_callback queued⟩
  · rw [conn]
    split_ifs
    · exact handle
    · rfl
  · rw [conn]
    split_ifs
    · exact state
    · rfl

theorem queuedFiles_modify (loop : EventLoop) (socket : Option Fd)
    (events : Events) (next : Phase) :
    (loop.modify socket events next).queuedFiles = loop.queuedFiles := by
  rw [queuedFiles, (Trace.modify_queues loop socket events next).2]
  rfl

theorem Writes.queuedFiles {loop after : EventLoop} {event : EpollEvent}
    {rest : List EpollEvent} {id : Nat} {client : Client}
    {flushed : Connection.Flushed}
    (writes : Writes loop event rest id client flushed after) :
    after.queuedFiles = loop.queuedFiles := by
  cases writes with
  | drained => exact queuedFiles_modify _ _ _ _
  | partly => rfl

/-- A response is taken out of `pending_writes_`. -/
theorem queuedFiles_of_popped {loop : EventLoop} {pw : PendingWrite}
    {queue : TaskQueue PendingWrite}
    (popped : loop.pendingWrites.queue = pw :: queue.queue) :
    loop.queuedFiles = ↑pw.handle.toList +
      ↑(queue.queue.filterMap PendingWrite.handle) := by
  rw [queuedFiles, popped, List.filterMap_cons]
  cases pw.handle <;> rfl

theorem fileCloses_releasePending (pw : PendingWrite) :
    fileCloses (releasePending pw) = pw.handle.toList.map .closes := by
  unfold releasePending PendingWrite.handle
  cases pw.fileFd <;> rfl

/-- A response that is dropped has its file closed. -/
theorem drop_run {loop : EventLoop} {pw : PendingWrite}
    {queue : TaskQueue PendingWrite}
    (popped : loop.pendingWrites.queue = pw :: queue.queue) :
    table.run (loop.sentFiles + loop.queuedFiles)
        (fileCloses (releasePending pw)) =
      some (loop.sentFiles +
        ↑(queue.queue.filterMap PendingWrite.handle)) := by
  have dropped := HandleUse.run_add (HandleUse.run_closes pw.handle)
    (↑(queue.queue.filterMap PendingWrite.handle) + loop.sentFiles)
  rw [Multiset.zero_add, ← Multiset.add_assoc,
    ← queuedFiles_of_popped popped] at dropped
  rw [fileCloses_releasePending, Multiset.add_comm, dropped, Multiset.add_comm]

theorem drainOne_run {loop after : EventLoop} (sound : loop.Sound)
    {rest : List EpollEvent} {answers : List Answer}
    (ran : loop.drainOne rest answers = some after) :
    table.run (loop.sentFiles + loop.queuedFiles) (loop.drainUses answers) =
      some (after.sentFiles + after.queuedFiles) := by
  unfold drainUses
  cases drainOne_drains ran with
  | finishes empty =>
      rw [empty]
      rfl
  | discards pw queue popped gone =>
      rw [popped]
      cases found : loop.deref pw.conn with
      | none =>
          simp only [found]
          exact drop_run popped
      | some entry =>
          have dead := gone entry.1 entry.2 found
          simp only [found, dead, Bool.false_eq_true, if_false]
          exact drop_run popped
  | delivers pw queue popped id client flushed named found alive delivered
      used next same =>
      have known : loop.deref pw.conn = some (id, client) :=
        deref_eq_some_iff.2 ⟨named, found⟩
      have delivering : Replaces loop next id
          { client with
            conn := flushed.conn
            answered := client.answered + 1 } := by
        rw [same]
        exact ⟨rfl, rfl, rfl⟩
      have queued : ∀ socket phase,
          (if 0 < flushed.remaining then next.modify socket writeMask phase
            else next).queuedFiles =
              ↑(queue.queue.filterMap PendingWrite.handle) := by
        intro socket phase
        split_ifs
        · rw [queuedFiles_modify, same]
          rfl
        · rw [same]
          rfl
      have replaces := delivering.modify_if flushed.remaining
        flushed.conn.socket writeMask (.draining rest)
      rcases replaces.sentFiles sound found with ⟨others, own, changed⟩
      have handed := HandleUse.run_add (PendingWrite.deliverUses_run delivered)
        (others + ↑(queue.queue.filterMap PendingWrite.handle))
      have reordered : loop.sentFiles + loop.queuedFiles =
          (↑client.conn.handle.toList + ↑pw.handle.toList) +
            (others + ↑(queue.queue.filterMap PendingWrite.handle)) := by
        rw [own, queuedFiles_of_popped popped]
        exact add_add_add_comm _ _ _ _
      rw [popped]
      simp only [known, alive, if_true]
      rw [reordered, handed, changed, queued, Multiset.add_assoc]

theorem acceptOne_sentFiles {before after : EventLoop} (sound : before.Sound)
    {fd : Fd} (accepted : before.acceptOne fd = some after) :
    after.sentFiles = before.sentFiles := by
  rcases acceptOne_accepts accepted with ⟨accepts, counted, _⟩
  have older : ∀ id ∈ List.range before.nextConnId,
      id ≠ before.nextConnId :=
    fun id member => Nat.ne_of_lt (List.mem_range.1 member)
  have same : after.handleAt before.nextConnId = none ∧
      ∀ id ∈ List.range before.nextConnId,
        after.handleAt id = before.handleAt id := by
    cases accepts with
    | stored _ _ _ heap =>
        unfold handleAt
        rw [heap]
        refine ⟨?_, fun id member => ?_⟩
        · rw [Function.update_self]
          rfl
        · rw [Function.update_of_ne (older id member)]
    | dropped _ _ _ _ heap =>
        unfold handleAt
        rw [heap]
        refine ⟨?_, fun _ _ => rfl⟩
        rw [sound.unborn (Nat.le_refl before.nextConnId)]
        rfl
  rw [EventLoop.sentFiles, EventLoop.sentFiles, counted, List.range_succ,
    List.filterMap_append, List.filterMap_cons_none same.1,
    List.filterMap_congr same.2]
  exact congrArg _ (List.append_nil _)

theorem acceptAll_sentFiles {clients : List Fd} {before after : EventLoop}
    (sound : before.Sound) (accepted : before.acceptAll clients = some after) :
    after.sentFiles = before.sentFiles := by
  induction clients generalizing before with
  | nil =>
      cases accepted
      rfl
  | cons fd rest ih =>
      rcases Option.bind_eq_some_iff.1 accepted with ⟨next, first, accepted⟩
      rw [ih (sound.acceptOne first) accepted, acceptOne_sentFiles sound first]

/-- A phase in which the event loop has not thrown. -/
theorem sound_of_phase {loop : EventLoop}
    (sound : loop.Sound ∨ loop.ModifyThrew)
    {phase : Phase} (current : loop.phase = phase)
    (works : ∀ socket, phase ≠ .threw (.modify socket)) : loop.Sound := by
  rcases sound with sound | ⟨socket, threw⟩
  · exact sound
  · exact absurd (current.symm.trans threw) (works socket)

/-- Every step uses files that are held, and closes those it gives up. -/
theorem fileUses_run {before after : EventLoop} {action : Action}
    (sound : before.Sound ∨ before.ModifyThrew)
    (stepped : machine.step before action = some after)
    (own : action.posts = false) :
    table.run (before.sentFiles + before.queuedFiles)
        (before.fileUses action) =
      some (after.sentFiles + after.queuedFiles) := by
  have ran : before.step action = some after := stepped
  have effect := step_effect stepped
  cases action with
  | wait | reap | stop =>
      cases effect
      rfl
  | accept clients last =>
      cases effect with
      | accept _ _ event rest phase _ next accepted =>
          have living := sound_of_phase sound phase fun _ same => by cases same
          rcases acceptAll_queues accepted with ⟨_, queue, _⟩
          have sent := acceptAll_sentFiles living accepted
          have queued : next.queuedFiles = before.queuedFiles := by
            rw [queuedFiles, queuedFiles, queue]
          exact congrArg some (congrArg₂ _ sent.symm queued.symm)
  | handle =>
      simp only [step] at ran
      split at ran
      case h_1 event rest phase =>
        split_ifs at ran
        cases ran
        have living := sound_of_phase sound phase fun _ same => by cases same
        simp only [fileUses, phase]
        exact handleEvent_run living event rest
      case h_2 => cases ran
  | recv received =>
      simp only [step] at ran
      split at ran
      case h_1 event rest phase =>
        have living := sound_of_phase sound phase fun _ same => by cases same
        rcases readSome_files ran with
          ⟨id, client, found, moved, replaces, handle, _, queued⟩
        simp only [fileUses, currentClient, phase, found]
        refine replaces.run living (find_eq_some_iff.1 found).2 ?_ queued
        rw [handle]
        exact Connection.readOnce_releases client.conn received
      case h_2 => cases ran
  | write answers =>
      cases effect with
      | write _ event rest phase id client flushed keyed found flush _ _
          writes =>
          have living := sound_of_phase sound phase fun _ same => by cases same
          have known : before.find event.fd = some (id, client) :=
            find_eq_some_iff.2 ⟨keyed, found⟩
          simp only [fileUses, currentClient, phase, known]
          exact writes.replaces.run living found
            (Connection.flushUses_run flush) writes.queuedFiles
  | drain answers =>
      simp only [step] at ran
      split at ran
      case h_1 rest phase =>
        have living := sound_of_phase sound phase fun _ same => by cases same
        exact drainOne_run living ran
      case h_2 => cases ran
  | work index response =>
      cases response with
      | none =>
          rcases Option.bind_eq_some_iff.1 ran with ⟨id, _, ran⟩
          cases ran
          rfl
      | some pw => cases own

/-- The event loop opens no files itself. -/
theorem opened_fileUses (loop : EventLoop) (action : Action) :
    HandleUse.opened (loop.fileUses action) = [] := by
  cases action with
  | wait | accept | reap | work | stop => rfl
  | handle =>
      simp only [fileUses, handleUses]
      split
      case h_1 event _ _ =>
        split
        · rfl
        · split
          · rfl
          · split
            · exact opened_fileCloses _
            · rfl
      case h_2 => rfl
  | recv received =>
      simp only [fileUses]
      split
      · exact opened_fileCloses _
      · rfl
  | write answers =>
      simp only [fileUses]
      split
      · exact Connection.opened_flushUses _ _
      · rfl
  | drain answers =>
      simp only [fileUses, drainUses]
      split
      · rfl
      · split
        · exact opened_fileCloses _
        · split
          · exact PendingWrite.opened_deliverUses _ _ _
          · exact opened_fileCloses _

/-- The response of a task is pushed, with its file. -/
theorem push_files {before after : EventLoop} {index : Nat} {pw : PendingWrite}
    (opened : before.pendingWrites.closed = false)
    (stepped : machine.step before (.work index (some pw)) = some after) :
    after.sentFiles = before.sentFiles ∧
      after.queuedFiles = before.queuedFiles + ↑pw.handle.toList := by
  have ran : before.finished index (some pw) = some after := stepped
  rcases Option.bind_eq_some_iff.1 ran with ⟨id, _, ran⟩
  rcases Option.map_eq_some_iff.1 ran with
    ⟨⟨queue, accepted⟩, pushed, rfl⟩
  refine ⟨rfl, ?_⟩
  rcases TaskQueue.push_eq_some pushed with
    ⟨closed, _⟩ | ⟨_, _, _, queued, _⟩
  · rw [opened] at closed
    cases closed
  · have last : [{ pw with conn := some id }].filterMap PendingWrite.handle =
        pw.handle.toList := by
      unfold PendingWrite.handle
      cases pw.fileFd <;> simp
    rw [queuedFiles, queuedFiles]
    dsimp only
    rw [queued, List.filterMap_append, last]
    rfl

/-! ## Connections that hold a file are stored -/

/-- A connection that holds a file is alive and in `connections_`. -/
structure Rooted (loop : EventLoop) : Prop where
  numbered : ∀ id, (loop.heap id).isSome → id < loop.nextConnId
  stored : ∀ id client handle, loop.heap id = some client →
    client.conn.handle = some handle →
      client.conn.isAlive = true ∧ ∃ fd, loop.connections fd = some id

theorem Rooted.replaces {before after : EventLoop} {id : Nat}
    {client moved : Client} (rooted : before.Rooted)
    (found : before.heap id = some client)
    (replaces : Replaces before after id moved)
    (own : ∀ handle, moved.conn.handle = some handle →
      moved.conn.isAlive = true ∧ ∃ fd, before.connections fd = some id) :
    after.Rooted where
  numbered := by
    intro other known
    rw [replaces.heap] at known
    rw [replaces.nextConnId]
    apply rooted.numbered
    by_cases same : other = id
    · rw [same, found]
      rfl
    · rwa [Function.update_of_ne same] at known
  stored := by
    intro other entry handle known held
    rw [replaces.heap] at known
    rw [replaces.connections]
    by_cases same : other = id
    · rw [same, Function.update_self, Option.some.injEq] at known
      rw [same, ← known]
      exact own handle (known ▸ held)
    · rw [Function.update_of_ne same] at known
      exact rooted.stored other entry handle known held

/-- A connection that keeps its file keeps its state. -/
theorem Rooted.stays {before after : EventLoop} {id : Nat}
    {client moved : Client} {conn : Connection} {calls : List Call}
    (rooted : before.Rooted) (found : before.heap id = some client)
    (replaces : Replaces before after id moved)
    (handle : moved.conn.handle = conn.handle)
    (state : moved.conn.state = conn.state)
    (releases : Connection.Releases client.conn conn calls)
    (stays : Connection.Stays client.conn conn) : after.Rooted := by
  refine rooted.replaces found replaces fun file held => ?_
  rw [handle] at held
  rcases rooted.stored id client file found (releases.handle_eq held) with
    ⟨alive, stored⟩
  have still : moved.conn.state = client.conn.state :=
    state.trans (stays (by rw [held]; exact Option.some_ne_none _))
  refine ⟨?_, stored⟩
  rw [Connection.isAlive, still]
  exact alive

theorem Rooted.congr {before after : EventLoop} (rooted : before.Rooted)
    (heap : after.heap = before.heap)
    (nextConnId : after.nextConnId = before.nextConnId)
    (connections : after.connections = before.connections) :
    after.Rooted := by
  constructor
  · rw [heap, nextConnId]
    exact rooted.numbered
  · rw [heap, connections]
    exact rooted.stored

theorem Rooted.acceptOne {before after : EventLoop} (rooted : before.Rooted)
    {fd : Fd} (accepted : before.acceptOne fd = some after) :
    after.Rooted := by
  rcases acceptOne_accepts accepted with ⟨accepts, counted, _⟩
  cases accepts with
  | stored free _ connections heap =>
      constructor
      · intro id known
        rw [heap] at known
        rw [counted]
        by_cases new : id = before.nextConnId
        · exact Nat.lt_succ_of_le (Nat.le_of_eq new)
        · rw [Function.update_of_ne new] at known
          exact Nat.lt_succ_of_lt (rooted.numbered id known)
      · intro id client handle found held
        rw [heap] at found
        by_cases new : id = before.nextConnId
        · rw [new, Function.update_self, Option.some.injEq] at found
          rw [← found] at held
          cases held
        · rw [Function.update_of_ne new] at found
          rcases rooted.stored id client handle found held with
            ⟨alive, key, stored⟩
          refine ⟨alive, key, ?_⟩
          have different : key ≠ fd := by
            rintro rfl
            rw [free] at stored
            cases stored
          rw [connections, Function.update_of_ne different]
          exact stored
  | dropped _ _ _ connections heap =>
      constructor
      · rw [heap, counted]
        exact fun id known => Nat.lt_succ_of_lt (rooted.numbered id known)
      · rw [heap, connections]
        exact rooted.stored

theorem Rooted.acceptAll {clients : List Fd} {before after : EventLoop}
    (rooted : before.Rooted)
    (accepted : before.acceptAll clients = some after) : after.Rooted := by
  induction clients generalizing before with
  | nil =>
      cases accepted
      exact rooted
  | cons fd rest ih =>
      rcases Option.bind_eq_some_iff.1 accepted with ⟨next, first, accepted⟩
      exact ih (rooted.acceptOne first) accepted

/-- Only connections that hold no file are reaped. -/
theorem Rooted.reaped {loop : EventLoop} (rooted : loop.Rooted) :
    loop.reaped.Rooted := by
  refine ⟨rooted.numbered, ?_⟩
  intro id client handle found held
  have known : loop.heap id = some client := found
  rcases rooted.stored id client handle known held with ⟨alive, fd, stored⟩
  refine ⟨alive, fd, ?_⟩
  have living : ¬ loop.dead fd = true := by
    rw [dead_eq_true_iff]
    rintro ⟨other, entry, stored', found', dead⟩
    rw [stored, Option.some.injEq] at stored'
    rw [← stored', known, Option.some.injEq] at found'
    rw [← found', alive] at dead
    cases dead
  show (if loop.dead fd then none else loop.connections fd) = some id
  rw [if_neg living]
  exact stored

theorem Rooted.handles {before after : EventLoop} (rooted : before.Rooted)
    {event : EpollEvent} {rest : List EpollEvent}
    (handles : Handles before event rest after) : after.Rooted := by
  cases handles with
  | closes id client keyed found closed =>
      refine rooted.stays found ⟨rfl, rfl, rfl⟩ ?_ ?_
        (Connection.onClosed_releases client.conn)
        (Connection.onClosed_stays client.conn)
      · rfl
      · rfl
  | wakeup | stale | reads | writes | ignores => exact rooted.congr rfl rfl rfl

theorem Rooted.drains {before after : EventLoop} (rooted : before.Rooted)
    (sound : before.Sound) {rest : List EpollEvent} {answers : List Answer}
    (drains : Drains before rest answers after) : after.Rooted := by
  cases drains with
  | finishes | discards => exact rooted.congr rfl rfl rfl
  | delivers pw queue _ id client flushed _ found alive delivered _ next same =>
      have delivering : next.Rooted := by
        rw [same]
        refine rooted.replaces found ⟨rfl, rfl, rfl⟩ fun handle held => ?_
        rcases PendingWrite.deliver_flushWrite delivered with
          ⟨_, _, _, flush, rfl, ran⟩
        have state : flush.conn.state = (pw.handedOver client.conn).state := by
          apply Connection.flushWrite_stays ran
          rw [held]
          exact Option.some_ne_none _
        have living := handedOver_isAlive pw client.conn
        rw [Connection.isAlive, ← state] at living
        refine ⟨living, ?_⟩
        cases sound.placed id client found with
        | alive fd _ _ stored => exact ⟨fd, stored⟩
        | closed dead =>
            rw [alive] at dead
            cases dead
      split_ifs
      · have frame := Frame.modify next flushed.conn.socket writeMask
          (.draining rest)
        exact delivering.congr frame.heap frame.nextConnId frame.connections
      · exact delivering

theorem Rooted.step {before after : EventLoop} {action : Action}
    (rooted : before.Rooted) (sound : before.Sound ∨ before.ModifyThrew)
    (stepped : machine.step before action = some after) : after.Rooted := by
  cases step_effect stepped with
  | wait | stop => exact rooted.congr rfl rfl rfl
  | accept _ _ _ _ _ _ next accepted =>
      exact (rooted.acceptAll accepted).congr rfl rfl rfl
  | handle _ _ _ _ _ handles => exact rooted.handles handles
  | recv received event rest phase =>
      have ran : before.step (.recv received) = some after := stepped
      simp only [EventLoop.step, phase] at ran
      rcases readSome_files ran with
        ⟨id, client, found, moved, replaces, handle, state, _⟩
      exact rooted.stays (find_eq_some_iff.1 found).2 replaces handle state
        (Connection.readOnce_releases client.conn received)
        (Connection.readOnce_stays client.conn received)
  | write _ _ _ _ id client flushed _ found flush _ _ writes =>
      exact rooted.stays found writes.replaces rfl rfl
        (Connection.flushWrite_releases flush)
        (Connection.flushWrite_stays flush)
  | drain _ _ phase _ drains =>
      have living := sound_of_phase sound phase fun _ same => by cases same
      exact rooted.drains living drains
  | reap => exact rooted.reaped
  | work index response _ finishes =>
      cases finishes with
      | throws | posts => exact rooted.congr rfl rfl rfl

end EventLoop

namespace Files

/-! ## Every run of the event loop has its files -/

/-- The file that a step posts. -/
def postedBy : EventLoop.Action → Option Nat
  | .work _ (some pw) => pw.handle
  | _ => none

/-- A step, and before it the call of `post_response` that it ends. -/
def recording : EventLoop.Action → List Action
  | .work index (some pw) => [.post pw, .push 0 index]
  | action => [.loop action]

theorem step_recording {files : Files} {action : EventLoop.Action}
    {next : EventLoop} (idle : files.pushing = [])
    (new : ∀ handle ∈ postedBy action,
      handle ∉ HandleUse.opened files.log)
    (stepped : EventLoop.machine.step files.loop action = some next) :
    ∃ after, machine.run files (recording action) = some after ∧
      after.loop = next ∧ after.pushing = [] ∧
      HandleUse.opened after.log =
        HandleUse.opened files.log ++ (postedBy action).toList := by
  have moved : files.loop.step action = some next := stepped
  by_cases posts : action.posts = true
  · cases action with
    | work index response =>
        cases response with
        | none => cases posts
        | some pw =>
            have new' : ∀ handle ∈ pw.handle,
                handle ∉ HandleUse.opened files.log := new
            refine ⟨{ files with
              loop := next
              pushing := []
              log := files.log ++ pw.handle.toList.map .opens }, ?_, rfl, rfl,
              ?_⟩
            · refine Machine.run_cons_eq_some.2
                ⟨{ files with
                  pushing := [pw]
                  log := files.log ++ pw.handle.toList.map .opens }, ?_,
                  Machine.run_cons_eq_some.2 ⟨_, ?_, rfl⟩⟩
              · simp only [machine, Files.step, idle, List.nil_append,
                  if_pos new']
              · simp only [machine, Files.step, List.getElem?_cons_zero,
                  Option.bind_some, moved, Option.map_some,
                  List.eraseIdx_cons_zero]
            · rw [HandleUse.opened_append, HandleUse.opened_opens]
              rfl
    | wait | accept | handle | recv | write | drain | reap | stop => cases posts
  · have single : recording action = [.loop action] ∧
        postedBy action = none := by
      cases action with
      | work index response =>
          cases response with
          | none => exact ⟨rfl, rfl⟩
          | some pw => exact absurd rfl posts
      | wait | accept | handle | recv | write | drain | reap | stop =>
          exact ⟨rfl, rfl⟩
    rw [single.1, single.2]
    refine ⟨{ files with
      loop := next
      log := files.log ++ files.loop.fileUses action }, ?_, rfl, idle, ?_⟩
    · refine Machine.run_cons_eq_some.2 ⟨_, ?_, rfl⟩
      simp only [machine, Files.step, if_neg posts, moved, Option.map_some]
    · rw [HandleUse.opened_append, EventLoop.opened_fileUses]
      rfl

/-- Every run of the event loop whose workers post files of their own. -/
theorem run_recording {files : Files} {actions : List EventLoop.Action}
    {after : EventLoop} (idle : files.pushing = [])
    (fresh : (HandleUse.opened files.log ++
      actions.filterMap postedBy).Nodup)
    (ran : EventLoop.machine.run files.loop actions = some after) :
    ∃ final, machine.run files (actions.flatMap recording) = some final ∧
      final.loop = after := by
  induction actions generalizing files with
  | nil =>
      rw [Machine.run_nil, Option.some.injEq] at ran
      exact ⟨files, rfl, ran⟩
  | cons action rest ih =>
      rcases Machine.run_cons_eq_some.1 ran with ⟨next, stepped, ran⟩
      have parts : (action :: rest).filterMap postedBy =
          (postedBy action).toList ++ rest.filterMap postedBy := by
        rw [List.filterMap_cons]
        cases postedBy action <;> rfl
      rw [parts, ← List.append_assoc] at fresh
      have new : ∀ handle ∈ postedBy action,
          handle ∉ HandleUse.opened files.log := by
        intro handle member old
        exact (List.nodup_append.1 (List.nodup_append.1 fresh).1).2.2 handle old
          handle (Option.mem_toList.2 member) rfl
      rcases step_recording idle new stepped with
        ⟨middle, first, same, still, opened⟩
      rw [← opened] at fresh
      rw [← same] at ran
      rcases ih still fresh ran with ⟨final, later, ends⟩
      refine ⟨final, ?_, ends⟩
      rw [List.flatMap_cons, Machine.run_append, first]
      exact later

/-! ## The invariant -/

/-- `pending_writes_` is never closed. -/
theorem open_of_reachable {listenFd wakeupFd : Fd} {loop : EventLoop}
    (reachable : EventLoop.machine.Reachable (.start listenFd wakeupFd) loop) :
    loop.pendingWrites.closed = false := by
  rcases reachable with ⟨actions, ran⟩
  have recorded := Trace.run_loop (.start listenFd wakeupFd) actions
  rw [show (Trace.start listenFd wakeupFd).loop = .start listenFd wakeupFd
    from rfl, ran] at recorded
  rcases Option.map_eq_some_iff.1 recorded with ⟨trace, followed, rfl⟩
  have reached : Trace.machine.Reachable (.start listenFd wakeupFd) trace :=
    ⟨actions, followed⟩
  have agrees : trace.Recorded :=
    reached.invariant (fun before action after kept stepped =>
      kept.step stepped) (Trace.start_recorded listenFd wakeupFd)
  exact agrees.opened

theorem sound_of_reachable {listenFd wakeupFd : Fd} {loop : EventLoop}
    (reachable : EventLoop.machine.Reachable (.start listenFd wakeupFd) loop) :
    loop.Sound ∨ loop.ModifyThrew := by
  have keeps : ∀ before action after,
      (fun loop : EventLoop => loop.Sound ∨ loop.ModifyThrew) before →
        EventLoop.machine.step before action = some after →
          (fun loop : EventLoop => loop.Sound ∨ loop.ModifyThrew) after := by
    rintro before action after (sound | threw) stepped
    · exact sound.step stepped
    · exact Or.inr (threw.step stepped)
  exact reachable.invariant keeps
    (Or.inl (EventLoop.start_sound listenFd wakeupFd))

theorem reachable_step {listenFd wakeupFd : Fd} {before after : EventLoop}
    {action : EventLoop.Action}
    (reachable : EventLoop.machine.Reachable (.start listenFd wakeupFd) before)
    (stepped : EventLoop.machine.step before action = some after) :
    EventLoop.machine.Reachable (.start listenFd wakeupFd) after := by
  rcases reachable with ⟨actions, ran⟩
  refine ⟨actions ++ [action], ?_⟩
  rw [Machine.run_append, ran]
  exact Machine.run_cons_eq_some.2 ⟨after, stepped, rfl⟩

/-- The files of responses and connections. -/
def held (files : Files) : Multiset Nat :=
  ↑(files.pushing.filterMap PendingWrite.handle) +
    (files.loop.sentFiles + files.loop.queuedFiles)

/-- The files that are held are those that the log leaves. -/
structure Balanced (listenFd wakeupFd : Fd) (files : Files) : Prop where
  reachable : EventLoop.machine.Reachable (.start listenFd wakeupFd) files.loop
  rooted : files.loop.Rooted
  balance : table.run 0 files.log = some files.held
  fresh : (HandleUse.opened files.log).Nodup

theorem start_balanced (listenFd wakeupFd : Fd) :
    (start listenFd wakeupFd).Balanced listenFd wakeupFd where
  reachable := ⟨[], rfl⟩
  rooted :=
    ⟨fun _ known => (by cases known), fun _ _ _ found => (by cases found)⟩
  balance := rfl
  fresh := List.nodup_nil

/-- A worker calls `post_response`. -/
theorem Balanced.post {listenFd wakeupFd : Fd} {files : Files}
    (balanced : files.Balanced listenFd wakeupFd) {pw : PendingWrite}
    (new : ∀ handle ∈ pw.handle, handle ∉ HandleUse.opened files.log) :
    Balanced listenFd wakeupFd
      { files with
        pushing := files.pushing ++ [pw]
        log := files.log ++ pw.handle.toList.map .opens } where
  reachable := balanced.reachable
  rooted := balanced.rooted
  balance := by
    have posted := HandleUse.run_append balanced.balance
      (HandleUse.run_opens files.held pw.handle)
    have last : [pw].filterMap PendingWrite.handle = pw.handle.toList := by
      cases found : pw.handle <;> simp [found]
    rw [posted, held, held, List.filterMap_append, last, ← Multiset.coe_add]
    refine congrArg some ?_
    abel
  fresh := by
    rw [HandleUse.opened_append, HandleUse.opened_opens]
    refine balanced.fresh.append ?_ ?_
    · cases pw.handle <;> simp
    · intro handle old member
      exact new handle (Option.mem_toList.1 member) old

/-- The push of a response ends. -/
theorem Balanced.push {listenFd wakeupFd : Fd} {files : Files}
    (balanced : files.Balanced listenFd wakeupFd) {slot index : Nat}
    {pw : PendingWrite} (found : files.pushing[slot]? = some pw)
    {next : EventLoop}
    (stepped : EventLoop.machine.step files.loop (.work index (some pw)) =
      some next) :
    Balanced listenFd wakeupFd
      { files with loop := next, pushing := files.pushing.eraseIdx slot } where
  reachable := reachable_step balanced.reachable stepped
  rooted := balanced.rooted.step (sound_of_reachable balanced.reachable) stepped
  fresh := balanced.fresh
  balance := by
    rcases EventLoop.push_files (open_of_reachable balanced.reachable) stepped
      with ⟨sent, queued⟩
    rcases List.getElem?_eq_some_iff.1 found with ⟨bounded, read⟩
    have split := (List.getElem_cons_eraseIdx_perm bounded).symm
    rw [read] at split
    have pushing : (files.pushing.filterMap PendingWrite.handle :
        Multiset Nat) =
        ↑pw.handle.toList +
          ↑((files.pushing.eraseIdx slot).filterMap PendingWrite.handle) := by
      rw [Multiset.coe_eq_coe.2 (split.filterMap _), List.filterMap_cons]
      cases pw.handle <;> rfl
    show table.run 0 files.log = _
    rw [balanced.balance, held, held, pushing]
    dsimp only
    rw [sent, queued]
    refine congrArg some ?_
    abel

/-- The event loop makes a step, or a task throws. -/
theorem Balanced.loop {listenFd wakeupFd : Fd} {files : Files}
    (balanced : files.Balanced listenFd wakeupFd) {action : EventLoop.Action}
    (own : action.posts = false) {next : EventLoop}
    (stepped : EventLoop.machine.step files.loop action = some next) :
    Balanced listenFd wakeupFd
      { files with
        loop := next
        log := files.log ++ files.loop.fileUses action } where
  reachable := reachable_step balanced.reachable stepped
  rooted := balanced.rooted.step (sound_of_reachable balanced.reachable) stepped
  balance := by
    have used := HandleUse.run_add
      (EventLoop.fileUses_run (sound_of_reachable balanced.reachable) stepped
        own) (files.pushing.filterMap PendingWrite.handle)
    rw [Multiset.add_comm, Multiset.add_comm (next.sentFiles + _)] at used
    exact HandleUse.run_append balanced.balance used
  fresh := by
    rw [HandleUse.opened_append, EventLoop.opened_fileUses,
      List.append_nil]
    exact balanced.fresh

theorem Balanced.step {listenFd wakeupFd : Fd} {before after : Files}
    {action : Action} (balanced : before.Balanced listenFd wakeupFd)
    (stepped : machine.step before action = some after) :
    after.Balanced listenFd wakeupFd := by
  have ran : before.step action = some after := stepped
  cases action with
  | post pw =>
      simp only [Files.step] at ran
      split_ifs at ran with new
      cases ran
      exact balanced.post new
  | push slot index =>
      rcases Option.bind_eq_some_iff.1 ran with ⟨pw, found, ran⟩
      rcases Option.map_eq_some_iff.1 ran with ⟨next, moved, rfl⟩
      exact balanced.push found moved
  | loop action =>
      simp only [Files.step] at ran
      split_ifs at ran with posts
      rcases Option.map_eq_some_iff.1 ran with ⟨next, moved, rfl⟩
      exact balanced.loop (by simpa using posts) moved

/-! ## Exactly one place -/

theorem at_sending_iff {files : Files} (rooted : files.loop.Rooted)
    {handle id : Nat} :
    files.At handle (.sending id) ↔
      (List.range files.loop.nextConnId)[id]?.bind files.loop.handleAt =
        some handle := by
  constructor
  · rintro ⟨client, found, held⟩
    have bounded : id < files.loop.nextConnId :=
      rooted.numbered id (by rw [found]; rfl)
    rw [List.getElem?_range bounded, Option.bind_some, EventLoop.handleAt,
      found]
    exact held
  · intro read
    rcases Option.bind_eq_some_iff.1 read with ⟨other, listed, held⟩
    rcases List.getElem?_eq_some_iff.1 listed with ⟨_, same⟩
    rw [List.getElem_range] at same
    rw [← same] at held
    rcases Option.bind_eq_some_iff.1 held with ⟨client, found, held⟩
    exact ⟨client, found, held⟩

theorem at_closed_iff {files : Files} {handle turn : Nat} :
    files.At handle (.closed turn) ↔
      files.log[turn]?.bind HandleUse.closed? = some handle := by
  show files.log[turn]? = some (.closes handle) ↔ _
  cases files.log[turn]? with
  | none => simp
  | some use => cases use <;> simp [HandleUse.closed?]

theorem at_pushing_iff {files : Files} {handle slot : Nat} :
    files.At handle (.pushing slot) ↔
      files.pushing[slot]?.bind PendingWrite.handle = some handle :=
  Option.bind_eq_some_iff.symm

theorem at_queued_iff {files : Files} {handle position : Nat} :
    files.At handle (.queued position) ↔
      files.loop.pendingWrites.queue[position]?.bind PendingWrite.handle =
        some handle :=
  Option.bind_eq_some_iff.symm

/-- A file that was posted is counted once. -/
theorem Balanced.count {listenFd wakeupFd : Fd} {files : Files}
    (balanced : files.Balanced listenFd wakeupFd) (handle : Nat) :
    (HandleUse.opened files.log).count handle =
      (files.log.filterMap HandleUse.closed?).count handle +
        (files.pushing.filterMap PendingWrite.handle).count handle +
        ((List.range files.loop.nextConnId).filterMap
          files.loop.handleAt).count handle +
        (files.loop.pendingWrites.queue.filterMap
          PendingWrite.handle).count handle := by
  have counted := HandleUse.count_run balanced.balance handle
  rw [held, EventLoop.sentFiles, EventLoop.queuedFiles, Multiset.count_add,
    Multiset.count_add, Multiset.coe_count, Multiset.coe_count,
    Multiset.coe_count, Multiset.count_zero, Nat.zero_add] at counted
  rw [counted, HandleUse.closed]
  omega

theorem one_of_four {first second third fourth : Nat}
    (total : 1 = first + second + third + fourth) :
    first = 1 ∧ second = 0 ∧ third = 0 ∧ fourth = 0 ∨
      first = 0 ∧ second = 1 ∧ third = 0 ∧ fourth = 0 ∨
      first = 0 ∧ second = 0 ∧ third = 1 ∧ fourth = 0 ∨
      first = 0 ∧ second = 0 ∧ third = 0 ∧ fourth = 1 := by
  omega

theorem Balanced.owned {listenFd wakeupFd : Fd} {files : Files}
    (balanced : files.Balanced listenFd wakeupFd) {handle : Nat}
    (posted : handle ∈ HandleUse.opened files.log) :
    ∃! place, files.At handle place := by
  have total := balanced.count handle
  rw [List.count_eq_one_of_mem balanced.fresh posted] at total
  have sendingIff : ∀ id, files.At handle (.sending id) ↔ _ :=
    fun _ => at_sending_iff balanced.rooted
  rcases one_of_four total with
    ⟨closed, pushing, sending, queued⟩ |
    ⟨closed, pushing, sending, queued⟩ |
      ⟨closed, pushing, sending, queued⟩ |
      ⟨closed, pushing, sending, queued⟩
  · rcases existsUnique_slot closed with ⟨turn, found, unique⟩
    refine ⟨.closed turn, at_closed_iff.2 found, fun place here => ?_⟩
    cases place with
    | closed other =>
        exact congrArg Place.closed (unique other (at_closed_iff.1 here))
    | pushing slot =>
        exact absurd (at_pushing_iff.1 here)
          (slot_ne_of_count_eq_zero pushing _)
    | sending id =>
        exact absurd ((sendingIff id).1 here)
          (slot_ne_of_count_eq_zero sending _)
    | queued position =>
        exact absurd (at_queued_iff.1 here) (slot_ne_of_count_eq_zero queued _)
  · rcases existsUnique_slot pushing with ⟨slot, found, unique⟩
    refine ⟨.pushing slot, at_pushing_iff.2 found, fun place here => ?_⟩
    cases place with
    | closed turn =>
        exact absurd (at_closed_iff.1 here) (slot_ne_of_count_eq_zero closed _)
    | pushing other =>
        exact congrArg Place.pushing (unique other (at_pushing_iff.1 here))
    | sending id =>
        exact absurd ((sendingIff id).1 here)
          (slot_ne_of_count_eq_zero sending _)
    | queued position =>
        exact absurd (at_queued_iff.1 here) (slot_ne_of_count_eq_zero queued _)
  · rcases existsUnique_slot sending with ⟨id, found, unique⟩
    refine ⟨.sending id, (sendingIff id).2 found, fun place here => ?_⟩
    cases place with
    | closed turn =>
        exact absurd (at_closed_iff.1 here) (slot_ne_of_count_eq_zero closed _)
    | pushing slot =>
        exact absurd (at_pushing_iff.1 here)
          (slot_ne_of_count_eq_zero pushing _)
    | sending other =>
        exact congrArg Place.sending (unique other ((sendingIff other).1 here))
    | queued position =>
        exact absurd (at_queued_iff.1 here) (slot_ne_of_count_eq_zero queued _)
  · rcases existsUnique_slot queued with ⟨position, found, unique⟩
    refine ⟨.queued position, at_queued_iff.2 found, fun place here => ?_⟩
    cases place with
    | closed turn =>
        exact absurd (at_closed_iff.1 here) (slot_ne_of_count_eq_zero closed _)
    | pushing slot =>
        exact absurd (at_pushing_iff.1 here)
          (slot_ne_of_count_eq_zero pushing _)
    | sending id =>
        exact absurd ((sendingIff id).1 here)
          (slot_ne_of_count_eq_zero sending _)
    | queued other =>
        exact congrArg Place.queued (unique other (at_queued_iff.1 here))

theorem Balanced.singleOwner {listenFd wakeupFd : Fd} {files : Files}
    (balanced : files.Balanced listenFd wakeupFd) : files.SingleOwner := by
  have openedOnce : ∀ handle,
      (HandleUse.opened files.log).count handle ≤ 1 :=
    List.nodup_iff_count_le_one.1 balanced.fresh
  refine ⟨fun _ => balanced.owned, fun handle => ?_, ?_, ?_⟩
  · have counted := HandleUse.count_run balanced.balance handle
    rw [Multiset.count_zero, Nat.zero_add] at counted
    exact Nat.le_trans (Nat.le.intro counted.symm) (openedOnce handle)
  · rintro earlier later handle split closed
    rcases List.append_of_mem closed with ⟨before, between, rfl⟩
    rw [List.append_assoc, List.cons_append] at split
    have once := openedOnce handle
    have ran := balanced.balance
    rw [split] at once ran
    apply (HandleUse.closed_for_good ran once).2.1
    exact List.mem_append_right _ List.mem_cons_self
  · exact fun id client handle found held =>
      (balanced.rooted.stored id client handle found held).2

/--
However responses complete, connections die and transfers are replaced, every
file that was posted has one owner until it is closed.
-/
theorem single_owner {listenFd wakeupFd : Fd} {files : Files}
    (reachable : machine.Reachable (start listenFd wakeupFd) files) :
    files.SingleOwner := by
  have balanced : files.Balanced listenFd wakeupFd :=
    reachable.invariant (fun before action after kept stepped =>
      kept.step stepped) (start_balanced listenFd wakeupFd)
  exact balanced.singleOwner

/-- One client sends two requests, and the second file replaces the first. -/
def replacing : List Action :=
  let request := EventLoop.exchange 71 (text "ET / HTTP/1.1\r\n\r\n") []
  let again := request.drop 3
  let posting : Nat → List Action := fun handle =>
    [.post
        { conn := none
          data := [72]
          fileFd := some { handle := handle, contents := [1, 2] }
          fileSize := 2 },
      .push 0 0, .loop (.wait [EventLoop.readable 5]), .loop .handle,
      .loop (.drain [.took 1, .took 1, .failed .again]), .loop (.drain []),
      .loop .reap]
  request.dropLast.map .loop ++ posting 9 ++ again.dropLast.map .loop ++
    posting 10

theorem single_owner_replacing :
    ∃ files, machine.run (start 3 5) replacing = some files ∧
      files.log =
        [.opens 9, .uses 9, .uses 9, .opens 10, .closes 9, .uses 10,
          .uses 10] ∧
      files.SingleOwner := by
  have finishes : ∃ files, machine.run (start 3 5) replacing = some files ∧
      files.log =
        [.opens 9, .uses 9, .uses 9, .opens 10, .closes 9, .uses 10,
          .uses 10] :=
    Option.map_eq_some_iff.1 (by decide)
  rcases finishes with ⟨files, ran, log⟩
  exact ⟨files, ran, log, single_owner ⟨replacing, ran⟩⟩

end Files

end Cppws.App
