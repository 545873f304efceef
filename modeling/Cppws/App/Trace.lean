import Cppws.App.Accounts

/-!
# What becomes of a request

The event loop with a record of its run: which kernel socket every connection
was accepted on and has read from, which task every request went into, what was
pushed for it, what `drain_pending_writes` did with it and which calls were
made on each kernel socket.  The record follows the event loop and does not
hold it up, and it agrees with the queues of the event loop.
-/

namespace Cppws.App

open Cppws.Core
open Cppws.Http
open Cppws.Net

namespace EventLoop

/-- The kernel socket that a connection holds. -/
def kernelSocket (loop : EventLoop) (conn : Connection) : Option Nat :=
  conn.socket.bind loop.kernel.descriptor

/-- The connection that an event is handled for. -/
def currentClient (loop : EventLoop) : Option (Nat × Client) :=
  match loop.phase with
  | .reading event _ => loop.find event.fd
  | .writing event _ => loop.find event.fd
  | _ => none

/-- The kernel sockets that connections are accepted on. -/
def acceptHomes (loop : EventLoop) (home : Nat → Option Nat) :
    List Fd → Nat → Option Nat
  | [] => home
  | fd :: rest =>
      match loop.acceptOne fd with
      | some next =>
          next.acceptHomes
            (if loop.connections fd = none then
              Function.update home loop.nextConnId (some loop.kernel.opened)
            else
              home) rest
      | none => home

end EventLoop

/-- What the read callback asks for, if `recv` returns bytes. -/
def Client.dispatch (client : Client) (received : Received) :
    Option Dispatch :=
  let read := client.conn.readOnce received
  if read.2.2 = .callback then
    some (readCallback read.1 client.parser).2.2
  else
    none

/-- A request that a task has been submitted for. -/
structure Job where
  /-- How many requests were submitted before it. -/
  ticket : Nat
  conn : Nat
  request : HttpRequest
  keepAlive : Bool
  /-- The kernel sockets that its connection had read from. -/
  readFrom : List Nat

/-- A response that was pushed to `pending_writes_`. -/
structure Pushed where
  pw : PendingWrite
  /-- The task that pushed it, unless it is for a parse error. -/
  ticket : Option Nat
  readFrom : List Nat

/-- What `drain_pending_writes` has done with a response. -/
inductive Taken where
  /-- It was enqueued on a connection that held this kernel socket. -/
  | handed (entry : Pushed) (socket : Option Nat)
  /-- Only its file was closed. -/
  | discarded (entry : Pushed) (conn : Option Connection) (calls : List Call)

def Taken.entry : Taken → Pushed
  | .handed entry _ => entry
  | .discarded entry _ _ => entry

/-- `::close(pw->file_fd)`. -/
def releasePending (pw : PendingWrite) : List Call :=
  match pw.fileFd with
  | some file => [.closeFile file.handle]
  | none => []

/-- The event loop with the record of its run. -/
structure Trace where
  loop : EventLoop
  /-- The kernel socket that a connection was accepted on. -/
  home : Nat → Option Nat := fun _ => none
  /-- The kernel sockets that a connection has read from. -/
  readFrom : Nat → List Nat := fun _ => []
  /-- How many requests were submitted. -/
  submitted : Nat := 0
  /-- The tasks that have not ended. -/
  jobs : List Job := []
  /-- The tasks that have ended. -/
  ended : List Job := []
  /-- What is in `pending_writes_`. -/
  waiting : List Pushed := []
  /-- What was in it. -/
  taken : List Taken := []
  /-- The calls of the flushes on a kernel socket. -/
  calls : Nat → List Call := fun _ => []

namespace Trace

/-- Everything that was pushed to `pending_writes_`. -/
def pushed (trace : Trace) : List Pushed :=
  trace.taken.map Taken.entry ++ trace.waiting

/-- What a step has pushed. -/
def added (trace : Trace) (next : EventLoop) : List PendingWrite :=
  next.pendingWrites.queue.drop trace.loop.pendingWrites.queue.length

/-- Some calls have been made on a kernel socket. -/
def note (trace : Trace) (socket : Option Nat) (calls : List Call) : Trace :=
  match socket with
  | some socket =>
      { trace with
        calls :=
          Function.update trace.calls socket (trace.calls socket ++ calls) }
  | none => trace

/-- Bytes have been received. -/
def received (trace : Trace) (next : EventLoop) (id : Nat) (client : Client)
    (dispatch : Dispatch) : Trace :=
  let readFrom :=
    trace.readFrom id ++ (trace.loop.kernelSocket client.conn).toList
  let read :=
    { trace with
      loop := next
      readFrom := Function.update trace.readFrom id readFrom }
  match dispatch with
  | .nothing => read
  | .postResponse _ =>
      { read with
        waiting :=
          trace.waiting ++ (trace.added next).map fun pw =>
            { pw := pw, ticket := none, readFrom := readFrom } }
  | .submit request keepAlive =>
      { read with
        submitted := trace.submitted + 1
        jobs :=
          trace.jobs ++
            [{ ticket := trace.submitted
               conn := id
               request := request
               keepAlive := keepAlive
               readFrom := readFrom }] }

/-- A response has been drained. -/
def drained (trace : Trace) (next : EventLoop) (answers : List Answer)
    (entry : Pushed) (rest : List Pushed) : Trace :=
  let popped := { trace with loop := next, waiting := rest }
  match trace.loop.deref entry.pw.conn with
  | none =>
      { popped with
        taken :=
          trace.taken ++
            [.discarded entry none (releasePending entry.pw)] }
  | some (_, client) =>
      let socket := trace.loop.kernelSocket client.conn
      if client.conn.isAlive then
        { popped.note socket
            ((entry.pw.deliver client.conn answers).elim []
              Connection.Flushed.calls) with
          taken := trace.taken ++ [.handed entry socket] }
      else
        { popped with
          taken :=
            trace.taken ++
              [.discarded entry (some client.conn)
                (releasePending entry.pw)] }

/-- A task has ended. -/
def finished (trace : Trace) (next : EventLoop) (index : Nat) (job : Job) :
    Trace :=
  { trace with
    loop := next
    jobs := trace.jobs.eraseIdx index
    ended := trace.ended ++ [job]
    waiting :=
      trace.waiting ++ (trace.added next).map fun pw =>
        { pw := pw, ticket := some job.ticket, readFrom := job.readFrom } }

/-- The record after a step of the event loop. -/
def follow (trace : Trace) (next : EventLoop) : EventLoop.Action → Trace
  | .accept clients _ =>
      { trace with
        loop := next
        home := trace.loop.acceptHomes trace.home clients }
  | .recv received =>
      match trace.loop.currentClient with
      | some (id, client) =>
          match client.dispatch received with
          | some dispatch => trace.received next id client dispatch
          | none => { trace with loop := next }
      | none => { trace with loop := next }
  | .write answers =>
      match trace.loop.currentClient with
      | some (_, client) =>
          { trace with loop := next }.note
            (trace.loop.kernelSocket client.conn)
            ((client.conn.flushWrite answers).elim []
              Connection.Flushed.calls)
      | none => { trace with loop := next }
  | .drain answers =>
      match trace.waiting with
      | entry :: rest => trace.drained next answers entry rest
      | [] => { trace with loop := next }
  | .work index _ =>
      match trace.jobs[index]? with
      | some job => trace.finished next index job
      | none => { trace with loop := next }
  | _ => { trace with loop := next }

def step (trace : Trace) (action : EventLoop.Action) : Option Trace :=
  (trace.loop.step action).map fun next => trace.follow next action

def machine : Machine Trace EventLoop.Action where
  step := step

/-- The record when `run` begins. -/
def start (listenFd wakeupFd : Fd) : Trace where
  loop := .start listenFd wakeupFd

/-! ## The record follows the event loop -/

@[simp]
theorem loop_note (trace : Trace) (socket : Option Nat) (calls : List Call) :
    (trace.note socket calls).loop = trace.loop := by
  cases socket <;> rfl

theorem loop_follow (trace : Trace) (next : EventLoop)
    (action : EventLoop.Action) : (trace.follow next action).loop = next := by
  cases action with
  | wait | accept | handle | reap | stop => rfl
  | recv received =>
      simp only [follow]
      split
      case h_1 id client _ =>
        split
        case h_1 dispatch _ => cases dispatch <;> rfl
        case h_2 => rfl
      case h_2 => rfl
  | write answers =>
      simp only [follow]
      split
      case h_1 => exact loop_note _ _ _
      case h_2 => rfl
  | drain answers =>
      simp only [follow]
      split
      case h_1 entry rest _ =>
        simp only [drained]
        split
        case h_1 => rfl
        case h_2 id client _ =>
          split_ifs
          · exact loop_note _ _ _
          · rfl
      case h_2 => rfl
  | work index response =>
      simp only [follow]
      split <;> rfl

/-- Every run of the event loop is recorded. -/
theorem run_loop (trace : Trace) (actions : List EventLoop.Action) :
    (machine.run trace actions).map Trace.loop =
      EventLoop.machine.run trace.loop actions := by
  induction actions generalizing trace with
  | nil => rfl
  | cons action actions ih =>
      have stepped : machine.step trace action =
          (EventLoop.machine.step trace.loop action).map fun next =>
            trace.follow next action := rfl
      rw [Machine.run, Machine.run, stepped]
      cases EventLoop.machine.step trace.loop action with
      | none => rfl
      | some next =>
          rw [Option.map_some, Option.bind_some, Option.bind_some, ih,
            loop_follow]

end Trace

/-! ## What a step adds to the record -/

/-- What the event loop does with what the read callback asks for. -/
inductive EventLoop.Asked (loop : EventLoop) (id : Nat) :
    Option Dispatch → EventLoop → Prop where
  | nothing (dispatch : Option Dispatch)
      (silent : dispatch = none ∨ dispatch = some .nothing)
      (next : EventLoop) (tasks : next.tasks = loop.tasks)
      (pendingWrites : next.pendingWrites = loop.pendingWrites) :
      Asked loop id dispatch next
  | posts (data : Bytes) (next : EventLoop)
      (tasks : next.tasks = loop.tasks) (accepted : Bool)
      (pushed : loop.pendingWrites.push { conn := some id, data := data } =
        some (next.pendingWrites, accepted)) :
      Asked loop id (some (.postResponse data)) next
  | submits (request : HttpRequest) (keepAlive : Bool) (next : EventLoop)
      (tasks : next.tasks = loop.tasks ++ [id])
      (pendingWrites : next.pendingWrites = loop.pendingWrites) :
      Asked loop id (some (.submit request keepAlive)) next

theorem EventLoop.readSome_asked {loop next : EventLoop} {event : EpollEvent}
    {rest : List EpollEvent} {received : Received}
    (ran : loop.readSome event rest received = some next) :
    ∃ id client, loop.find event.fd = some (id, client) ∧
      loop.Asked id (client.dispatch received) next := by
  rcases Option.bind_eq_some_iff.1 ran with ⟨⟨id, client⟩, found, ran⟩
  refine ⟨id, client, found, ?_⟩
  unfold Client.dispatch
  dsimp only at ran ⊢
  generalize client.conn.readOnce received = read at ran
  cases reading : read.2.2 with
  | callback =>
      rw [if_pos rfl]
      simp only [reading, called] at ran
      cases asked : (readCallback read.1 client.parser).2.2 with
      | nothing =>
          simp only [asked, Option.some.injEq] at ran
          exact .nothing _ (Or.inr rfl) _ (ran ▸ rfl) (ran ▸ rfl)
      | postResponse data =>
          simp only [asked] at ran
          rcases Option.map_eq_some_iff.1 ran with
            ⟨⟨queue, accepted⟩, pushed, rfl⟩
          exact .posts data _ rfl accepted pushed
      | submit request keepAlive =>
          simp only [asked, Option.some.injEq] at ran
          exact .submits request keepAlive _ (ran ▸ rfl) (ran ▸ rfl)
  | retry | blocked | closed =>
      rw [if_neg fun same => by cases same]
      simp only [reading, Option.some.injEq] at ran
      exact .nothing _ (Or.inl rfl) _ (ran ▸ rfl) (ran ▸ rfl)

namespace Trace

/-- The record agrees with the queues of the event loop. -/
structure Recorded (trace : Trace) : Prop where
  opened : trace.loop.pendingWrites.closed = false
  waiting : trace.waiting.map Pushed.pw = trace.loop.pendingWrites.queue
  jobs : trace.jobs.map Job.conn = trace.loop.tasks

/-- What a step adds to the record. -/
inductive Follows (before : Trace) (next : EventLoop) :
    EventLoop.Action → Trace → Prop where
  /-- Nothing. -/
  | aside (action : EventLoop.Action)
      (accepting : ∀ clients last, action ≠ .accept clients last)
      (writing : ∀ answers, action ≠ .write answers)
      (draining : ∀ answers, action = .drain answers →
        next.heap = before.loop.heap)
      (working : ∀ index response, action ≠ .work index response)
      (tasks : next.tasks = before.loop.tasks)
      (pendingWrites : next.pendingWrites = before.loop.pendingWrites) :
      Follows before next action { before with loop := next }
  | accepts (clients : List Fd) (last : EventLoop.Refusal)
      (tasks : next.tasks = before.loop.tasks)
      (pendingWrites : next.pendingWrites = before.loop.pendingWrites) :
      Follows before next (.accept clients last)
        { before with
          loop := next
          home := before.loop.acceptHomes before.home clients }
  /-- Bytes were received for a connection. -/
  | receives (received : Received) (id : Nat) (client : Client)
      (current : before.loop.currentClient = some (id, client))
      (dispatch : Dispatch)
      (asks : client.dispatch received = some dispatch)
      (asked : before.loop.Asked id (some dispatch) next) :
      Follows before next (.recv received)
        (before.received next id client dispatch)
  | writes (answers : List Answer) (id : Nat) (client : Client)
      (current : before.loop.currentClient = some (id, client))
      (flushed : Connection.Flushed)
      (flush : client.conn.flushWrite answers = some flushed)
      (heap : next.heap =
        Function.update before.loop.heap id
          (some { client with conn := flushed.conn }))
      (tasks : next.tasks = before.loop.tasks)
      (pendingWrites : next.pendingWrites = before.loop.pendingWrites) :
      Follows before next (.write answers)
        ({ before with loop := next }.note
          (before.loop.kernelSocket client.conn) flushed.calls)
  /-- A response was handed over to its connection. -/
  | hands (answers : List Answer) (entry : Pushed) (rest : List Pushed)
      (waiting : before.waiting = entry :: rest) (id : Nat) (client : Client)
      (named : entry.pw.conn = some id)
      (found : before.loop.heap id = some client)
      (alive : client.conn.isAlive = true) (flushed : Connection.Flushed)
      (delivered : entry.pw.deliver client.conn answers = some flushed)
      (heap : next.heap =
        Function.update before.loop.heap id
          (some
            { client with
              conn := flushed.conn
              answered := client.answered + 1 }))
      (tasks : next.tasks = before.loop.tasks)
      (closed : next.pendingWrites.closed = before.loop.pendingWrites.closed)
      (popped : next.pendingWrites.queue = rest.map Pushed.pw) :
      Follows before next (.drain answers)
        { { before with loop := next, waiting := rest }.note
            (before.loop.kernelSocket client.conn) flushed.calls with
          taken :=
            before.taken ++
              [.handed entry (before.loop.kernelSocket client.conn)] }
  /-- A response was discarded. -/
  | discards (answers : List Answer) (entry : Pushed) (rest : List Pushed)
      (waiting : before.waiting = entry :: rest) (conn : Option Connection)
      (gone : conn = (before.loop.deref entry.pw.conn).map (·.2.conn))
      (dead : ∀ found, conn = some found → found.isAlive = false)
      (heap : next.heap = before.loop.heap)
      (tasks : next.tasks = before.loop.tasks)
      (closed : next.pendingWrites.closed = before.loop.pendingWrites.closed)
      (popped : next.pendingWrites.queue = rest.map Pushed.pw) :
      Follows before next (.drain answers)
        { before with
          loop := next
          waiting := rest
          taken :=
            before.taken ++
              [.discarded entry conn (releasePending entry.pw)] }
  /-- A task threw. -/
  | throws (index : Nat) (job : Job)
      (task : before.jobs[index]? = some job)
      (tasks : next.tasks = before.loop.tasks.eraseIdx index)
      (pendingWrites : next.pendingWrites = before.loop.pendingWrites) :
      Follows before next (.work index none)
        { before with
          loop := next
          jobs := before.jobs.eraseIdx index
          ended := before.ended ++ [job] }
  /-- A task posted a response. -/
  | posts (index : Nat) (job : Job)
      (task : before.jobs[index]? = some job)
      (tasks : next.tasks = before.loop.tasks.eraseIdx index)
      (response : PendingWrite)
      (closed : next.pendingWrites.closed = before.loop.pendingWrites.closed)
      (queued : next.pendingWrites.queue =
        before.loop.pendingWrites.queue ++
          [{ response with conn := some job.conn }]) :
      Follows before next (.work index (some response))
        { before with
          loop := next
          jobs := before.jobs.eraseIdx index
          ended := before.ended ++ [job]
          waiting :=
            before.waiting ++
              [{ pw := { response with conn := some job.conn }
                 ticket := some job.ticket
                 readFrom := job.readFrom }] }

theorem modify_queues (loop : EventLoop) (socket : Option Fd)
    (events : Events) (next : Phase) :
    (loop.modify socket events next).tasks = loop.tasks ∧
      (loop.modify socket events next).pendingWrites = loop.pendingWrites := by
  unfold EventLoop.modify
  split <;> exact ⟨rfl, rfl⟩

theorem handles_queues {loop next : EventLoop} {event : EpollEvent}
    {rest : List EpollEvent} (handles : loop.Handles event rest next) :
    next.tasks = loop.tasks ∧ next.pendingWrites = loop.pendingWrites := by
  cases handles <;> exact ⟨rfl, rfl⟩

theorem follows_recv {trace : Trace} {next : EventLoop}
    {received : Received} {event : EpollEvent} {rest : List EpollEvent}
    (phase : trace.loop.phase = .reading event rest)
    (ran : trace.loop.readSome event rest received = some next) :
    trace.Follows next (.recv received)
      (trace.follow next (.recv received)) := by
  rcases EventLoop.readSome_asked ran with ⟨id, client, found, asked⟩
  have current : trace.loop.currentClient = some (id, client) := by
    rw [EventLoop.currentClient, phase]
    exact found
  simp only [follow, current]
  cases asks : client.dispatch received with
  | none =>
      rw [asks] at asked
      cases asked with
      | nothing _ _ _ tasks pendingWrites =>
          exact .aside _ nofun nofun nofun nofun tasks pendingWrites
  | some dispatch =>
      rw [asks] at asked
      exact .receives received id client current dispatch asks asked

theorem follows_write {trace : Trace} {next : EventLoop}
    {answers : List Answer} {event : EpollEvent} {rest : List EpollEvent}
    (phase : trace.loop.phase = .writing event rest)
    (ran : trace.loop.writeBack event rest answers = some next) :
    trace.Follows next (.write answers)
      (trace.follow next (.write answers)) := by
  rcases EventLoop.writeBack_writes ran with
    ⟨id, client, flushed, keyed, found, flush, _, writes⟩
  have current : trace.loop.currentClient = some (id, client) := by
    rw [EventLoop.currentClient, phase]
    exact EventLoop.find_eq_some_iff.2 ⟨keyed, found⟩
  have queues : next.tasks = trace.loop.tasks ∧
      next.pendingWrites = trace.loop.pendingWrites := by
    cases writes with
    | drained => exact modify_queues _ _ _ _
    | partly => exact ⟨rfl, rfl⟩
  have heap : next.heap = Function.update trace.loop.heap id
      (some { client with conn := flushed.conn }) := by
    cases writes with
    | drained => exact (EventLoop.Frame.modify _ _ _ _).heap
    | partly => rfl
  simp only [follow, current, flush]
  exact .writes answers id client current flushed flush heap queues.1 queues.2

theorem drainOne_closed {loop next : EventLoop} {rest : List EpollEvent}
    {answers : List Answer} (ran : loop.drainOne rest answers = some next) :
    next.pendingWrites.closed = loop.pendingWrites.closed := by
  have popped := loop.pendingWrites.tryPop_closed
  unfold EventLoop.drainOne at ran
  split at ran
  case h_1 =>
    cases ran
    rfl
  case h_2 queue pw took =>
    rw [took] at popped
    dsimp only at ran
    split at ran
    case h_1 =>
      cases ran
      exact popped
    case h_2 id client _ =>
      split_ifs at ran
      · rcases Option.bind_eq_some_iff.1 ran with ⟨flushed, _, ran⟩
        split_ifs at ran
        · cases ran
          rw [(modify_queues _ _ _ _).2]
          exact popped
        · cases ran
          exact popped
      · cases ran
        exact popped

/-- The discarded response has no connection, or one that is closed. -/
theorem drained_discards {trace : Trace} {next : EventLoop}
    {answers : List Answer} {entry : Pushed} {rest : List Pushed}
    (gone : ∀ id client,
      trace.loop.deref entry.pw.conn = some (id, client) →
        client.conn.isAlive = false) :
    trace.drained next answers entry rest =
      { trace with
        loop := next
        waiting := rest
        taken :=
          trace.taken ++
            [.discarded entry
              ((trace.loop.deref entry.pw.conn).map (·.2.conn))
              (releasePending entry.pw)] } := by
  unfold drained
  cases found : trace.loop.deref entry.pw.conn with
  | none => rfl
  | some pair =>
      have dead : ¬ pair.2.conn.isAlive = true := by
        rw [gone pair.1 pair.2 found]
        exact nofun
      dsimp only
      rw [if_neg dead]
      rfl

theorem drained_hands {trace : Trace} {next : EventLoop}
    {answers : List Answer} {entry : Pushed} {rest : List Pushed} {id : Nat}
    {client : Client} {flushed : Connection.Flushed}
    (found : trace.loop.deref entry.pw.conn = some (id, client))
    (alive : client.conn.isAlive = true)
    (delivered : entry.pw.deliver client.conn answers = some flushed) :
    trace.drained next answers entry rest =
      { { trace with loop := next, waiting := rest }.note
          (trace.loop.kernelSocket client.conn) flushed.calls with
        taken :=
          trace.taken ++
            [.handed entry (trace.loop.kernelSocket client.conn)] } := by
  simp only [drained, found, alive, if_true, delivered, Option.elim_some]

theorem Recorded.follows_drain {trace : Trace} (recorded : trace.Recorded)
    {next : EventLoop} {answers : List Answer} {rest : List EpollEvent}
    (ran : trace.loop.drainOne rest answers = some next) :
    trace.Follows next (.drain answers)
      (trace.follow next (.drain answers)) := by
  have drains := EventLoop.drainOne_drains ran
  have agrees := recorded.waiting
  simp only [follow]
  split
  case h_1 entry entries waiting =>
    rw [waiting, List.map_cons] at agrees
    cases drains with
    | finishes empty =>
        rw [empty] at agrees
        cases agrees
    | discards pw queue popped gone =>
        rw [popped, List.cons.injEq] at agrees
        rcases agrees with ⟨rfl, left⟩
        rw [drained_discards gone]
        refine .discards answers entry entries waiting _ rfl ?_ rfl rfl
          (drainOne_closed ran) left.symm
        intro conn found
        rcases Option.map_eq_some_iff.1 found with
          ⟨⟨id, client⟩, known, rfl⟩
        exact gone id client known
    | delivers pw queue popped id client flushed named found alive delivered
        _ after same =>
        rw [popped, List.cons.injEq] at agrees
        rcases agrees with ⟨rfl, left⟩
        have queues : ∀ socket phase,
            (if 0 < flushed.remaining then
                after.modify socket EventLoop.writeMask phase
              else after).tasks = after.tasks ∧
            (if 0 < flushed.remaining then
                after.modify socket EventLoop.writeMask phase
              else after).pendingWrites = after.pendingWrites := by
          intro socket phase
          split_ifs
          · exact modify_queues _ _ _ _
          · exact ⟨rfl, rfl⟩
        rw [drained_hands (EventLoop.deref_eq_some_iff.2 ⟨named, found⟩)
          alive delivered]
        refine .hands answers entry entries waiting id client named found alive
          flushed delivered ?_ ?_ (drainOne_closed ran) ?_
        · split_ifs
          · rw [(EventLoop.Frame.modify _ _ _ _).heap, same]
            rfl
          · rw [same]
            rfl
        · rw [(queues _ _).1, same]
          rfl
        · rw [(queues _ _).2, same]
          exact left.symm
  case h_2 empty =>
    rw [empty] at agrees
    cases drains with
    | finishes => exact .aside _ nofun nofun (fun _ _ => rfl) nofun rfl rfl
    | discards pw queue popped | delivers pw queue popped =>
        rw [← agrees] at popped
        cases popped

theorem Recorded.follows_work {trace : Trace} (recorded : trace.Recorded)
    {next : EventLoop} {index : Nat} {response : Option PendingWrite}
    (ran : trace.loop.finished index response = some next) :
    trace.Follows next (.work index response)
      (trace.follow next (.work index response)) := by
  rcases Option.bind_eq_some_iff.1 ran with ⟨id, task, ran⟩
  rw [← recorded.jobs, List.getElem?_map] at task
  rcases Option.map_eq_some_iff.1 task with ⟨job, found, rfl⟩
  simp only [follow, found, finished, added]
  cases response with
  | none =>
      cases ran
      have nothing : trace.waiting ++
          (trace.loop.pendingWrites.queue.drop
            trace.loop.pendingWrites.queue.length).map (fun pw =>
              { pw := pw
                ticket := some job.ticket
                readFrom := job.readFrom : Pushed }) = trace.waiting := by
        rw [List.drop_length, List.map_nil, List.append_nil]
      simp only [nothing]
      exact .throws index job found rfl rfl
  | some pw =>
      rcases Option.map_eq_some_iff.1 ran with
        ⟨⟨queue, accepted⟩, pushed, rfl⟩
      rcases TaskQueue.push_eq_some pushed with
        ⟨closed, _, _⟩ | ⟨_, _, _, queued, _, closed⟩
      · rw [recorded.opened] at closed
        cases closed
      · simp only [queued, List.drop_left]
        exact .posts index job found rfl pw closed queued

/-- What a step adds to a record that agrees with the event loop. -/
theorem Recorded.follows {before after : Trace} {action : EventLoop.Action}
    (recorded : before.Recorded)
    (stepped : machine.step before action = some after) :
    ∃ next, EventLoop.machine.step before.loop action = some next ∧
      before.Follows next action after := by
  rcases Option.map_eq_some_iff.1 stepped with ⟨next, ran, rfl⟩
  have moved : EventLoop.machine.step before.loop action = some next := ran
  refine ⟨next, moved, ?_⟩
  cases action with
  | wait batch =>
      cases EventLoop.step_effect moved with
      | wait => exact .aside _ nofun nofun nofun nofun rfl rfl
  | handle =>
      cases EventLoop.step_effect moved with
      | handle _ _ _ _ _ handles =>
          exact .aside _ nofun nofun nofun nofun (handles_queues handles).1
            (handles_queues handles).2
  | reap =>
      cases EventLoop.step_effect moved with
      | reap => exact .aside _ nofun nofun nofun nofun rfl rfl
  | stop =>
      cases EventLoop.step_effect moved with
      | stop => exact .aside _ nofun nofun nofun nofun rfl rfl
  | accept clients last =>
      cases EventLoop.step_effect moved with
      | accept _ _ _ _ _ _ after accepted =>
          rcases EventLoop.acceptAll_queues accepted with ⟨tasks, queue, _⟩
          exact .accepts clients last tasks queue
  | recv received =>
      have ran : before.loop.step (.recv received) = some next := ran
      simp only [EventLoop.step] at ran
      split at ran
      case h_1 event rest phase => exact follows_recv phase ran
      case h_2 => cases ran
  | write answers =>
      have ran : before.loop.step (.write answers) = some next := ran
      simp only [EventLoop.step] at ran
      split at ran
      case h_1 event rest phase => exact follows_write phase ran
      case h_2 => cases ran
  | drain answers =>
      have ran : before.loop.step (.drain answers) = some next := ran
      simp only [EventLoop.step] at ran
      split at ran
      case h_1 rest phase => exact recorded.follows_drain ran
      case h_2 => cases ran
  | work index response => exact recorded.follows_work ran

theorem start_recorded (listenFd wakeupFd : Fd) :
    (start listenFd wakeupFd).Recorded :=
  ⟨rfl, rfl, rfl⟩

/-- The record and the queues of the event loop do not matter to each other. -/
theorem Recorded.aside {before after : Trace} (recorded : before.Recorded)
    (waiting : after.waiting = before.waiting)
    (jobs : after.jobs = before.jobs)
    (tasks : after.loop.tasks = before.loop.tasks)
    (pendingWrites : after.loop.pendingWrites = before.loop.pendingWrites) :
    after.Recorded := by
  constructor
  · rw [pendingWrites]
    exact recorded.opened
  · rw [waiting, pendingWrites]
    exact recorded.waiting
  · rw [jobs, tasks]
    exact recorded.jobs

@[simp]
theorem waiting_note (trace : Trace) (socket : Option Nat) (calls : List Call) :
    (trace.note socket calls).waiting = trace.waiting := by
  cases socket <;> rfl

@[simp]
theorem jobs_note (trace : Trace) (socket : Option Nat) (calls : List Call) :
    (trace.note socket calls).jobs = trace.jobs := by
  cases socket <;> rfl

@[simp]
theorem taken_note (trace : Trace) (socket : Option Nat) (calls : List Call) :
    (trace.note socket calls).taken = trace.taken := by
  cases socket <;> rfl

theorem Recorded.received {before : Trace} {next : EventLoop}
    (recorded : before.Recorded) {id : Nat} {dispatch : Dispatch}
    (client : Client)
    (asked : before.loop.Asked id (some dispatch) next) :
    (before.received next id client dispatch).Recorded := by
  cases asked with
  | nothing _ silent _ tasks pendingWrites =>
      rcases silent with none | nothing
      · cases none
      · cases nothing
        exact recorded.aside rfl rfl tasks pendingWrites
  | posts data _ tasks accepted pushed =>
      rcases TaskQueue.push_eq_some pushed with
        ⟨closed, _, _⟩ | ⟨_, _, _, queued, _, closed⟩
      · rw [recorded.opened] at closed
        cases closed
      · constructor
        · exact closed.trans recorded.opened
        · show (before.waiting ++ _).map Pushed.pw = next.pendingWrites.queue
          rw [added, queued, List.drop_left, List.map_append, recorded.waiting]
          rfl
        · exact recorded.jobs.trans tasks.symm
  | submits request keepAlive _ tasks pendingWrites =>
      constructor
      · show next.pendingWrites.closed = false
        rw [pendingWrites]
        exact recorded.opened
      · show before.waiting.map Pushed.pw = next.pendingWrites.queue
        rw [pendingWrites]
        exact recorded.waiting
      · show (before.jobs ++ _).map Job.conn = next.tasks
        rw [List.map_append, recorded.jobs, tasks]
        rfl

theorem Recorded.step {before after : Trace} {action : EventLoop.Action}
    (recorded : before.Recorded)
    (stepped : machine.step before action = some after) : after.Recorded := by
  rcases recorded.follows stepped with ⟨next, _, follows⟩
  cases follows with
  | aside _ _ _ _ _ tasks pendingWrites =>
      exact recorded.aside rfl rfl tasks pendingWrites
  | accepts _ _ tasks pendingWrites =>
      exact recorded.aside rfl rfl tasks pendingWrites
  | receives received id client _ dispatch _ asked =>
      exact recorded.received client asked
  | writes answers id client _ flushed _ _ tasks pendingWrites =>
      apply recorded.aside
      · exact waiting_note _ _ _
      · exact jobs_note _ _ _
      · rw [loop_note]
        exact tasks
      · rw [loop_note]
        exact pendingWrites
  | hands answers entry rest _ id client _ _ _ flushed _ _ tasks closed
      popped =>
      constructor
      · show (note _ _ _).loop.pendingWrites.closed = false
        rw [loop_note]
        exact closed.trans recorded.opened
      · show (note _ _ _).waiting.map Pushed.pw =
          (note _ _ _).loop.pendingWrites.queue
        rw [loop_note, waiting_note]
        exact popped.symm
      · show (note _ _ _).jobs.map Job.conn = (note _ _ _).loop.tasks
        rw [loop_note, jobs_note]
        exact recorded.jobs.trans tasks.symm
  | discards answers entry rest _ conn _ _ _ tasks closed popped =>
      exact ⟨closed.trans recorded.opened, popped.symm,
        recorded.jobs.trans tasks.symm⟩
  | throws index job _ tasks pendingWrites =>
      constructor
      · show next.pendingWrites.closed = false
        rw [pendingWrites]
        exact recorded.opened
      · show before.waiting.map Pushed.pw = next.pendingWrites.queue
        rw [pendingWrites]
        exact recorded.waiting
      · show (before.jobs.eraseIdx index).map Job.conn = next.tasks
        rw [tasks, ← recorded.jobs, List.eraseIdx_map]
  | posts index job _ tasks response closed queued =>
      constructor
      · exact closed.trans recorded.opened
      · show (before.waiting ++ _).map Pushed.pw = next.pendingWrites.queue
        rw [queued, List.map_append, recorded.waiting]
        rfl
      · show (before.jobs.eraseIdx index).map Job.conn = next.tasks
        rw [tasks, ← recorded.jobs, List.eraseIdx_map]

end Trace

end Cppws.App
