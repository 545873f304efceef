import Cppws.App.ReadCallback
import Cppws.Core.PendingWrite
import Cppws.Core.TaskQueue
import Cppws.Net.Epoll

/-!
# The event loop

`EventLoop::run` of `core/event_loop.hpp` with the callbacks of `main.cpp`, the
kernel and the workers, as a machine.  A step of the event loop ends where it
makes a system call whose outcome it depends on; a step of a worker posts one
response and can come at any time.  Connections live in a heap under their
numbers, since the queues hold pointers to them too.  What happens after the
loop has ended is left out.
-/

namespace Cppws.App

open Cppws.Core
open Cppws.Http
open Cppws.Net

/-- A connection with the parser that its read callback holds. -/
structure Client where
  conn : Connection
  parser : HttpParser
  /-- Requests submitted and parse errors so far. -/
  recognised : Nat := 0
  /-- Responses handed over to the connection so far. -/
  answered : Nat := 0

/-- The call out of which an exception comes. -/
inductive Fault where
  | accept
  | modify (socket : Option Fd)
deriving DecidableEq

inductive Phase where
  /-- About to call `epoll_.wait`. -/
  | waiting
  /-- About to handle the first of these events. -/
  | handling (batch : List EpollEvent)
  /-- In the loop of `drain_pending_writes`. -/
  | draining (rest : List EpollEvent)
  /-- In `on_readable` for an event. -/
  | reading (event : EpollEvent) (rest : List EpollEvent)
  /-- About to call `flush_write` for an event. -/
  | writing (event : EpollEvent) (rest : List EpollEvent)
  /-- An exception has left `run`. -/
  | threw (fault : Fault)
deriving DecidableEq

structure EventLoop where
  listenFd : Fd
  wakeupFd : Fd
  kernel : Kernel
  connections : Fd → Option Nat := fun _ => none
  heap : Nat → Option Client := fun _ => none
  nextConnId : Nat := 0
  pendingWrites : TaskQueue PendingWrite := {}
  /-- The connections of the tasks that have not ended. -/
  tasks : List Nat := []
  running : Bool := true
  phase : Phase := .waiting

namespace EventLoop

def maxEvents : Nat := 1024

/-- `EPOLLIN | EPOLLET`. -/
def serverMask : Events where
  input := true
  edgeTriggered := true

/-- `EPOLLIN | EPOLLET | EPOLLRDHUP`. -/
def readMask : Events where
  input := true
  rdhup := true
  edgeTriggered := true

/-- `EPOLLIN | EPOLLOUT | EPOLLET | EPOLLRDHUP`. -/
def writeMask : Events where
  input := true
  output := true
  rdhup := true
  edgeTriggered := true

/-- The event loop when `run` begins. -/
def start (listenFd wakeupFd : Fd) : EventLoop where
  listenFd := listenFd
  wakeupFd := wakeupFd
  kernel := .listening listenFd wakeupFd serverMask

/-- Why `accept4` returned no socket. -/
inductive Refusal where
  /-- `EAGAIN` or `EWOULDBLOCK`. -/
  | again
  /-- `ECONNABORTED`. -/
  | aborted
  | other
deriving DecidableEq

inductive Action where
  /-- `epoll_.wait` returns a batch. -/
  | wait (batch : List EpollEvent)
  /-- `accept_new_connections` for the sockets that `accept4` returns. -/
  | accept (clients : List Fd) (last : Refusal)
  /-- `handle_event` up to its first system call. -/
  | handle
  /-- One `recv`. -/
  | recv (received : Received)
  /-- `flush_write` of `handle_event`. -/
  | write (answers : List Answer)
  /-- One round of `drain_pending_writes`. -/
  | drain (answers : List Answer)
  /-- The end of an iteration of `run`. -/
  | reap
  /-- A task ends, having posted a response unless it threw. -/
  | work (index : Nat) (response : Option PendingWrite)
  | stop

/-- The connection that a pointer refers to. -/
def deref (loop : EventLoop) (conn : Option Nat) : Option (Nat × Client) :=
  conn.bind fun id => (loop.heap id).map fun client => (id, client)

/-- `connections_.find`. -/
def find (loop : EventLoop) (fd : Fd) : Option (Nat × Client) :=
  loop.deref (loop.connections fd)

/-- A connection has changed and made some calls. -/
def put (loop : EventLoop) (id : Nat) (client : Client) (calls : List Call) :
    EventLoop :=
  { loop with
    heap := Function.update loop.heap id (some client)
    kernel := loop.kernel.applyAll calls }

/-- `epoll_.modify`, and what comes next unless it throws. -/
def modify (loop : EventLoop) (socket : Option Fd) (events : Events)
    (next : Phase) : EventLoop :=
  match socket.bind fun fd => loop.kernel.modify fd events with
  | some kernel => { loop with kernel := kernel, phase := next }
  | none => { loop with phase := .threw (.modify socket) }

/-! ## The functions of the event loop -/

/-- `accept_new_connections` for one socket. -/
def acceptOne (loop : EventLoop) (fd : Fd) : Option EventLoop :=
  (loop.kernel.openSocket fd).bind fun opened =>
    (opened.add fd readMask).map fun kernel =>
      let id := loop.nextConnId
      if loop.connections fd = none then
        { loop with
          kernel := kernel
          connections := Function.update loop.connections fd (some id)
          heap :=
            Function.update loop.heap id
              (some
                { conn := .opened fd id
                  parser := .fresh defaultMaxBodySize })
          nextConnId := id + 1 }
      else
        { loop with
          kernel := kernel.close fd
          nextConnId := id + 1 }

def acceptAll (loop : EventLoop) : List Fd → Option EventLoop
  | [] => some loop
  | fd :: rest => (loop.acceptOne fd).bind fun next => next.acceptAll rest

def Refusal.next (rest : List EpollEvent) : Refusal → Phase
  | .again => .handling rest
  | .aborted => .handling rest
  | .other => .threw .accept

/-- `handle_event`, except for the listening socket. -/
def handleEvent (loop : EventLoop) (event : EpollEvent)
    (rest : List EpollEvent) : EventLoop :=
  if event.fd = loop.wakeupFd then
    { loop with phase := .draining rest }
  else
    match loop.find event.fd with
    | none => { loop with phase := .handling rest }
    | some (id, client) =>
        if event.isClosed then
          { loop.put id { client with conn := client.conn.onClosed.1 }
              client.conn.onClosed.2 with
            phase := .handling rest }
        else if event.isReadable then
          { loop with phase := .reading event rest }
        else if event.isWritable then
          { loop with phase := .writing event rest }
        else
          { loop with phase := .handling rest }

/-- The read callback is called after bytes have been read. -/
def called (loop : EventLoop) (id : Nat) (client : Client) :
    Option EventLoop :=
  let called := readCallback client.conn client.parser
  let quiet := { client with conn := called.1, parser := called.2.1 }
  let dispatched := { quiet with recognised := client.recognised + 1 }
  match called.2.2 with
  | .nothing => some (loop.put id quiet [])
  | .postResponse data =>
      (loop.pendingWrites.push { conn := some id, data := data }).map
        fun pushed =>
          { loop.put id dispatched [] with pendingWrites := pushed.1 }
  | .submit _ _ =>
      some { loop.put id dispatched [] with tasks := loop.tasks ++ [id] }

/-- One round of `on_readable`. -/
def readSome (loop : EventLoop) (event : EpollEvent)
    (rest : List EpollEvent) (received : Received) : Option EventLoop :=
  (loop.find event.fd).bind fun (id, client) =>
    let read := client.conn.readOnce received
    let next := loop.put id { client with conn := read.1 } read.2.1
    match read.2.2 with
    | .callback => next.called id { client with conn := read.1 }
    | .retry => some next
    | .blocked =>
        some
          { next with
            phase :=
              if event.isWritable then .writing event rest
              else .handling rest }
    | .closed => some { next with phase := .handling rest }

/-- The writable branch of `handle_event`. -/
def writeBack (loop : EventLoop) (event : EpollEvent)
    (rest : List EpollEvent) (answers : List Answer) : Option EventLoop :=
  (loop.find event.fd).bind fun (id, client) =>
    (client.conn.flushWrite answers).bind fun flushed =>
      let next := loop.put id { client with conn := flushed.conn } flushed.calls
      if flushed.rest ≠ [] then
        none
      else if flushed.remaining = 0 then
        some (next.modify (some event.fd) readMask (.handling rest))
      else
        some { next with phase := .handling rest }

/-- One round of `drain_pending_writes`. -/
def drainOne (loop : EventLoop) (rest : List EpollEvent)
    (answers : List Answer) : Option EventLoop :=
  match loop.pendingWrites.tryPop with
  | (_, none) => some { loop with phase := .handling rest }
  | (queue, some pw) =>
      let popped := { loop with pendingWrites := queue }
      match loop.deref pw.conn with
      | none => some popped
      | some (id, client) =>
          if client.conn.isAlive then
            (pw.deliver client.conn answers).bind fun flushed =>
              let next :=
                popped.put id
                  { client with
                    conn := flushed.conn
                    answered := client.answered + 1 }
                  flushed.calls
              if flushed.rest ≠ [] then
                none
              else if 0 < flushed.remaining then
                some
                  (next.modify flushed.conn.socket writeMask (.draining rest))
              else
                some next
          else
            some popped

/-- The key of a dead entry of `connections_`. -/
def dead (loop : EventLoop) (fd : Fd) : Bool :=
  (loop.find fd).any fun found => !found.2.conn.isAlive

/-- `remove_connection` for all dead connections. -/
def reaped (loop : EventLoop) : EventLoop :=
  { loop with
    kernel := loop.kernel.removeAll loop.dead
    connections := fun fd => if loop.dead fd then none else loop.connections fd
    phase := .waiting }

/-- A task ends. -/
def finished (loop : EventLoop) (index : Nat) (response : Option PendingWrite) :
    Option EventLoop :=
  loop.tasks[index]?.bind fun id =>
    let ended := { loop with tasks := loop.tasks.eraseIdx index }
    match response with
    | none => some ended
    | some pw =>
        (loop.pendingWrites.push { pw with conn := some id }).map fun pushed =>
          { ended with pendingWrites := pushed.1 }

def step (loop : EventLoop) : Action → Option EventLoop
  | .wait batch =>
      if loop.phase = .waiting ∧ loop.running ∧
        batch.length ≤ maxEvents ∧
          loop.kernel.Reports batch then
        some { loop with phase := .handling batch }
      else
        none
  | .accept clients last =>
      match loop.phase with
      | .handling (event :: rest) =>
          if event.fd = loop.listenFd then
            (loop.acceptAll clients).map fun next =>
              { next with phase := last.next rest }
          else
            none
      | _ => none
  | .handle =>
      match loop.phase with
      | .handling (event :: rest) =>
          if event.fd = loop.listenFd then
            none
          else
            some (loop.handleEvent event rest)
      | _ => none
  | .recv received =>
      match loop.phase with
      | .reading event rest => loop.readSome event rest received
      | _ => none
  | .write answers =>
      match loop.phase with
      | .writing event rest => loop.writeBack event rest answers
      | _ => none
  | .drain answers =>
      match loop.phase with
      | .draining rest => loop.drainOne rest answers
      | _ => none
  | .reap =>
      match loop.phase with
      | .handling [] => some loop.reaped
      | _ => none
  | .work index response => loop.finished index response
  | .stop => some { loop with running := false }

def machine : Machine EventLoop Action where
  step := step

/-! ## A run for the examples -/

def readable (fd : Fd) : EpollEvent where
  events := { input := true }
  fd := fd

def writable (fd : Fd) : EpollEvent where
  events := { output := true }
  fd := fd

def hangup (fd : Fd) : EpollEvent where
  events := { hup := true }
  fd := fd

/--
With 3 and 5 as the descriptors of the server: a client is accepted as 6, sends
a request of at least one byte, and a worker posts the response.
-/
def exchange (first : UInt8) (rest : Bytes) (response : Bytes) : List Action :=
  [.wait [readable 3], .accept [6] .again, .reap,
    .wait [readable 6], .handle, .recv (.data first rest),
    .recv (.failed .again), .reap,
    .work 0 (some { conn := none, data := response })]

end EventLoop

end Cppws.App
