import Cppws.App.Arrival

/-!
# Clients that wait for their answers

Every client has some requests, and sends nothing of a request before it has
read the answers to all requests before it.  For such clients the order of the
steps that the answers depend on comes about by itself: whatever the threads
and the kernel do, each client reads the answers to its own requests, one after
the other.
-/

namespace Cppws.App

open Cppws.Core
open Cppws.Http
open Cppws.Net

/-! ## The server and its clients -/

/-- The whole server, and what it has received on each connection. -/
structure Session where
  dialogue : Dialogue
  received : Nat → Bytes := fun _ => []

namespace Session

open Answering (Action)

def start (listenFd wakeupFd : Fd) : Session where
  dialogue := .start listenFd wakeupFd

/-- What has been received after a step. -/
def receives (session : Session) : Action Host → Nat → Bytes
  | .loop (.recv received) =>
      match session.dialogue.trace.loop.currentClient with
      | some (id, client) =>
          Function.update session.received id
            (session.received id ++ taken client.conn received)
      | none => session.received
  | _ => session.received

def step (router : Router Host) (session : Session) (action : Action Host) :
    Option Session :=
  (session.dialogue.step router action).map fun dialogue =>
    { dialogue := dialogue, received := session.receives action }

def machine (router : Router Host) : Machine Session (Action Host) where
  step := step router

/-- The responses that a client has read. -/
def answersRead (session : Session) (id : Nat) : List Decoded :=
  match session.dialogue.trace.home id with
  | some socket =>
      (StreamReader.readAll readResponse
        (wire (session.dialogue.trace.calls socket))).1
  | none => []

/--
Of the requests of a client nothing is received that comes after the first one
it has not read the answer to, and no chunk ends inside a line of a head.  Files
are as long as their sizes say.
-/
def Patient (router : Router Host) (requests : Nat → List Request)
    (session : Session) : Action Host → Prop
  | .loop (.recv received) =>
      ∀ found ∈ session.dialogue.trace.loop.currentClient,
        session.received found.1 ++ taken found.2.conn received <+:
            stream ((requests found.1).take
              ((session.answersRead found.1).length + 1)) ∧
          CutAllowed (requests found.1)
            (session.received found.1 ++
              taken found.2.conn received).length
  | .loop _ => True
  | .work index host files =>
      session.dialogue.Orderly router (.work index host files)

instance (router : Router Host) (requests : Nat → List Request)
    (session : Session) :
    ∀ action, Decidable (session.Patient router requests action)
  | .loop (.recv received) =>
      inferInstanceAs (Decidable
        (∀ found ∈ session.dialogue.trace.loop.currentClient,
          session.received found.1 ++ taken found.2.conn received <+:
              stream ((requests found.1).take
                ((session.answersRead found.1).length + 1)) ∧
            CutAllowed (requests found.1)
              (session.received found.1 ++
                taken found.2.conn received).length))
  | .loop (.wait _) | .loop (.accept _ _) | .loop .handle | .loop (.write _)
  | .loop (.drain _) | .loop .reap | .loop (.work _ _) | .loop .stop =>
      inferInstanceAs (Decidable True)
  | .work index host files =>
      inferInstanceAs
        (Decidable (session.dialogue.Orderly router (.work index host files)))

variable {router : Router Host} {requests : Nat → List Request}

/-- No response is longer than a size can say. -/
def Small (trace : Trace) : Prop :=
  ∀ entry ∈ trace.pushed, entry.pw.bytes.length < 2 ^ 64

/-- What holds in every state of a run with such clients. -/
structure Kept (router : Router Host) (requests : Nat → List Request)
    (session : Session) : Prop where
  dialogue : session.dialogue.Kept router
  memory : ∃ peak,
    Memory.Kept { loop := session.dialogue.trace.loop, peak := peak }
  reading : ∀ id client, session.dialogue.trace.loop.heap id = some client →
    Reading (requests id) (session.dialogue.heard id) (session.received id)
      client.parser
  unknown : ∀ id, session.dialogue.trace.loop.heap id = none →
    session.dialogue.heard id = [] ∧ session.received id = []
  /-- All answers but the last one have arrived. -/
  caughtUp : ∀ id socket, session.dialogue.trace.home id = some socket →
    Trace.bytesOf ((session.dialogue.trace.postedTo id).take
        ((session.dialogue.heard id).length - 1)) <+:
      wire (session.dialogue.trace.calls socket)

theorem start_kept (listenFd wakeupFd : Fd) :
    (start listenFd wakeupFd).Kept router requests where
  dialogue := Dialogue.start_kept listenFd wakeupFd
  memory := ⟨_, Memory.start_kept listenFd wakeupFd⟩
  reading := by
    intro id client found
    cases found
  unknown := fun _ _ => ⟨rfl, rfl⟩
  caughtUp := by
    intro id socket held
    cases held

variable {session : Session}

/-- A client has read at most the answers that were posted. -/
theorem Kept.read_le {system : Posix.FileSystem}
    (built : Answering.buildRouter system = some router)
    (kept : session.Kept router requests)
    (small : Small session.dialogue.trace) (id : Nat) :
    (session.answersRead id).length ≤
        (session.dialogue.trace.postedTo id).length ∧
      (session.dialogue.trace.postedTo id).length ≤
        (session.dialogue.heard id).length ∧
      (session.dialogue.heard id).length - 1 ≤
        (session.dialogue.trace.postedTo id).length ∧
      ((session.answersRead id).length =
          (session.dialogue.trace.postedTo id).length →
        ∀ socket, session.dialogue.trace.home id = some socket →
          Trace.bytesOf (session.dialogue.trace.postedTo id) <+:
            wire (session.dialogue.trace.calls socket)) := by
  rcases kept.dialogue.answered built id
      (fun entry member => small entry (List.mem_of_mem_filter member)) with
    ⟨pending, responses, split, _, few, answers, reads⟩
  have same := answers.length_eq
  have posted := reads.length_eq
  rw [List.length_map] at posted
  rw [split, List.length_append, List.length_map]
  have all (socket : Nat)
      (home : session.dialogue.trace.home id = some socket) :
      session.answersRead id = (StreamReader.readAll readResponse
        (wire (session.dialogue.trace.calls socket))).1 := by
    rw [answersRead, home]
  refine ⟨?_, by omega, by omega, ?_⟩
  · cases home : session.dialogue.trace.home id with
    | none =>
        rw [answersRead, home]
        exact Nat.zero_le _
    | some socket =>
        have begins := kept.dialogue.arrived home
        rw [Dialogue.bytesOf_eq] at begins
        have most := readResponse_steady.readAll_mono begins
        rw [readResponse_steady.readAll_encoded reads] at most
        rw [all socket home, ← posted]
        exact most.length_le
  · intro everything socket home
    have begins := kept.dialogue.arrived home
    rw [Dialogue.bytesOf_eq] at begins ⊢
    have whole := readResponse_steady.received_of_readAll reads begins
    rwa [← all socket home, everything, List.take_of_length_le
      (List.length_map _).le] at whole

/-! ## What the callback hears -/

/-- What a chunk of a patient client makes of its connection. -/
inductive Receives (requests : List Request) (heard : List Message)
    (received chunk : Bytes) (message : Option Message) (parser : HttpParser)
    (answered : Prop) : Prop where
  | continues (nothing : message = none)
      (reading : Reading requests heard (received ++ chunk) parser)
  /-- A request is recognised, and those before it have been answered. -/
  | recognises (request : Request)
      (heard_request : message = some (.request request.toRequest))
      (turn : answered)
      (reading : Reading requests (heard ++ [.request request.toRequest])
        (received ++ chunk) parser)

theorem stream_take_lt {requests : List Request} {fewer more : Nat}
    (less : fewer < more) (within : more ≤ requests.length) :
    (stream (requests.take fewer)).length <
      (stream (requests.take more)).length := by
  have next : requests.take (fewer + 1) =
      requests.take fewer ++ [requests[fewer]] :=
    List.take_succ_eq_append_getElem (by omega)
  have earlier : requests.take (fewer + 1) <+: requests.take more :=
    List.take_prefix_take_left less
  have long := (earlier.flatMap WireRequest.bytes).length_le
  change (stream _).length ≤ (stream _).length at long
  rw [next, stream_append, stream_singleton, List.length_append] at long
  have some_bytes := bytes_pos requests[fewer]
  omega

theorem Kept.receives {system : Posix.FileSystem}
    (built : Answering.buildRouter system = some router)
    (kept : session.Kept router requests)
    (small : Small session.dialogue.trace) {received : Received}
    (patient : session.Patient router requests (.loop (.recv received)))
    {id : Nat} {client : Client}
    (current : session.dialogue.trace.loop.currentClient =
      some (id, client)) :
    Receives (requests id) (session.dialogue.heard id) (session.received id)
      (taken client.conn received) (client.message received)
      (client.parserAfter received)
      ((session.dialogue.trace.postedTo id).length =
          (session.dialogue.heard id).length ∧
        ∀ socket, session.dialogue.trace.home id = some socket →
          Trace.bytesOf (session.dialogue.trace.postedTo id) <+:
            wire (session.dialogue.trace.calls socket)) := by
  rcases patient (id, client) current with ⟨begins, cut⟩
  rcases kept.read_le built small id with ⟨read, posted, -, arrived⟩
  have found := Trace.found_of_current current
  have reading := kept.reading id client found
  rcases kept.memory with ⟨peak, memory⟩
  have afresh := (memory.sized id client found).afresh
  rcases readOnce_taken afresh received with
    ⟨silent, nothing⟩ | ⟨called, shown, chunk, -⟩
  · refine .continues ?_ ?_
    · rw [Client.message, if_neg silent]
    · rw [Client.parserAfter, if_neg silent, nothing, List.append_nil]
      exact reading
  · have earlier : (requests id).take ((session.answersRead id).length + 1) <+:
        (requests id).take ((session.dialogue.heard id).length + 1) :=
      List.take_prefix_take_left (by omega)
    rcases reading.feeds chunk
        (begins.trans (earlier.flatMap WireRequest.bytes)) cut with
      ⟨next, fed, reading⟩ | ⟨request, fed, whole, more, reading⟩
    · refine .continues ?_ ?_
      · rw [Client.message, if_pos called]
        simp only [shown, fed]
      · rw [Client.parserAfter, if_pos called, readCallback, shown]
        simp only [fed]
        exact reading
    · -- The client has read the answers to all requests before this one.
      have all : (session.dialogue.heard id).length ≤
          (session.answersRead id).length := by
        by_contra fewer
        have less := stream_take_lt
          (Nat.succ_lt_succ (Nat.lt_of_not_le fewer)) (Nat.succ_le_of_lt more)
        rw [whole] at begins
        exact absurd begins.length_le (Nat.not_le_of_lt less)
      refine .recognises request ?_ ⟨by omega, arrived (by omega)⟩ ?_
      · rw [Client.message, if_pos called]
        simp only [shown, fed]
        rfl
      · rw [Client.parserAfter, if_pos called, readCallback, shown]
        simp only [fed]
        exact reading

/-! ## The order of the steps -/

/-- Nothing is left to send for a connection that something waits for. -/
theorem Kept.fileSent {system : Posix.FileSystem}
    (built : Answering.buildRouter system = some router)
    (kept : session.Kept router requests)
    (small : Small session.dialogue.trace) {answers : List Answer}
    (sound : session.dialogue.trace.loop.Sound) :
    session.dialogue.trace.FileSent (.drain answers) := by
  rintro entry first ⟨id, client⟩ named alive
  rcases EventLoop.deref_eq_some_iff.1 named with ⟨named, found⟩
  have open_ := Trace.socket_of_alive sound found alive
  rcases home_of_client kept.dialogue.settled.homed found with
    ⟨socket, home⟩
  rcases kept.dialogue.flowing.holds id client socket found home open_ with
    ⟨handed, whole⟩
  rcases kept.read_le built small id with ⟨-, posted, -⟩
  -- What was taken out had been posted before the entry.
  have later : session.dialogue.trace.takenTo id ++ [entry] <+:
      session.dialogue.trace.postedTo id := by
    rcases List.head?_eq_some_iff.1 first with ⟨rest, waiting⟩
    rw [Trace.postedTo, Trace.pushed, waiting, List.filter_append,
      List.filter_cons, if_pos (decide_eq_true named)]
    exact ⟨_, List.append_assoc _ _ _⟩
  have count := later.length_le
  rw [List.length_append, List.length_singleton] at count
  have earlier : session.dialogue.trace.takenTo id <+:
      (session.dialogue.trace.postedTo id).take
        ((session.dialogue.heard id).length - 1) := by
    rw [List.prefix_take_iff]
    exact ⟨session.dialogue.trace.takenTo_prefix id, by omega⟩
  have sent := (earlier.flatMap fun entry => entry.pw.bytes).trans
    (kept.caughtUp id socket home)
  have length := sent.length_le
  change (Trace.bytesOf _).length ≤ _ at length
  rw [← handed, ← whole, List.length_append] at length
  have nothing : client.conn.unsent = [] :=
    List.length_eq_zero_iff.1 (by omega)
  exact (List.append_eq_nil_iff.1 nothing).2

/-- The step of the event loop that a step is. -/
theorem traced {before after : Session} {action : Action Host}
    (stepped : (machine router).step before action = some after) :
    ∃ label, Trace.machine.step before.dialogue.trace label =
        some after.dialogue.trace ∧
      (action = .loop label ∨
        (∃ index response, label = .work index response) ∧
          ∃ index host files, action = .work index host files) := by
  rcases Option.map_eq_some_iff.1 stepped with ⟨dialogue, talked, rfl⟩
  rcases Option.map_eq_some_iff.1 talked with ⟨trace, ran, rfl⟩
  cases action with
  | work index host files =>
      rcases Option.bind_eq_some_iff.1 ran with ⟨job, _, ran⟩
      exact ⟨_, ran, Or.inr ⟨⟨_, _, rfl⟩, _, _, _, rfl⟩⟩
  | loop action =>
      have working : ∀ index response, action ≠ .work index response := by
        rintro index response rfl
        cases ran
      rw [Dialogue.step_loop before.dialogue.trace working] at ran
      exact ⟨action, ran, Or.inl rfl⟩

theorem Kept.orderly {system : Posix.FileSystem}
    (built : Answering.buildRouter system = some router)
    (kept : session.Kept router requests)
    (small : Small session.dialogue.trace) {action : Action Host}
    (patient : session.Patient router requests action) {next : Session}
    (stepped : (machine router).step session action = some next) :
    session.dialogue.Orderly router action := by
  cases action with
  | work index host files => exact patient
  | loop action =>
      cases action with
      | recv received =>
          refine ⟨?_, trivial⟩
          rintro ⟨id, client⟩ current recognised
          cases kept.receives built small patient current with
          | continues nothing =>
              rw [nothing] at recognised
              cases recognised
          | recognises request _ turn => exact turn.1
      | drain answers =>
          rcases traced stepped with
            ⟨label, ran, same | ⟨_, _, _, _, other⟩⟩
          · cases same
            have settled := kept.dialogue.settled
            rcases settled.recorded.follows ran with ⟨_, moved, _⟩
            have sound := sound_of_own settled.standing moved
              (Or.inr (Or.inl ⟨answers, rfl⟩))
            exact ⟨trivial, kept.fileSent built small sound⟩
          · cases other
      | wait | accept | handle | write | reap | work | stop =>
          exact ⟨trivial, trivial⟩

/-! ## What a step preserves -/

/-- What has been pushed stays there, and what was sent stays sent. -/
theorem grows {before after : Trace} {action : EventLoop.Action}
    (recorded : before.Recorded)
    (stepped : Trace.machine.step before action = some after) :
    before.pushed <+: after.pushed ∧
      ∀ socket, wire (before.calls socket) <+: wire (after.calls socket) := by
  rcases recorded.follows stepped with ⟨next, _, follows⟩
  have noted (trace : Trace) (own : Option Nat) (calls : List Call)
      (socket : Nat) :
      wire (trace.calls socket) <+:
        wire ((trace.note own calls).calls socket) := by
    cases own with
    | none => exact List.prefix_refl _
    | some own =>
        show _ <+: wire (Function.update trace.calls own _ socket)
        by_cases here : socket = own
        · rw [here, Function.update_self, wire_append]
          exact List.prefix_append _ _
        · rw [Function.update_of_ne here]
  constructor
  · cases follows.proceeds with
    | aside _ _ _ _ _ added pushed => exact ⟨added, pushed.symm⟩
    | submits _ _ _ _ _ _ pushed => exact pushed ▸ List.prefix_refl _
    | ends _ _ _ _ _ _ _ pushed => exact ⟨_, pushed.symm⟩
  · intro socket
    cases follows with
    | aside | accepts | discards | throws | posts => exact List.prefix_refl _
    | receives _ _ _ _ dispatch =>
        cases dispatch <;> exact List.prefix_refl _
    | writes answers id client _ flushed =>
        exact noted { before with loop := next } _ flushed.calls socket
    | hands answers entry rest _ id client _ _ _ flushed =>
        exact noted { before with loop := next, waiting := rest } _
          flushed.calls socket

theorem receives_of_recv {before after : Session} {received : Received}
    {id : Nat} {client : Client}
    (current : before.dialogue.trace.loop.currentClient = some (id, client))
    (stepped : (machine router).step before (.loop (.recv received)) =
      some after) :
    after.dialogue.heard = Function.update before.dialogue.heard id
        (before.dialogue.heard id ++ (client.message received).toList) ∧
      after.received = Function.update before.received id
        (before.received id ++ taken client.conn received) := by
  rcases Option.map_eq_some_iff.1 stepped with ⟨dialogue, talked, rfl⟩
  rcases Option.map_eq_some_iff.1 talked with ⟨trace, ran, rfl⟩
  simp only [Dialogue.hears, Session.receives, current, and_self]

theorem receives_aside {before after : Session} {action : Action Host}
    (receiving : ∀ received, action ≠ .loop (.recv received))
    (stepped : (machine router).step before action = some after) :
    after.dialogue.heard = before.dialogue.heard ∧
      after.received = before.received := by
  rcases Option.map_eq_some_iff.1 stepped with ⟨dialogue, talked, rfl⟩
  rcases Option.map_eq_some_iff.1 talked with ⟨trace, ran, rfl⟩
  cases action with
  | work index host files => exact ⟨rfl, rfl⟩
  | loop action =>
      cases action with
      | recv received => exact absurd rfl (receiving received)
      | wait | accept | handle | write | drain | reap | work | stop =>
          exact ⟨rfl, rfl⟩

/-- What a step makes of what is heard and received on a connection. -/
theorem Kept.hears {system : Posix.FileSystem}
    (built : Answering.buildRouter system = some router)
    {before after : Session} (kept : before.Kept router requests)
    (small : Small before.dialogue.trace) {action : Action Host}
    (patient : before.Patient router requests action)
    (stepped : (machine router).step before action = some after)
    {id : Nat} {moved : Client}
    (found : after.dialogue.trace.loop.heap id = some moved) :
    Reading (requests id) (after.dialogue.heard id) (after.received id)
        moved.parser ∧
      ∀ socket, before.dialogue.trace.home id = some socket →
        (after.dialogue.heard id).length - 1 ≤
            (before.dialogue.trace.postedTo id).length ∧
          Trace.bytesOf ((before.dialogue.trace.postedTo id).take
              ((after.dialogue.heard id).length - 1)) <+:
            wire (before.dialogue.trace.calls socket) := by
  rcases traced stepped with ⟨label, ran, kind⟩
  have settled := kept.dialogue.settled
  rcases Option.map_eq_some_iff.1 ran with ⟨next, moves, same⟩
  have moves : EventLoop.machine.step before.dialogue.trace.loop label =
      some after.dialogue.trace.loop := by
    rw [← same, Trace.loop_follow]
    exact moves
  rcases kept.read_le built small id with ⟨-, -, posted, -⟩
  by_cases receives : ∃ received, action = .loop (.recv received)
  · rcases receives with ⟨received, rfl⟩
    have label : label = .recv received := by
      rcases kind with same | ⟨_, _, _, _, other⟩
      · cases same
        rfl
      · cases other
    subst label
    rcases recv_parses moves with ⟨own, client, current, new, heap, parser⟩
    rcases receives_of_recv current stepped with ⟨heard, received_⟩
    rw [heap] at found
    rw [heard, received_]
    by_cases here : id = own
    · subst here
      rw [Function.update_self, Option.some.injEq] at found
      rw [Function.update_self, Function.update_self, ← found, parser]
      cases kept.receives built small patient current with
      | continues nothing reading =>
          rw [nothing, Option.toList_none, List.append_nil]
          exact ⟨reading, fun socket home =>
            ⟨posted, kept.caughtUp id socket home⟩⟩
      | recognises request recognised turn reading =>
          rw [recognised, Option.toList_some, List.length_append,
            List.length_singleton, Nat.add_sub_cancel, ← turn.1,
            List.take_length]
          exact ⟨reading, fun socket home =>
            ⟨Nat.le_refl _, turn.2 socket home⟩⟩
    · rw [Function.update_of_ne here] at found
      rw [Function.update_of_ne here, Function.update_of_ne here]
      exact ⟨kept.reading id moved found, fun socket home =>
        ⟨posted, kept.caughtUp id socket home⟩⟩
  · have receiving : ∀ received, action ≠ .loop (.recv received) :=
      fun received same => receives ⟨received, same⟩
    rcases receives_aside receiving stepped with ⟨heard, received⟩
    rw [heard, received]
    refine ⟨?_, fun socket home =>
      ⟨posted, kept.caughtUp id socket home⟩⟩
    by_cases accepts : ∃ clients last, label = .accept clients last
    · rcases accepts with ⟨clients, last, rfl⟩
      have sound := sound_of_own settled.standing moves
        (Or.inr (Or.inr ⟨clients, last, rfl⟩))
      generalize after.dialogue.trace.loop = loop at moves found
      cases EventLoop.step_effect moves with
      | accept _ _ _ _ _ _ opened accepted =>
          rcases acceptAll_fresh sound accepted found with
            old | ⟨new, fresh⟩
          · exact kept.reading id moved old
          · rcases kept.unknown id new with ⟨silent, nothing⟩
            rw [silent, nothing, fresh]
            exact reading_fresh _
    · have unfed := Unfed.step moves
        (fun clients last same => accepts ⟨clients, last, same⟩) (by
          rintro received rfl
          rcases kind with same | ⟨⟨_, _, other⟩, _⟩
          · exact receiving received same
          · cases other)
      rcases unfed id moved found with ⟨client, old, parser⟩
      rw [parser]
      exact kept.reading id client old

/-- Nothing is received on a connection that is not there. -/
theorem Kept.silent {before after : Session}
    (kept : before.Kept router requests) {action : Action Host}
    (stepped : (machine router).step before action = some after) {id : Nat}
    (absent : before.dialogue.trace.loop.heap id = none) :
    after.dialogue.heard id = [] ∧ after.received id = [] := by
  rcases kept.unknown id absent with ⟨silent, nothing⟩
  by_cases receives : ∃ received, action = .loop (.recv received)
  · rcases receives with ⟨received, rfl⟩
    rcases traced stepped with ⟨label, ran, same | ⟨_, _, _, _, other⟩⟩
    · cases same
      rcases Option.map_eq_some_iff.1 ran with ⟨next, moves, _⟩
      rcases recv_parses moves with ⟨own, client, current, -⟩
      rcases receives_of_recv current stepped with ⟨heard, received_⟩
      have known := Trace.found_of_current current
      have other : id ≠ own := by
        rintro rfl
        rw [absent] at known
        cases known
      rw [heard, received_, Function.update_of_ne other,
        Function.update_of_ne other]
      exact ⟨silent, nothing⟩
    · cases other
  · rcases receives_aside (fun received same => receives ⟨received, same⟩)
      stepped with ⟨heard, received⟩
    rw [heard, received]
    exact ⟨silent, nothing⟩

theorem Small.earlier {before after : Trace} {action : EventLoop.Action}
    (small : Small after) (recorded : before.Recorded)
    (stepped : Trace.machine.step before action = some after) :
    Small before :=
  fun entry member => small entry ((grows recorded stepped).1.subset member)

theorem Kept.step {system : Posix.FileSystem}
    (built : Answering.buildRouter system = some router)
    {before after : Session} (kept : before.Kept router requests)
    (small : Small after.dialogue.trace) {action : Action Host}
    (patient : before.Patient router requests action)
    (stepped : (machine router).step before action = some after) :
    after.Kept router requests := by
  rcases traced stepped with ⟨label, ran, kind⟩
  have settled := kept.dialogue.settled
  rcases settled.step ran with ⟨settledAfter, extends_⟩
  have small := small.earlier settled.recorded ran
  rcases grows settled.recorded ran with ⟨pushed, sent⟩
  have talked : (Dialogue.machine router).step before.dialogue action =
      some after.dialogue := by
    rcases Option.map_eq_some_iff.1 stepped with ⟨dialogue, talked, rfl⟩
    exact talked
  have orderly := kept.orderly built small patient stepped
  have hears {id : Nat} {moved : Client}
      (found : after.dialogue.trace.loop.heap id = some moved) :=
    kept.hears built small patient stepped found
  refine
    { dialogue := kept.dialogue.step orderly talked
      memory := ?memory
      reading := fun id moved found => (hears found).1
      unknown := ?unknown
      caughtUp := ?caughtUp }
  case memory =>
    rcases kept.memory with ⟨peak, memory⟩
    rcases Option.map_eq_some_iff.1 ran with ⟨next, moves, same⟩
    rw [← same, Trace.loop_follow]
    have noted : ∃ peak', Memory.machine.step
        { loop := before.dialogue.trace.loop, peak := peak } label =
          some { loop := next, peak := peak' } :=
      ⟨_, Option.map_eq_some_iff.2 ⟨next, moves, rfl⟩⟩
    rcases noted with ⟨peak', noted⟩
    exact ⟨peak', memory.step noted⟩
  case unknown =>
    intro id absent
    refine kept.silent stepped ?_
    have homeless := (home_eq_none_iff settledAfter.homed).2 absent
    cases home : before.dialogue.trace.home id with
    | none => exact (home_eq_none_iff settled.homed).1 home
    | some socket =>
        rw [extends_ id socket home] at homeless
        cases homeless
  case caughtUp =>
    intro id socket held
    refine List.IsPrefix.trans ?_ (sent socket)
    rcases client_of_home settledAfter.homed held with ⟨moved, found⟩
    cases home : before.dialogue.trace.home id with
    | none =>
        have absent := (home_eq_none_iff settled.homed).1 home
        rw [(kept.silent stepped absent).1]
        exact List.nil_prefix
    | some own =>
        have same := extends_ id own home
        rw [held, Option.some.injEq] at same
        subst same
        rcases (hears found).2 socket home with ⟨enough, arrived⟩
        rcases pushed.filter fun entry => entry.pw.conn = some id with
          ⟨added, posted⟩
        change before.dialogue.trace.postedTo id ++ added =
          after.dialogue.trace.postedTo id at posted
        rw [← posted, List.take_append_of_le_length enough]
        exact arrived

/-- A run with patient clients keeps the invariant. -/
theorem kept_of_run {system : Posix.FileSystem}
    (built : Answering.buildRouter system = some router)
    {listenFd wakeupFd : Fd} {actions : List (Action Host)}
    (patient : (machine router).Guarded (Patient router requests)
      (start listenFd wakeupFd) actions)
    (ran : (machine router).run (start listenFd wakeupFd) actions =
      some session)
    (small : Small session.dialogue.trace) :
    session.Kept router requests := by
  -- Responses are small at the end of the run, and so they were before.
  have preserved : ∀ (before : Session) (action : Action Host)
      (after : Session),
      (before.dialogue.trace.Settled ∧
        (Small before.dialogue.trace → before.Kept router requests)) →
      before.Patient router requests action →
      (machine router).step before action = some after →
        after.dialogue.trace.Settled ∧
          (Small after.dialogue.trace → after.Kept router requests) := by
    rintro before action after ⟨settled, kept⟩ patient stepped
    rcases traced stepped with ⟨label, traced, _⟩
    refine ⟨(settled.step traced).1, fun small => ?_⟩
    have earlier := small.earlier settled.recorded traced
    exact (kept earlier).step built small patient stepped
  exact (patient.invariant preserved
    ⟨Trace.start_settled listenFd wakeupFd, fun _ =>
      start_kept listenFd wakeupFd⟩ ran).2 small

/--
The server serves every client that waits for its answers.  Whatever the other
clients send, in whatever order the threads go on and whatever the system calls
return, the messages recognised on a connection are the requests of its client,
each as soon as it has arrived as a whole; what the client reads are the answers
to them, in their order, each made in the world in which its task ran; at most
the last is missing, as long as it is being handled or for ever if its handler
threw; and the client has read all of them when nothing is left to send and
nothing waits for the connection.
-/
theorem clients_served {system : Posix.FileSystem}
    (built : Answering.buildRouter system = some router)
    {listenFd wakeupFd : Fd} {actions : List (Action Host)}
    (patient : (machine router).Guarded (Patient router requests)
      (start listenFd wakeupFd) actions)
    (ran : (machine router).run (start listenFd wakeupFd) actions =
      some session)
    (small : Small session.dialogue.trace) {id socket : Nat}
    (home : session.dialogue.trace.home id = some socket) :
    ∃ (heard : List Request) (responses : List Decoded),
      heard <+: requests id ∧
      session.dialogue.heard id =
        heard.map (fun request => .request request.toRequest) ∧
      (∀ whole, whole <+: requests id →
        stream whole <+: session.received id → whole <+: heard) ∧
      heard.length = (session.dialogue.answered id).length +
        (Dialogue.jobsFor session.dialogue.trace id).length +
          session.dialogue.thrown id ∧
      heard.length ≤ (session.dialogue.answered id).length + 1 ∧
      (session.dialogue.answered id).map Handling.message =
        (heard.take (session.dialogue.answered id).length).map
          (fun request => .request request.toRequest) ∧
      List.Forall₂ (Answers router) (session.dialogue.answered id)
        responses ∧
      session.answersRead id <+: responses ∧
      ∀ client, session.dialogue.trace.loop.heap id = some client →
        client.conn.socket ≠ none → client.conn.Idle →
          (∀ entry ∈ session.dialogue.trace.waiting,
            entry.pw.conn ≠ some id) →
            StreamReader.readAll readResponse
                (wire (session.dialogue.trace.calls socket)) =
              (responses, []) := by
  have kept := kept_of_run built patient ran small
  have few : ∀ entry ∈ session.dialogue.trace.postedTo id,
      entry.pw.bytes.length < 2 ^ 64 :=
    fun entry member => small entry (List.mem_of_mem_filter member)
  rcases kept.dialogue.answered built id few with
    ⟨pending, responses, split, unanswered, one, answers, reads⟩
  rcases client_of_home kept.dialogue.settled.homed home with
    ⟨client, found⟩
  rcases (kept.reading id client found).hears with
    ⟨heard, own, recognised, whole⟩
  have count := congrArg List.length recognised
  rw [split, List.length_append, List.length_map, List.length_map] at count
  have begins := kept.dialogue.arrived home
  rw [Dialogue.bytesOf_eq] at begins
  refine ⟨heard, responses, own, recognised, whole, by omega, by omega, ?_,
    answers, ?_, ?_⟩
  · have size : (session.dialogue.answered id).length =
        ((session.dialogue.answered id).map Handling.message).length :=
      (List.length_map _).symm
    rw [List.map_take, ← recognised, split, size, List.take_left]
  · have most := readResponse_steady.readAll_mono begins
    rw [readResponse_steady.readAll_encoded reads] at most
    rw [answersRead, home]
    exact most
  · intro client found open_ idle nobody
    rw [kept.dialogue.arrived_all home found open_ idle nobody,
      Dialogue.bytesOf_eq]
    exact readResponse_steady.readAll_encoded reads

/-- `GET /`. -/
def indexRequest : Request :=
  { getRequest with
    path := text "/"
    pathFree := by decide
    lineFits := by decide }

/-- The client that got `index.html` then asks for a file that is not there. -/
def askedTwice : List (Action Host) :=
  Dialogue.served ++
    [.loop .reap, .loop (.wait [EventLoop.readable 6]), .loop .handle,
      .loop (.recv (.data 71 (text "ET /a HTTP/1.1\r\n\r\n"))),
      .loop (.recv (.failed .again)), .loop .reap,
      .work 0 (Answering.hosting .regular)
        fun handle => { handle := handle, contents := text "x" },
      .loop (.wait [EventLoop.readable 5]), .loop .handle,
      .loop (.drain [.took 109]), .loop (.drain [])]

theorem clients_served_twice :
    ∃ session,
      (machine (Answering.routes (Answering.hosting .regular))).run
          (start 3 5) askedTwice = some session ∧
        (session.answersRead 0).length = 2 ∧
        (session.dialogue.answered 0).map Handling.message =
          [indexRequest, getRequest].map
            (fun request => .request request.toRequest) ∧
        ∃ responses,
          List.Forall₂
            (Answers (Answering.routes (Answering.hosting .regular)))
            (session.dialogue.answered 0) responses ∧
          session.answersRead 0 <+: responses := by
  have finishes : ∃ session,
      (machine (Answering.routes (Answering.hosting .regular))).run
          (start 3 5) askedTwice = some session ∧
        (session.dialogue.trace.home 0,
          session.dialogue.trace.pushed.map fun entry =>
            entry.pw.bytes.length,
          (session.answersRead 0).length) = (some 2, [103, 109], 2) :=
    Option.map_eq_some_iff.1 (by decide +kernel)
  rcases finishes with ⟨session, ran, facts⟩
  rcases Prod.mk.inj facts with ⟨home, facts⟩
  rcases Prod.mk.inj facts with ⟨sizes, read⟩
  have small : Small session.dialogue.trace := by
    intro entry member
    have size : entry.pw.bytes.length ∈
        session.dialogue.trace.pushed.map fun entry =>
          entry.pw.bytes.length :=
      List.mem_map_of_mem member
    rw [sizes] at size
    simp only [List.mem_cons, List.not_mem_nil, or_false] at size
    omega
  let requests : Nat → List Request := fun _ => [indexRequest, getRequest]
  have patient :
      (machine (Answering.routes (Answering.hosting .regular))).Guarded
        (Patient (Answering.routes (Answering.hosting .regular)) requests)
        (start 3 5) askedTwice := by
    decide +kernel
  rcases clients_served Dialogue.built_routes patient ran small home with
    ⟨heard, responses, own, _, _, _, _, messages, answers, begins, _⟩
  have long := begins.length_le
  have same := answers.length_eq
  have sizes := congrArg List.length messages
  rw [List.length_map, List.length_map, List.length_take] at sizes
  have all : heard = [indexRequest, getRequest] :=
    own.eq_of_length (Nat.le_antisymm own.length_le (by
      show 2 ≤ _
      omega))
  have two := congrArg List.length all
  change heard.length = 2 at two
  rw [List.take_of_length_le (by omega), all] at messages
  exact ⟨session, ran, read, messages, responses, answers, begins⟩

end Session

end Cppws.App
