import Cppws.App.Conversation
import Cppws.App.Delivery

/-!
# The whole server and one of its clients

The event loop and the workers of the server with the router that `main.cpp`
builds, and what the read callback has recognised on each connection.  When no
message is recognised before the one ahead of it has been answered, no response
is taken out of the queue before the file ahead of it has been sent, and every
file is as long as its size says, then a client reads from its own kernel
socket the answers to its own messages, one after the other, each made in the
world in which the task of its message ran.
-/

namespace Cppws.App

open Cppws.Core
open Cppws.Http
open Cppws.Net

/-! ## What is recognised -/

/-- What the read callback recognises in what `recv` returns. -/
def Client.message (client : Client) (received : Received) : Option Message :=
  let read := client.conn.readOnce received
  if read.2.2 = .callback then
    let fed := client.parser.feed read.1.readBuf.readable
    match fed.2 with
    | .error => some (.malformed fed.1.error)
    | .complete => some (.request fed.1.takeResult.1)
    | .incomplete => none
  else
    none

/-- What the event loop is asked to do for a message. -/
inductive AsksFor : Option Message → Option Dispatch → Prop where
  | unread : AsksFor none none
  | incomplete : AsksFor none (some .nothing)
  | refusal (error : Bytes) :
      AsksFor (some (.malformed error))
        (some
          (.postResponse (HttpResponse.makeError .BadRequest error).serialize))
  | task (request : HttpRequest) :
      AsksFor (some (.request request))
        (some (.submit request request.wantsKeepAlive))

theorem Client.asksFor (client : Client) (received : Received) :
    AsksFor (client.message received) (client.dispatch received) := by
  unfold Client.message Client.dispatch readCallback
  dsimp only
  split_ifs
  · generalize client.parser.feed _ = fed
    cases result : fed.2 with
    | error => exact .refusal _
    | complete => exact .task _
    | incomplete => exact .incomplete
  · exact .unread

theorem recv_asked {loop next : EventLoop} {received : Received}
    (stepped : EventLoop.machine.step loop (.recv received) = some next) :
    ∃ id client, loop.currentClient = some (id, client) ∧
      loop.Asked id (client.dispatch received) next := by
  have ran : loop.step (.recv received) = some next := stepped
  simp only [EventLoop.step] at ran
  split at ran
  case h_1 event rest phase =>
    rcases EventLoop.readSome_asked ran with ⟨id, client, found, asked⟩
    refine ⟨id, client, ?_, asked⟩
    simp only [EventLoop.currentClient, phase]
    exact found
  case h_2 => cases ran

/-! ## The server -/

structure Dialogue where
  trace : Trace
  /-- What was recognised on each connection. -/
  heard : Nat → List Message := fun _ => []
  /-- How it has been answered. -/
  answered : Nat → List Handling := fun _ => []
  /-- How many handlers have thrown for each connection. -/
  thrown : Nat → Nat := fun _ => 0

/-- What the read callback answers by itself. -/
def refused : Option Message → List Handling
  | some (.malformed error) => [.refusal error]
  | some (.request _) => []
  | none => []

namespace Dialogue

open Answering (Action)

def start (listenFd wakeupFd : Fd) : Dialogue where
  trace := .start listenFd wakeupFd

/-- The messages after a step. -/
def hears (dialogue : Dialogue) : Action Host → Nat → List Message
  | .loop (.recv received) =>
      match dialogue.trace.loop.currentClient with
      | some (id, client) =>
          Function.update dialogue.heard id
            (dialogue.heard id ++ (client.message received).toList)
      | none => dialogue.heard
  | _ => dialogue.heard

/-- The answers after a step: those of tasks name the world they ran in. -/
def answers (router : Router Host) (dialogue : Dialogue) :
    Action Host → Nat → List Handling
  | .loop (.recv received) =>
      match dialogue.trace.loop.currentClient with
      | some (id, client) =>
          Function.update dialogue.answered id
            (dialogue.answered id ++ refused (client.message received))
      | none => dialogue.answered
  | .work index host files =>
      match dialogue.trace.jobs[index]? with
      | some job =>
          if (Answering.response router host files job).isSome then
            Function.update dialogue.answered job.conn
              (dialogue.answered job.conn ++ [.task job.request host files])
          else
            dialogue.answered
      | none => dialogue.answered
  | .loop _ => dialogue.answered

/-- The handlers that have thrown after a step. -/
def throws (router : Router Host) (dialogue : Dialogue) :
    Action Host → Nat → Nat
  | .work index host files =>
      match dialogue.trace.jobs[index]? with
      | some job =>
          if (Answering.response router host files job).isSome then
            dialogue.thrown
          else
            Function.update dialogue.thrown job.conn
              (dialogue.thrown job.conn + 1)
      | none => dialogue.thrown
  | .loop _ => dialogue.thrown

def step (router : Router Host) (dialogue : Dialogue) (action : Action Host) :
    Option Dialogue :=
  (Answering.step router dialogue.trace action).map fun trace =>
    { trace := trace
      heard := dialogue.hears action
      answered := dialogue.answers router action
      thrown := dialogue.throws router action }

def machine (router : Router Host) : Machine Dialogue (Action Host) where
  step := step router

/-- A message is recognised when all before it have been answered. -/
def InTurn (dialogue : Dialogue) : EventLoop.Action → Prop
  | .recv received => ∀ found ∈ dialogue.trace.loop.currentClient,
      (found.2.message received).isSome →
        (dialogue.trace.postedTo found.1).length =
          (dialogue.heard found.1).length
  | _ => True

/--
Messages come in turn, a response is taken out when the file before it has been
sent, and a file is as long as its size says.
-/
def Orderly (router : Router Host) (dialogue : Dialogue) :
    Action Host → Prop
  | .loop action => dialogue.InTurn action ∧ dialogue.trace.FileSent action
  | .work index host files => ∀ job ∈ dialogue.trace.jobs[index]?,
      ∀ response ∈ handled router host job.request,
        (posting response job.keepAlive).Carries
          ((posting response job.keepAlive).contents files)

instance (posted : Posting) (contents : Bytes) :
    Decidable (posted.Carries contents) := by
  unfold Posting.Carries
  cases posted.fileFd <;> infer_instance

instance (dialogue : Dialogue) : ∀ action, Decidable (dialogue.InTurn action)
  | .recv received =>
      inferInstanceAs (Decidable
        (∀ found ∈ dialogue.trace.loop.currentClient,
        (found.2.message received).isSome →
          (dialogue.trace.postedTo found.1).length =
            (dialogue.heard found.1).length))
  | .wait _ | .accept _ _ | .handle | .write _ | .drain _ | .reap | .work _ _
  | .stop => inferInstanceAs (Decidable True)

instance (router : Router Host) (dialogue : Dialogue) :
    ∀ action, Decidable (Orderly router dialogue action)
  | .loop _ => inferInstanceAs (Decidable (_ ∧ _))
  | .work index host files =>
      inferInstanceAs (Decidable (∀ job ∈ dialogue.trace.jobs[index]?,
        ∀ response ∈ handled router host job.request,
          (posting response job.keepAlive).Carries
            ((posting response job.keepAlive).contents files)))

/-! ## Turns -/

/-- The responses are the answers, one by one. -/
def Exchanged (router : Router Host) (answered : List Handling)
    (entries : List Pushed) : Prop :=
  List.Forall₂
    (fun handling entry => ∃ reply,
      Exchange router handling reply entry.pw.bytes) answered entries

/-- At most the last message of a connection has not been answered. -/
inductive Turn (router : Router Host) (heard : List Message)
    (answered : List Handling) (posted : List Pushed) (jobs : List Job)
    (thrown : Nat) : Prop where
  /-- Nobody works on an answer; the last handler may have thrown. -/
  | quiet (lost : List Message)
      (split : heard = answered.map Handling.message ++ lost)
      (few : lost.length ≤ 1) (counted : thrown = lost.length)
      (exchanged : Exchanged router answered posted) (idle : jobs = [])
  | busy (job : Job)
      (split : heard =
        answered.map Handling.message ++ [.request job.request])
      (counted : thrown = 0) (exchanged : Exchanged router answered posted)
      (keepAlive : job.keepAlive = job.request.wantsKeepAlive)
      (working : jobs = [job])

namespace Turn

variable {router : Router Host} {heard : List Message}
  {answered : List Handling} {posted : List Pushed} {jobs : List Job}
  {thrown : Nat}

theorem split (turn : Turn router heard answered posted jobs thrown) :
    ∃ pending, heard = answered.map Handling.message ++ pending ∧
      pending.length = jobs.length + thrown ∧ pending.length ≤ 1 ∧
        Exchanged router answered posted := by
  cases turn with
  | quiet lost split few counted exchanged idle =>
      refine ⟨lost, split, ?_, few, exchanged⟩
      rw [idle, counted]
      exact (Nat.zero_add _).symm
  | busy job split counted exchanged _ working =>
      refine ⟨_, split, ?_, Nat.le_refl 1, exchanged⟩
      rw [working, counted]
      rfl

/-- When there are as many responses as messages, all are answered. -/
theorem all_answered (turn : Turn router heard answered posted jobs thrown)
    (all : posted.length = heard.length) :
    heard = answered.map Handling.message ∧
      Exchanged router answered posted ∧ jobs = [] ∧ thrown = 0 := by
  cases turn with
  | quiet lost split few counted exchanged idle =>
      have same := exchanged.length_eq
      rw [split, List.length_append, List.length_map] at all
      have none : lost = [] := by
        rw [← List.length_eq_zero_iff]
        omega
      rw [split, none, List.append_nil]
      exact ⟨rfl, exchanged, idle,
        counted.trans (congrArg List.length none)⟩
  | busy job split counted exchanged =>
      have same := exchanged.length_eq
      rw [split, List.length_append, List.length_map,
        List.length_singleton] at all
      omega

/-- A request is submitted. -/
theorem submits (turn : Turn router heard answered posted jobs thrown)
    (all : posted.length = heard.length) {request : HttpRequest} {job : Job}
    (same : job.request = request)
    (keepAlive : job.keepAlive = request.wantsKeepAlive) :
    Turn router (heard ++ [.request request]) answered posted (jobs ++ [job])
      thrown := by
  rcases turn.all_answered all with ⟨rfl, exchanged, rfl, rfl⟩
  subst same
  exact .busy job rfl rfl exchanged keepAlive rfl

/-- A parse error is answered. -/
theorem refuses (turn : Turn router heard answered posted jobs thrown)
    (all : posted.length = heard.length) {error : Bytes} {entry : Pushed}
    (bytes : entry.pw.bytes =
      (HttpResponse.makeError .BadRequest error).serialize) :
    Turn router (heard ++ [.malformed error]) (answered ++ [.refusal error])
      (posted ++ [entry]) jobs thrown := by
  rcases turn.all_answered all with ⟨rfl, exchanged, rfl, rfl⟩
  have answer : ∃ reply,
      Exchange router (.refusal error) reply entry.pw.bytes := by
    rw [bytes]
    exact ⟨_, .refusal error⟩
  refine .quiet [] ?_ (Nat.zero_le 1) rfl
    (List.rel_append exchanged (.cons answer .nil)) rfl
  rw [List.append_nil, List.map_append]
  rfl

/-- The handler of the last request has thrown. -/
theorem throws {job : Job}
    (turn : Turn router heard answered posted [job] thrown) :
    Turn router heard answered posted [] (thrown + 1) := by
  cases turn with
  | quiet _ _ _ _ _ idle => cases idle
  | busy job split counted exchanged =>
      exact .quiet _ split (Nat.le_refl 1) (congrArg Nat.succ counted)
        exchanged rfl

/-- The last request has been answered. -/
theorem posts {job : Job}
    (turn : Turn router heard answered posted [job] thrown) {host : Host}
    {files : Nat → OpenFile} {entry : Pushed}
    (exchange : job.keepAlive = job.request.wantsKeepAlive → ∃ reply,
      Exchange router (.task job.request host files) reply entry.pw.bytes) :
    Turn router heard (answered ++ [.task job.request host files])
      (posted ++ [entry]) [] thrown := by
  cases turn with
  | quiet _ _ _ _ _ idle => cases idle
  | busy other split counted exchanged keepAlive working =>
      cases working
      refine .quiet [] ?_ (Nat.zero_le 1) counted
        (List.rel_append exchanged (.cons (exchange keepAlive) .nil)) rfl
      rw [split, List.append_nil, List.map_append]
      rfl

end Turn

/-! ## Every connection in every state -/

/-- The tasks for the requests of a connection. -/
def jobsFor (trace : Trace) (id : Nat) : List Job :=
  trace.jobs.filter fun job => job.conn = id

/-- Every connection has its turn. -/
def Talks (router : Router Host) (dialogue : Dialogue) : Prop :=
  ∀ id, Turn router (dialogue.heard id) (dialogue.answered id)
    (dialogue.trace.postedTo id) (jobsFor dialogue.trace id)
    (dialogue.thrown id)

variable {router : Router Host}

theorem start_talks (listenFd wakeupFd : Fd) :
    (start listenFd wakeupFd).Talks router :=
  fun _ => .quiet [] rfl (Nat.zero_le 1) rfl .nil rfl

/-- Neither messages nor tasks nor responses have been added. -/
theorem Talks.aside {before after : Dialogue} (talks : before.Talks router)
    (heard : after.heard = before.heard)
    (answered : after.answered = before.answered)
    (thrown : after.thrown = before.thrown)
    (jobs : after.trace.jobs = before.trace.jobs)
    (pushed : after.trace.pushed = before.trace.pushed) :
    after.Talks router := by
  intro id
  rw [heard, answered, thrown, Trace.postedTo, pushed, jobsFor, jobs]
  exact talks id

/-- What the callback has recognised is submitted or refused. -/
theorem Talks.received {before : Dialogue} {next : EventLoop} {id : Nat}
    {client : Client} {received : Received} {dispatch : Dispatch}
    (talks : before.Talks router) (recorded : before.trace.Recorded)
    (asks : client.dispatch received = some dispatch)
    (asked : before.trace.loop.Asked id (some dispatch) next)
    (orderly : (client.message received).isSome →
      (before.trace.postedTo id).length = (before.heard id).length) :
    Talks router
      { trace := before.trace.received next id client dispatch
        heard := Function.update before.heard id
          (before.heard id ++ (client.message received).toList)
        answered := Function.update before.answered id
          (before.answered id ++ refused (client.message received))
        thrown := before.thrown } := by
  have kind := client.asksFor received
  rw [asks] at kind
  intro other
  cases message : client.message received with
  | none =>
      rw [message] at kind
      cases kind
      rw [Option.toList_none, refused, List.append_nil, List.append_nil,
        Function.update_eq_self, Function.update_eq_self]
      exact talks other
  | some heard =>
      rw [message] at kind orderly
      have all := orderly rfl
      cases kind with
      | task request =>
          rw [refused, List.append_nil, Function.update_eq_self]
          show Turn router (Function.update before.heard id _ other)
            (before.answered other) (before.trace.postedTo other)
            (List.filter _ (before.trace.jobs ++ [_])) (before.thrown other)
          rw [List.filter_append]
          by_cases here : other = id
          · subst here
            rw [Function.update_self]
            simp only [List.filter_singleton, decide_true, cond_true]
            refine (talks other).submits all ?_ ?_
            · rfl
            · rfl
          · rw [Function.update_of_ne here]
            simp only [List.filter_singleton, decide_eq_false (Ne.symm here),
              cond_false, List.append_nil]
            exact talks other
      | refusal error =>
          rcases Trace.pushed_refused client recorded asked with
            ⟨entry, same, pushed⟩
          have bytes : entry.pw.bytes =
              (HttpResponse.makeError .BadRequest error).serialize := by
            rw [same]
            exact List.append_nil _
          dsimp only
          rw [Trace.postedTo, pushed, List.filter_append]
          by_cases here : other = id
          · subst here
            rw [Function.update_self, Function.update_self,
              List.filter_singleton, same]
            simp only [decide_true, cond_true]
            exact (talks other).refuses all bytes
          · rw [Function.update_of_ne here, Function.update_of_ne here,
              List.filter_singleton, same]
            simp only [Option.some.injEq, decide_eq_false (Ne.symm here),
              cond_false, List.append_nil]
            exact talks other

/-- A task ends, and all others of its connection have ended. -/
theorem jobsFor_erase {before after : Trace} {index : Nat} {job : Job}
    (task : before.jobs[index]? = some job)
    (jobs : after.jobs = before.jobs.eraseIdx index) (id : Nat) :
    (jobsFor before id).Perm
      ((if job.conn = id then [job] else []) ++ jobsFor after id) := by
  obtain ⟨bound, rfl⟩ := List.getElem?_eq_some_iff.1 task
  have moved := (List.getElem_cons_eraseIdx_perm bound).symm.filter
    fun job => job.conn = id
  rw [jobsFor, jobsFor, jobs]
  refine moved.trans ?_
  rw [List.filter_cons]
  by_cases mine : before.jobs[index].conn = id
  · rw [if_pos (decide_eq_true mine), if_pos mine]
    exact .refl _
  · rw [if_neg (by simpa using mine), if_neg mine]
    exact .refl _

/-- The connection of a task has only this one. -/
theorem Turn.only {heard : List Message} {answered : List Handling}
    {posted : List Pushed} {jobs rest : List Job} {job : Job} {thrown : Nat}
    (turn : Turn router heard answered posted jobs thrown)
    (among : jobs.Perm (job :: rest)) : jobs = [job] ∧ rest = [] := by
  have length : jobs.length ≤ 1 := by
    cases turn with
    | quiet _ _ _ _ _ idle => rw [idle]; exact Nat.zero_le 1
    | busy _ _ _ _ _ working => rw [working]; exact Nat.le_refl 1
  have none : rest = [] := by
    rw [among.length_eq, List.length_cons] at length
    exact List.length_eq_zero_iff.1 (by omega)
  rw [none] at among
  exact ⟨List.perm_singleton.1 among, none⟩

/-- The tasks of a connection are at most one, whatever their order. -/
theorem Turn.perm {heard : List Message} {answered : List Handling}
    {posted : List Pushed} {jobs others : List Job} {thrown : Nat}
    (turn : Turn router heard answered posted jobs thrown)
    (perm : jobs.Perm others) :
    Turn router heard answered posted others thrown := by
  cases turn with
  | quiet lost split few counted exchanged idle =>
      rw [idle] at perm
      exact .quiet lost split few counted exchanged (List.nil_perm.1 perm)
  | busy job split counted exchanged keepAlive working =>
      rw [working] at perm
      exact .busy job split counted exchanged keepAlive
        (List.singleton_perm.1 perm).symm

/-- What a task posts goes out for its request. -/
theorem exchange_of_response {host : Host} {files : Nat → OpenFile}
    {job : Job} {pw : PendingWrite} {response : HttpResponse}
    (answered : handled router host job.request = some response)
    (posted : Answering.response router host files job = some pw)
    (carries : (posting response job.keepAlive).Carries
      ((posting response job.keepAlive).contents files))
    (keepAlive : job.keepAlive = job.request.wantsKeepAlive) :
    ∃ reply,
      Exchange router (.task job.request host files) reply pw.bytes := by
  rw [Answering.response, answered, Option.map_some, Option.some.injEq]
    at posted
  have bytes : pw.bytes = (posting response job.keepAlive).data ++
      (posting response job.keepAlive).contents files := by
    rw [← posted]
    generalize posting response job.keepAlive = sent
    cases sent with
    | mk data fileFd fileSize => cases fileFd <;> rfl
  rw [bytes, keepAlive]
  rw [keepAlive] at carries
  exact ⟨_, .task job.request host files response _ answered
    (posts_posting response _) carries⟩

/-- A task ends, with an answer or with an exception. -/
theorem Talks.ends {before after : Dialogue} (talks : before.Talks router)
    {index : Nat} {job : Job} {host : Host} {files : Nat → OpenFile}
    (answer : Option Pushed) (heard : after.heard = before.heard)
    (answered : after.answered =
      if answer.isSome then
        Function.update before.answered job.conn
          (before.answered job.conn ++ [.task job.request host files])
      else before.answered)
    (task : before.trace.jobs[index]? = some job)
    (jobs : after.trace.jobs = before.trace.jobs.eraseIdx index)
    (pushed : after.trace.pushed = before.trace.pushed ++ answer.toList)
    (thrown : after.thrown =
      if answer.isSome then before.thrown
      else
        Function.update before.thrown job.conn (before.thrown job.conn + 1))
    (answers : ∀ entry ∈ answer, entry.pw.conn = some job.conn ∧
      (job.keepAlive = job.request.wantsKeepAlive → ∃ reply,
        Exchange router (.task job.request host files) reply
          entry.pw.bytes)) :
    after.Talks router := by
  intro id
  have erased := jobsFor_erase task jobs id
  rw [heard, answered, thrown, Trace.postedTo, pushed, List.filter_append]
  by_cases mine : job.conn = id
  · rw [if_pos mine, List.singleton_append] at erased
    rcases (talks id).only erased with ⟨alone, none⟩
    have turn := talks id
    rw [alone] at turn
    rw [none]
    cases answer with
    | none =>
        simp only [Option.toList_none, List.filter_nil, List.append_nil,
          Option.isSome_none, Bool.false_eq_true, if_false, mine,
          Function.update_self]
        exact turn.throws
    | some entry =>
        rcases answers entry rfl with ⟨named, exchange⟩
        simp only [Option.toList_some, List.filter_singleton, named, mine,
          decide_true, cond_true, Option.isSome_some, if_true,
          Function.update_self]
        exact turn.posts exchange
  · rw [if_neg mine] at erased
    have turn := (talks id).perm erased
    cases answer with
    | none =>
        simp only [Option.toList_none, List.filter_nil, List.append_nil,
          Option.isSome_none, Bool.false_eq_true, if_false,
          Function.update_of_ne (Ne.symm mine)]
        exact turn
    | some entry =>
        simp only [Option.toList_some, List.filter_singleton,
          (answers entry rfl).1, Option.some.injEq, decide_eq_false mine,
          cond_false, List.append_nil, Option.isSome_some, if_true,
          Function.update_of_ne (Ne.symm mine)]
        exact turn

/-- No step but those of `recv` and of the workers adds anything. -/
theorem Follows.adds_nothing {before after : Trace} {next : EventLoop}
    {action : EventLoop.Action} (follows : before.Follows next action after)
    (receiving : ∀ received, action ≠ .recv received)
    (working : ∀ index response, action ≠ .work index response) :
    after.jobs = before.jobs ∧ after.pushed = before.pushed := by
  cases follows with
  | aside | accepts => exact ⟨rfl, rfl⟩
  | receives received => exact absurd rfl (receiving received)
  | writes =>
      rw [Trace.pushed, Trace.jobs_note, Trace.taken_note, Trace.waiting_note]
      exact ⟨rfl, rfl⟩
  | hands answers entry rest waiting =>
      exact ⟨Trace.jobs_note _ _ _,
        Trace.pushed_taken waiting (Trace.waiting_note _ _ _) rfl rfl⟩
  | discards answers entry rest waiting =>
      exact ⟨rfl, Trace.pushed_taken waiting rfl rfl rfl⟩
  | throws index => exact absurd rfl (working index none)
  | posts index _ _ _ response => exact absurd rfl (working index _)

theorem step_loop (trace : Trace) {action : EventLoop.Action}
    (working : ∀ index response, action ≠ .work index response) :
    Answering.step router trace (.loop action) =
      Trace.machine.step trace action := by
  cases action with
  | work index response => exact absurd rfl (working index response)
  | wait | accept | handle | recv | write | drain | reap | stop => rfl

/-- Nothing is heard or answered where nothing is received. -/
theorem hears_aside (dialogue : Dialogue) {action : EventLoop.Action}
    (receiving : ∀ received, action ≠ .recv received) :
    dialogue.hears (.loop action) = dialogue.heard ∧
      dialogue.answers router (.loop action) = dialogue.answered := by
  cases action with
  | recv received => exact absurd rfl (receiving received)
  | wait | accept | handle | write | drain | reap | stop | work =>
      exact ⟨rfl, rfl⟩

/-- The read callback is called, or not. -/
theorem Talks.receives {before : Dialogue} {trace : Trace}
    {received : Received} (talks : before.Talks router)
    (recorded : before.trace.Recorded)
    (orderly : before.Orderly router (.loop (.recv received)))
    (ran : Trace.machine.step before.trace (.recv received) = some trace) :
    Talks router
      { trace := trace
        heard := before.hears (.loop (.recv received))
        answered := before.answers router (.loop (.recv received))
        thrown := before.thrown } := by
  rcases Option.map_eq_some_iff.1 ran with ⟨next, moved, rfl⟩
  rcases recv_asked moved with ⟨id, client, current, asked⟩
  have kind := client.asksFor received
  simp only [hears, Dialogue.answers, Trace.follow, current]
  cases asks : client.dispatch received with
  | none =>
      rw [asks] at kind
      cases message : client.message received with
      | none =>
          rw [Option.toList_none, refused, List.append_nil, List.append_nil,
            Function.update_eq_self, Function.update_eq_self]
          exact talks.aside rfl rfl rfl rfl rfl
      | some heard =>
          rw [message] at kind
          cases kind
  | some dispatch =>
      rw [asks] at asked
      exact talks.received recorded asks asked (orderly.1 (id, client) current)

/-- A worker comes to the end of a task. -/
theorem Talks.works {before : Dialogue} {trace : Trace} {index : Nat}
    {host : Host} {files : Nat → OpenFile} (talks : before.Talks router)
    (recorded : before.trace.Recorded)
    (orderly : before.Orderly router (.work index host files))
    (ran : Answering.step router before.trace (.work index host files) =
      some trace) :
    Talks router
      { trace := trace
        heard := before.heard
        answered := before.answers router (.work index host files)
        thrown := before.throws router (.work index host files) } := by
  rcases Option.bind_eq_some_iff.1 ran with ⟨job, task, ran⟩
  rcases recorded.follows ran with ⟨next, _, follows⟩
  have thrown : before.throws router (.work index host files) =
      if (Answering.response router host files job).isSome then
        before.thrown
      else
        Function.update before.thrown job.conn
          (before.thrown job.conn + 1) := by
    simp only [throws, task]
  have answered : before.answers router (.work index host files) =
      if (Answering.response router host files job).isSome then
        Function.update before.answered job.conn
          (before.answered job.conn ++ [.task job.request host files])
      else
        before.answered := by
    simp only [Dialogue.answers, task]
  cases posted : Answering.response router host files job with
  | none =>
      rw [posted] at follows thrown answered
      cases follows with
      | aside _ _ _ _ working => exact absurd rfl (working index none)
      | throws _ other same =>
          rw [task, Option.some.injEq] at same
          subst same
          refine talks.ends none rfl answered task rfl
            (List.append_nil _).symm thrown ?_
          intro entry never
          cases never
  | some pw =>
      rw [posted] at follows thrown answered
      cases follows with
      | aside _ _ _ _ working => exact absurd rfl (working index _)
      | posts _ other same =>
          rw [task, Option.some.injEq] at same
          subst same
          refine talks.ends (some _) rfl answered task rfl
            (List.append_assoc _ _ _).symm thrown ?_
          rintro _ ⟨⟩
          refine ⟨rfl, fun keepAlive => ?_⟩
          rcases Option.map_eq_some_iff.1 posted with ⟨response, replied, _⟩
          show ∃ reply, Exchange router _ reply pw.bytes
          exact exchange_of_response replied posted
            (orderly job task response replied) keepAlive

theorem Talks.step {before after : Dialogue}
    {action : Answering.Action Host} (talks : before.Talks router)
    (recorded : before.trace.Recorded)
    (orderly : before.Orderly router action)
    (stepped : (machine router).step before action = some after) :
    after.Talks router := by
  rcases Option.map_eq_some_iff.1 stepped with ⟨trace, ran, rfl⟩
  cases action with
  | work index host files => exact talks.works recorded orderly ran
  | loop action =>
      have working : ∀ index response, action ≠ .work index response := by
        rintro index response rfl
        cases ran
      rw [step_loop before.trace working] at ran
      by_cases receives : ∃ received, action = .recv received
      · rcases receives with ⟨received, rfl⟩
        exact talks.receives recorded orderly ran
      · have receiving : ∀ received, action ≠ .recv received :=
          fun received same => receives ⟨received, same⟩
        have nothing : before.hears (.loop action) = before.heard ∧
            before.answers router (.loop action) = before.answered :=
          before.hears_aside receiving
        rcases recorded.follows ran with ⟨next, _, follows⟩
        rcases Follows.adds_nothing follows receiving working with
          ⟨jobs, pushed⟩
        exact talks.aside nothing.1 nothing.2 rfl jobs pushed

/-! ## What the client reads -/

/-- What holds in every state of an orderly run. -/
structure Kept (router : Router Host) (dialogue : Dialogue) : Prop where
  settled : dialogue.trace.Settled
  sourced : dialogue.trace.Sourced
  carried : dialogue.trace.Carried
  flowing : dialogue.trace.Flowing
  talks : dialogue.Talks router

theorem start_kept (listenFd wakeupFd : Fd) :
    (start listenFd wakeupFd).Kept router :=
  ⟨Trace.start_settled .., Trace.start_sourced .., Trace.start_carried ..,
    Trace.start_flowing .., start_talks listenFd wakeupFd⟩

theorem Kept.step {before after : Dialogue} {action : Answering.Action Host}
    (kept : before.Kept router) (orderly : before.Orderly router action)
    (stepped : (machine router).step before action = some after) :
    after.Kept router := by
  have talks := kept.talks.step kept.settled.recorded orderly stepped
  -- It is a step of the event loop.
  have traced : ∃ action, before.trace.FileSent action ∧
      Trace.machine.step before.trace action = some after.trace := by
    rcases Option.map_eq_some_iff.1 stepped with ⟨trace, ran, rfl⟩
    cases action with
    | work index host files =>
        rcases Option.bind_eq_some_iff.1 ran with ⟨job, _, ran⟩
        refine ⟨.work index _, ?_, ran⟩
        trivial
    | loop action =>
        have working : ∀ index response, action ≠ .work index response := by
          rintro index response rfl
          cases ran
        rw [step_loop before.trace working] at ran
        exact ⟨action, orderly.2, ran⟩
  rcases traced with ⟨action, sent, traced⟩
  exact
    { settled := (kept.settled.step traced).1
      sourced := kept.sourced.step kept.settled traced
      carried := kept.carried.step kept.settled traced
      flowing := kept.flowing.step kept.settled kept.sourced kept.carried sent
        traced
      talks := talks }

/-- All but the last message have answers, and these can be read. -/
theorem Kept.answered {system : Posix.FileSystem}
    (built : Answering.buildRouter system = some router) {dialogue : Dialogue}
    (kept : dialogue.Kept router) (id : Nat)
    (small : ∀ entry ∈ dialogue.trace.postedTo id,
      entry.pw.bytes.length < 2 ^ 64) :
    ∃ pending responses,
      dialogue.heard id =
        (dialogue.answered id).map Handling.message ++ pending ∧
      pending.length =
        (jobsFor dialogue.trace id).length + dialogue.thrown id ∧
      pending.length ≤ 1 ∧
      List.Forall₂ (Answers router) (dialogue.answered id) responses ∧
      List.Forall₂ (StreamReader.Reads readResponse) responses
        ((dialogue.trace.postedTo id).map fun entry => entry.pw.bytes) := by
  rcases (kept.talks id).split with
    ⟨pending, split, unanswered, few, exchanged⟩
  have wires : List.Forall₂
      (fun handling wire => ∃ reply, Exchange router handling reply wire)
      (dialogue.answered id)
      ((dialogue.trace.postedTo id).map fun entry => entry.pw.bytes) :=
    List.forall₂_map_right_iff.2 exchanged
  have sized : ∀ wire ∈
      (dialogue.trace.postedTo id).map fun entry => entry.pw.bytes,
      wire.length < 2 ^ 64 := by
    intro wire member
    rcases List.mem_map.1 member with ⟨entry, among, rfl⟩
    exact small entry among
  rcases exchanges_read built wires sized with ⟨responses, answers, reads⟩
  exact ⟨pending, responses, split, unanswered, few, answers, reads⟩

theorem bytesOf_eq (entries : List Pushed) :
    Trace.bytesOf entries = (entries.map fun entry => entry.pw.bytes).flatten :=
  List.flatMap_def

/-- What has arrived is the beginning of what was posted. -/
theorem Kept.arrived {dialogue : Dialogue} (kept : dialogue.Kept router)
    {id socket : Nat} (home : dialogue.trace.home id = some socket) :
    wire (dialogue.trace.calls socket) <+:
      Trace.bytesOf (dialogue.trace.postedTo id) := by
  rcases kept.flowing.begins id socket home with ⟨handed, sent⟩
  rcases handed.trans (dialogue.trace.takenTo_prefix id) with ⟨later, all⟩
  refine sent.trans ?_
  rw [← all, Trace.bytesOf, Trace.bytesOf, List.flatMap_append]
  exact List.prefix_append _ _

/-- Everything has arrived when nothing is left to send. -/
theorem Kept.arrived_all {dialogue : Dialogue} (kept : dialogue.Kept router)
    {id socket : Nat} (home : dialogue.trace.home id = some socket)
    {client : Client} (found : dialogue.trace.loop.heap id = some client)
    (open_ : client.conn.socket ≠ none) (idle : client.conn.Idle)
    (nobody : ∀ entry ∈ dialogue.trace.waiting, entry.pw.conn ≠ some id) :
    wire (dialogue.trace.calls socket) =
      Trace.bytesOf (dialogue.trace.postedTo id) := by
  rcases kept.flowing.holds id client socket found home open_ with
    ⟨handed, whole⟩
  have taken : dialogue.trace.takenTo id = dialogue.trace.postedTo id := by
    have none : dialogue.trace.waiting.filter
        (fun entry => entry.pw.conn = some id) = [] := by
      rw [List.filter_eq_nil_iff]
      intro entry member
      simpa using nobody entry member
    rw [Trace.postedTo, Trace.pushed, List.filter_append, none,
      List.append_nil]
    rfl
  rwa [idle.unsent, List.append_nil, handed, taken] at whole

/--
In every orderly run a client reads from its kernel socket the answers to its
own messages, in their order, each made in the world in which its task ran: at
any time those that it has received as a whole, each as it was meant and nothing
else, and all of them once its connection has nothing to send and nothing is
waiting for it.  At most its last message is without an answer, because it is
being handled or its handler threw.
-/
theorem client_reads {system : Posix.FileSystem}
    (built : Answering.buildRouter system = some router)
    {listenFd wakeupFd : Fd} {actions : List (Answering.Action Host)}
    {dialogue : Dialogue}
    (orderly : (machine router).Guarded (Orderly router)
      (start listenFd wakeupFd) actions)
    (ran : (machine router).run (start listenFd wakeupFd) actions =
      some dialogue) {id socket : Nat}
    (home : dialogue.trace.home id = some socket)
    (small : ∀ entry ∈ dialogue.trace.postedTo id,
      entry.pw.bytes.length < 2 ^ 64) :
    ∃ pending responses,
      dialogue.heard id =
        (dialogue.answered id).map Handling.message ++ pending ∧
      pending.length =
        (jobsFor dialogue.trace id).length + dialogue.thrown id ∧
      pending.length ≤ 1 ∧
      List.Forall₂ (Answers router) (dialogue.answered id) responses ∧
      (∀ received, received <+: wire (dialogue.trace.calls socket) →
        ∀ count, Trace.bytesOf ((dialogue.trace.postedTo id).take count) <+:
            received →
          responses.take count <+:
              (StreamReader.readAll readResponse received).1 ∧
            (StreamReader.readAll readResponse received).1 <+: responses) ∧
      ∀ client, dialogue.trace.loop.heap id = some client →
        client.conn.socket ≠ none → client.conn.Idle →
          (∀ entry ∈ dialogue.trace.waiting, entry.pw.conn ≠ some id) →
            StreamReader.readAll readResponse
                (wire (dialogue.trace.calls socket)) = (responses, []) := by
  have kept : dialogue.Kept router :=
    orderly.invariant (fun _ _ _ kept orderly stepped =>
      kept.step orderly stepped) (start_kept listenFd wakeupFd) ran
  rcases kept.answered built id small with
    ⟨pending, responses, split, unanswered, few, answers, reads⟩
  refine ⟨pending, responses, split, unanswered, few, answers,
    ?_, ?_⟩
  · intro received arrived count whole
    have begins := arrived.trans (kept.arrived home)
    rw [bytesOf_eq] at begins
    rw [bytesOf_eq, List.map_take] at whole
    exact readResponse_steady.readAll_received reads begins whole
  · intro client found open_ idle nobody
    rw [kept.arrived_all home found open_ idle nobody, bytesOf_eq]
    exact readResponse_steady.readAll_encoded reads

/-- A client asks for `/` and gets the one byte of `index.html`. -/
def served : List (Answering.Action Host) :=
  (EventLoop.exchange 71 (text "ET / HTTP/1.1\r\n\r\n") []).dropLast.map
      .loop ++
    [.work 0 (Answering.hosting .regular)
        fun handle => { handle := handle, contents := text "x" },
      .loop (.wait [EventLoop.readable 5]), .loop .handle,
      .loop (.drain [.took 102, .took 1]), .loop (.drain [])]

theorem built_routes :
    Answering.buildRouter (Answering.hosting .regular).system =
      some (Answering.routes (Answering.hosting .regular)) := by
  rcases Option.isSome_iff_exists.1 (show (Answering.buildRouter
    (Answering.hosting .regular).system).isSome = true by decide) with
    ⟨router, built⟩
  rw [Answering.routes, built]
  rfl

theorem client_reads_served :
    ∃ dialogue,
      (machine (Answering.routes (Answering.hosting .regular))).run
          (start 3 5) served = some dialogue ∧
        (dialogue.answered 0).length = 1 ∧
        ∃ pending responses,
          dialogue.heard 0 =
            (dialogue.answered 0).map Handling.message ++ pending ∧
          List.Forall₂
            (Answers (Answering.routes (Answering.hosting .regular)))
            (dialogue.answered 0) responses ∧
          (StreamReader.readAll readResponse
            (wire (dialogue.trace.calls 2))).1 <+: responses ∧
          (StreamReader.readAll readResponse
              (wire (dialogue.trace.calls 2))).1.map Decoded.body =
            [text "x"] := by
  have finishes : ∃ dialogue,
      (machine (Answering.routes (Answering.hosting .regular))).run
          (start 3 5) served = some dialogue ∧
        (dialogue.trace.home 0, (dialogue.answered 0).length,
          (dialogue.trace.postedTo 0).map fun entry => entry.pw.bytes.length,
          (StreamReader.readAll readResponse
            (wire (dialogue.trace.calls 2))).1.map Decoded.body) =
        (some 2, 1, [103], [text "x"]) :=
    Option.map_eq_some_iff.1 (by decide +kernel)
  rcases finishes with ⟨dialogue, ran, facts⟩
  rcases Prod.mk.inj facts with ⟨home, facts⟩
  rcases Prod.mk.inj facts with ⟨one, facts⟩
  rcases Prod.mk.inj facts with ⟨sizes, bodies⟩
  have small : ∀ entry ∈ dialogue.trace.postedTo 0,
      entry.pw.bytes.length < 2 ^ 64 := by
    intro entry member
    have size : entry.pw.bytes.length ∈
        (dialogue.trace.postedTo 0).map fun entry => entry.pw.bytes.length :=
      List.mem_map_of_mem member
    rw [sizes, List.mem_singleton] at size
    rw [size]
    decide
  rcases client_reads built_routes (by decide +kernel) ran home small with
    ⟨pending, responses, split, _, _, answers, reads, _⟩
  have read := (reads _ (List.prefix_refl _) 0 List.nil_prefix).2
  exact ⟨dialogue, ran, one, pending, responses, split, answers, read,
    bodies⟩

end Dialogue

end Cppws.App
