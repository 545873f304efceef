import Cppws.App.Trace
import Cppws.App.WorkerTask
import Cppws.Http.StaticHandler

/-!
# Answering every request

The event loop with the router that the tasks of its workers run.  A task that
ends has pushed one response for its request, to the connection the request came
from, unless the handler threw: `worker_loop` catches the exception and nobody
answers.
-/

namespace Cppws.App

open Cppws.Core
open Cppws.Http
open Cppws.Net

namespace Trace

/-- The connections of the responses that were pushed for a request. -/
def answers (trace : Trace) (ticket : Nat) : List (Option Nat) :=
  (trace.pushed.filter fun entry => entry.ticket = some ticket).map fun entry =>
    entry.pw.conn

/-- Every request whose task has ended has one answer. -/
def Answered (trace : Trace) : Prop :=
  ∀ job ∈ trace.ended, trace.answers job.ticket = [some job.conn]

/-- The requests that were submitted are numbered, and only those whose tasks
have ended may have been answered. -/
structure Numbered (trace : Trace) : Prop where
  recorded : trace.Recorded
  tickets : ((trace.jobs ++ trace.ended).map Job.ticket).Perm
    (List.range trace.submitted)
  known : ∀ entry ∈ trace.pushed, ∀ ticket, entry.ticket = some ticket →
    ticket ∈ trace.ended.map Job.ticket

/-- What a step does to the requests and their answers. -/
inductive Proceeds (before after : Trace) : EventLoop.Action → Prop where
  /-- At most a parse error is answered. -/
  | aside (action : EventLoop.Action)
      (idle : ∀ index response, action ≠ .work index response)
      (jobs : after.jobs = before.jobs) (ended : after.ended = before.ended)
      (submitted : after.submitted = before.submitted) (added : List Pushed)
      (pushed : after.pushed = before.pushed ++ added)
      (inline : ∀ entry ∈ added, entry.ticket = none) :
      Proceeds before after action
  | submits (received : Received) (job : Job)
      (ticket : job.ticket = before.submitted)
      (jobs : after.jobs = before.jobs ++ [job])
      (ended : after.ended = before.ended)
      (submitted : after.submitted = before.submitted + 1)
      (pushed : after.pushed = before.pushed) :
      Proceeds before after (.recv received)
  | ends (index : Nat) (response : Option PendingWrite) (job : Job)
      (task : before.jobs[index]? = some job)
      (jobs : after.jobs = before.jobs.eraseIdx index)
      (ended : after.ended = before.ended ++ [job])
      (submitted : after.submitted = before.submitted)
      (pushed : after.pushed = before.pushed ++
        response.toList.map fun pw =>
          { pw := { pw with conn := some job.conn }
            ticket := some job.ticket
            readFrom := job.readFrom }) :
      Proceeds before after (.work index response)

@[simp]
theorem ended_note (trace : Trace) (socket : Option Nat) (calls : List Call) :
    (trace.note socket calls).ended = trace.ended := by
  cases socket <;> rfl

@[simp]
theorem submitted_note (trace : Trace) (socket : Option Nat)
    (calls : List Call) :
    (trace.note socket calls).submitted = trace.submitted := by
  cases socket <;> rfl

theorem proceeds_received {before : Trace} {next : EventLoop} {id : Nat}
    {client : Client} {dispatch : Dispatch} (received : Received) :
    before.Proceeds (before.received next id client dispatch)
      (.recv received) := by
  cases dispatch with
  | nothing =>
      refine .aside _ nofun rfl rfl rfl [] (List.append_nil _).symm ?_
      intro entry never
      cases never
  | postResponse data =>
      refine .aside _ nofun rfl rfl rfl _ (List.append_assoc _ _ _).symm ?_
      intro entry member
      rcases List.mem_map.1 member with ⟨pw, _, rfl⟩
      rfl
  | submit request keepAlive =>
      exact .submits received _ rfl rfl rfl rfl rfl

/-- What leaves `pending_writes_` has been pushed all the same. -/
theorem pushed_taken {before after : Trace} {entry : Pushed}
    {rest : List Pushed} {taken : Taken}
    (waiting : before.waiting = entry :: rest) (left : after.waiting = rest)
    (record : after.taken = before.taken ++ [taken])
    (same : taken.entry = entry) :
    after.pushed = before.pushed := by
  simp [pushed, waiting, left, record, same]

theorem Follows.proceeds {before after : Trace} {next : EventLoop}
    {action : EventLoop.Action} (follows : before.Follows next action after) :
    before.Proceeds after action := by
  have nothing : ∀ entry ∈ ([] : List Pushed), entry.ticket = none := by
    intro entry never
    cases never
  cases follows with
  | aside _ _ _ _ working =>
      exact .aside _ working rfl rfl rfl [] (List.append_nil _).symm nothing
  | accepts =>
      exact .aside _ nofun rfl rfl rfl [] (List.append_nil _).symm nothing
  | receives received id client _ dispatch => exact proceeds_received received
  | writes answers id client _ flushed =>
      refine .aside _ nofun (jobs_note _ _ _) (ended_note _ _ _)
        (submitted_note _ _ _) [] ?_ nothing
      simp [pushed]
  | hands answers entry rest waiting id client =>
      refine .aside _ nofun (jobs_note _ _ _) (ended_note _ _ _)
        (submitted_note _ _ _) [] ?_ nothing
      rw [List.append_nil]
      exact pushed_taken waiting (waiting_note _ _ _) rfl rfl
  | discards answers entry rest waiting =>
      refine .aside _ nofun rfl rfl rfl [] ?_ nothing
      rw [List.append_nil]
      exact pushed_taken waiting rfl rfl rfl
  | throws index job task =>
      exact .ends index none job task rfl rfl rfl (List.append_nil _).symm
  | posts index job task _ response =>
      exact .ends index (some response) job task rfl rfl rfl
        (List.append_assoc _ _ _).symm

/-- A running task has a number that none of those that ended has. -/
theorem Numbered.running {trace : Trace} (numbered : trace.Numbered)
    {index : Nat} {job : Job} (task : trace.jobs[index]? = some job) :
    job.ticket ∉ trace.ended.map Job.ticket := by
  have distinct : ((trace.jobs ++ trace.ended).map Job.ticket).Nodup :=
    numbered.tickets.nodup_iff.2 List.nodup_range
  rw [List.map_append, List.nodup_append] at distinct
  intro ended
  exact distinct.2.2 _ (List.mem_map_of_mem (List.mem_of_getElem? task)) _
    ended rfl

/-- The answers to a request that has ended are all there. -/
theorem Proceeds.answers_eq {before after : Trace} {action : EventLoop.Action}
    (proceeds : before.Proceeds after action) (numbered : before.Numbered)
    {ticket : Nat} (old : ticket ∈ before.ended.map Job.ticket) :
    after.answers ticket = before.answers ticket := by
  cases proceeds with
  | aside _ _ _ _ _ added pushed inline =>
      have none_added : (added.filter fun entry =>
          entry.ticket = some ticket) = [] := by
        rw [List.filter_eq_nil_iff]
        intro entry member
        simp [inline entry member]
      simp [answers, pushed, none_added]
  | submits _ _ _ _ _ _ pushed => simp [answers, pushed]
  | ends index response job task _ _ _ pushed =>
      have other : job.ticket ≠ ticket := fun same =>
        numbered.running task (same ▸ old)
      have none_added : ((response.toList.map fun pw =>
            { pw := { pw with conn := some job.conn }
              ticket := some job.ticket
              readFrom := job.readFrom : Pushed }).filter fun entry =>
          entry.ticket = some ticket) = [] := by
        rw [List.filter_eq_nil_iff]
        intro entry member
        rcases List.mem_map.1 member with ⟨pw, _, rfl⟩
        simp [other]
      simp [answers, pushed, none_added]

/-- A request whose task has not ended has no answer. -/
theorem Numbered.answers_nil {trace : Trace} (numbered : trace.Numbered)
    {ticket : Nat} (running : ticket ∉ trace.ended.map Job.ticket) :
    trace.answers ticket = [] := by
  rw [answers, List.map_eq_nil_iff, List.filter_eq_nil_iff]
  intro entry member answered
  exact running (numbered.known entry member ticket (by simpa using answered))

/-- A task that ends only changes its place in the record. -/
theorem ended_perm {jobs ended : List Job} {index : Nat} {job : Job}
    (task : jobs[index]? = some job) :
    (jobs.eraseIdx index ++ (ended ++ [job])).Perm (jobs ++ ended) := by
  obtain ⟨bound, rfl⟩ := List.getElem?_eq_some_iff.1 task
  have moved : (jobs.eraseIdx index ++ ended ++ [jobs[index]]).Perm
      ([jobs[index]] ++ (jobs.eraseIdx index ++ ended)) :=
    List.perm_append_comm
  rw [← List.append_assoc]
  exact moved.trans
    ((List.getElem_cons_eraseIdx_perm bound).append_right ended)

theorem Numbered.step {before after : Trace} {action : EventLoop.Action}
    (numbered : before.Numbered)
    (stepped : machine.step before action = some after) :
    after.Numbered := by
  rcases numbered.recorded.follows stepped with ⟨next, _, follows⟩
  have recorded := numbered.recorded.step stepped
  cases follows.proceeds with
  | aside _ _ jobs ended submitted added pushed inline =>
      refine ⟨recorded, ?_, ?_⟩
      · rw [jobs, ended, submitted]
        exact numbered.tickets
      · intro entry member ticket named
        rw [pushed] at member
        rw [ended]
        rcases List.mem_append.1 member with old | new
        · exact numbered.known entry old ticket named
        · rw [inline entry new] at named
          cases named
  | submits _ job ticket jobs ended submitted pushed =>
      refine ⟨recorded, ?_, ?_⟩
      · have moved : ((after.jobs ++ after.ended).map Job.ticket).Perm
            ((before.jobs ++ before.ended).map Job.ticket ++
              [before.submitted]) := by
          rw [jobs, ended]
          simp only [List.map_append, List.map_cons, List.map_nil, ticket,
            List.append_assoc]
          exact List.perm_append_comm.append_left _
        rw [submitted, List.range_succ]
        exact moved.trans (numbered.tickets.append_right _)
      · rw [pushed, ended]
        exact numbered.known
  | ends index response job task jobs ended submitted pushed =>
      refine ⟨recorded, ?_, ?_⟩
      · have moved : (after.jobs ++ after.ended).Perm
            (before.jobs ++ before.ended) := by
          rw [jobs, ended]
          exact ended_perm task
        rw [submitted]
        exact (moved.map _).trans numbered.tickets
      · intro entry member ticket named
        rw [pushed] at member
        rw [ended, List.map_append, List.mem_append]
        rcases List.mem_append.1 member with old | new
        · exact Or.inl (numbered.known entry old ticket named)
        · rcases List.mem_map.1 new with ⟨pw, _, rfl⟩
          cases named
          exact Or.inr (List.mem_singleton_self _)

theorem start_numbered (listenFd wakeupFd : Fd) :
    (start listenFd wakeupFd).Numbered :=
  ⟨start_recorded listenFd wakeupFd, .refl _, by
    intro entry member
    cases member⟩

theorem Proceeds.ended_subset {before after : Trace}
    {action : EventLoop.Action} (proceeds : before.Proceeds after action) :
    before.ended ⊆ after.ended := by
  cases proceeds with
  | aside _ _ _ ended => exact ended ▸ List.Subset.refl _
  | submits _ _ _ _ ended => exact ended ▸ List.Subset.refl _
  | ends _ _ _ _ _ ended => exact ended ▸ List.subset_append_left _ _

/-- A request that has no answer when its task ends never gets one. -/
theorem Proceeds.unanswered {before after : Trace} {action : EventLoop.Action}
    (proceeds : before.Proceeds after action) (numbered : before.Numbered)
    (unanswered : ¬before.Answered) :
    ¬after.Answered := by
  intro answered
  apply unanswered
  intro job member
  rw [← proceeds.answers_eq numbered (List.mem_map_of_mem member)]
  exact answered job (proceeds.ended_subset member)

/-- Only a task that throws leaves its request without an answer. -/
theorem Proceeds.still_answered_iff {before after : Trace}
    {action : EventLoop.Action}
    (proceeds : before.Proceeds after action) (numbered : before.Numbered)
    (answered : before.Answered) :
    after.Answered ↔ ∀ index, action ≠ .work index none := by
  have old : ∀ job ∈ before.ended, after.answers job.ticket =
      [some job.conn] := by
    intro job member
    rw [proceeds.answers_eq numbered (List.mem_map_of_mem member)]
    exact answered job member
  cases proceeds with
  | aside _ idle _ ended =>
      refine iff_of_true ?_ fun index => idle index none
      rwa [Answered, ended]
  | submits _ _ _ _ ended =>
      refine iff_of_true ?_ nofun
      rwa [Answered, ended]
  | ends index response job task _ ended _ pushed =>
      have first := numbered.answers_nil (numbered.running task)
      have last : after.answers job.ticket =
          response.toList.map fun _ => some job.conn := by
        rw [answers, pushed, List.filter_append, List.map_append]
        rw [answers] at first
        rw [first]
        cases response <;> simp
      constructor
      · intro after_answered other same
        cases same
        have mine := after_answered job
          (ended ▸ List.mem_append_right _ (List.mem_singleton_self job))
        rw [last] at mine
        cases mine
      · intro posts other member
        rw [ended] at member
        rcases List.mem_append.1 member with before_ended | new
        · exact old other before_ended
        · cases List.mem_singleton.1 new
          cases response with
          | none => exact absurd rfl (posts index)
          | some pw => exact last

end Trace

/-! ## The tasks of the workers -/

namespace Answering

variable {World : Type}

inductive Action (World : Type) where
  /-- A step of the event loop. -/
  | loop (action : EventLoop.Action)
  /-- A worker runs a task, in a world with these files. -/
  | work (index : Nat) (world : World) (files : Nat → OpenFile)

/-- `—` in UTF-8. -/
def emDash : Bytes :=
  [226, 128, 148]

/-- `build_router`, unless it throws. -/
def buildRouter (system : Posix.FileSystem) : Option (Router Host) :=
  let router := ({} : Router Host).addRoute .GET (text "/health")
    fun _ _ response =>
      some ((response.setStatus .Ok).setBody (text "ok") (text "text/plain"))
  let publicDir :=
    (Posix.Path.ofPlace system.cwd).append (.single (text "public"))
  match system.pathExists publicDir with
  | some true =>
      (StaticFileHandler.create system publicDir (text "/")).map fun handler =>
        router.addPrefixRoute .GET (text "/") handler.handle
  | some false =>
      some
        (router.addPrefixRoute .GET (text "/") fun _ _ response =>
          some
            ((response.setStatus .Ok).setBody
              (text "cppws running " ++ emDash ++
                text " create public/ to serve files")
              (text "text/plain")))
  | none => none

/-- The response that a task posts, unless its handler throws. -/
def response (router : Router World) (world : World) (files : Nat → OpenFile)
    (job : Job) : Option PendingWrite :=
  (handled router world job.request).map fun response =>
    let posted := posting response job.keepAlive
    { conn := some job.conn
      data := posted.data
      fileFd := posted.fileFd.map files
      -- Sizes are those of `fstat` and not negative, so nothing is cut off.
      fileSize := posted.fileSize.toNat }

def step (router : Router World) (trace : Trace) :
    Action World → Option Trace
  | .loop (.work _ _) => none
  | .loop action => trace.step action
  | .work index world files =>
      trace.jobs[index]?.bind fun job =>
        trace.step (.work index (response router world files job))

def machine (router : Router World) : Machine Trace (Action World) where
  step := step router

/-- The handler that a request goes to does not throw. -/
def Returns (router : Router World) (trace : Trace) : Action World → Prop
  | .loop _ => True
  | .work index world _ => ∀ job ∈ trace.jobs[index]?,
      ∀ route ∈ router.selected job.request,
        (route.handler world job.request {}).isSome

instance (router : Router World) (trace : Trace) (action : Action World) :
    Decidable (Returns router trace action) :=
  match action with
  | .loop _ => .isTrue trivial
  | .work index world _ =>
      inferInstanceAs (Decidable (∀ job ∈ trace.jobs[index]?,
        ∀ route ∈ router.selected job.request,
          (route.handler world job.request {}).isSome))

theorem response_eq_none_iff {router : Router World} {world : World}
    {files : Nat → OpenFile} {job : Job} :
    response router world files job = none ↔
      ∃ route, router.selected job.request = some route ∧
        route.handler world job.request {} = none := by
  rw [response, Option.map_eq_none_iff, handled, Option.map_eq_none_iff,
    Router.dispatch_eq_none_iff]

/-- Every step of the server is one of the event loop. -/
theorem step_trace {router : Router World} {before after : Trace}
    {action : Action World}
    (stepped : (machine router).step before action = some after) :
    ∃ action, Trace.machine.step before action = some after := by
  cases action with
  | loop action =>
      cases action with
      | work => cases stepped
      | wait | accept | handle | recv | write | drain | reap | stop =>
          exact ⟨_, stepped⟩
  | work index world files =>
      rcases Option.bind_eq_some_iff.1 stepped with ⟨job, _, stepped⟩
      exact ⟨_, stepped⟩

/-- A request is left without an answer exactly if its handler throws. -/
theorem answered_step {router : Router World} {before after : Trace}
    {action : Action World} (numbered : before.Numbered)
    (answered : before.Answered)
    (stepped : (machine router).step before action = some after) :
    after.Answered ↔ Returns router before action := by
  cases action with
  | loop action =>
      cases action with
      | work => cases stepped
      | wait | accept | handle | recv | write | drain | reap | stop =>
          rcases numbered.recorded.follows stepped with ⟨next, _, follows⟩
          rw [follows.proceeds.still_answered_iff numbered answered]
          exact iff_of_true nofun trivial
  | work index world files =>
      rcases Option.bind_eq_some_iff.1 stepped with ⟨job, task, stepped⟩
      rcases numbered.recorded.follows stepped with ⟨next, _, follows⟩
      rw [follows.proceeds.still_answered_iff numbered answered]
      constructor
      · intro posts other task' route selected
        cases task.symm.trans task'
        rw [Option.isSome_iff_ne_none]
        intro threw
        apply posts index
        rw [response_eq_none_iff.2 ⟨route, selected, threw⟩]
      · intro returns other same
        injection same with _ threw
        rcases response_eq_none_iff.1 threw with ⟨route, selected, threw⟩
        have returned := returns job task route selected
        rw [threw] at returned
        cases returned

/-- Some task has ended and left its request without an answer. -/
def Unanswered (trace : Trace) : Prop :=
  trace.Numbered ∧ ¬trace.Answered

/--
Every request whose task has ended was answered once, on the connection it came
from, exactly if no handler threw.
-/
theorem answered_iff {router : Router World} {listenFd wakeupFd : Fd}
    {actions : List (Action World)} {trace : Trace}
    (ran : (machine router).run (.start listenFd wakeupFd) actions =
      some trace) :
    trace.Answered ↔
      (machine router).Guarded (Returns router) (.start listenFd wakeupFd)
        actions := by
  have keeps : ∀ before action after, before.Numbered →
      (machine router).step before action = some after → after.Numbered := by
    intro before action after numbered stepped
    rcases step_trace stepped with ⟨_, stepped⟩
    exact numbered.step stepped
  have numbered : trace.Numbered :=
    Machine.Reachable.invariant ⟨actions, ran⟩ keeps
      (Trace.start_numbered listenFd wakeupFd)
  have read : trace.Answered ↔ ¬Unanswered trace := by
    simp [Unanswered, numbered]
  rw [read]
  refine Machine.not_failed_iff_guarded ?_
    (fun before action after numbered _ stepped _ =>
      keeps before action after numbered stepped) ?_
    (Trace.start_numbered listenFd wakeupFd) ?_ ran
  · intro before action after numbered works stepped
    have answered : before.Answered := by
      by_contra unanswered
      exact works ⟨numbered, unanswered⟩
    rw [← answered_step numbered answered stepped, Unanswered]
    exact and_iff_right (keeps before action after numbered stepped)
  · rintro before action after ⟨numbered, unanswered⟩ stepped
    refine ⟨keeps before action after numbered stepped, ?_⟩
    rcases step_trace stepped with ⟨_, stepped⟩
    rcases numbered.recorded.follows stepped with ⟨next, _, follows⟩
    exact follows.proceeds.unanswered numbered unanswered
  · rintro ⟨_, unanswered⟩
    apply unanswered
    intro job member
    cases member

/-- A client sends `GET /`, and a worker runs the task in a world. -/
def asked {World : Type} (world : World) : List (Action World) :=
  (EventLoop.exchange 71 (text "ET / HTTP/1.1\r\n\r\n") []).dropLast.map
      .loop ++
    [.work 0 world fun handle => { handle := handle, contents := [] }]

/-- A server that is run in `/srv`. -/
def hosting (index : Posix.Node) : Host where
  system :=
    { root := .directory true
        [(text "srv", .directory true
          [(text "public", .directory true [(text "index.html", index)])])]
      cwd := [text "srv"] }
  refuses := fun _ => false
  fstat := fun _ => some 1
  fileFd := 7

/-- The routes of a server that is run on a host. -/
def routes (host : Host) : Router Host :=
  (buildRouter host.system).getD {}

theorem answered_served :
    ∃ trace,
      (machine (routes (hosting .regular))).run (.start 3 5)
          (asked (hosting .regular)) = some trace ∧
        trace.Answered := by
  have finishes : ∃ trace,
      (machine (routes (hosting .regular))).run (.start 3 5)
          (asked (hosting .regular)) = some trace ∧
        trace.ended.length = 1 :=
    Option.map_eq_some_iff.1 (by decide)
  rcases finishes with ⟨trace, ran, _⟩
  exact ⟨trace, ran, (answered_iff ran).2 (by decide)⟩

/-- The `index.html` is a link to itself. -/
theorem answered_selfLink :
    ¬ ∀ (router : Router Host) listenFd wakeupFd actions trace,
        (machine router).run (.start listenFd wakeupFd) actions = some trace →
          trace.Answered := by
  intro always
  have finishes : ∃ trace,
      (machine (routes (hosting (.link (.ofBytes (text "index.html")))))).run
          (.start 3 5)
          (asked (hosting (.link (.ofBytes (text "index.html"))))) =
          some trace ∧
        (trace.ended.length, trace.pushed.length) = (1, 0) :=
    Option.map_eq_some_iff.1 (by decide)
  rcases finishes with ⟨trace, ran, both⟩
  rcases Prod.mk.inj both with ⟨ended, unpushed⟩
  have answered := always _ 3 5 _ trace ran
  obtain ⟨job, only⟩ := List.length_eq_one_iff.1 ended
  have mine := answered job (only ▸ List.mem_singleton_self job)
  rw [Trace.answers, List.length_eq_zero_iff.1 unpushed] at mine
  cases mine

end Answering

end Cppws.App
