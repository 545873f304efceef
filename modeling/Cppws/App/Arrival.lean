import Cppws.App.Dialogue
import Cppws.App.Memory
import Cppws.App.Pipeline

/-!
# Requests that arrive

What the read callback makes of the requests of a client as their bytes come
in.  As long as every chunk ends in the middle of a request or with it, each
request is recognised when its last byte has been received, and a parser that
is in the middle of one goes on as if it had been fed all at once.
-/

namespace Cppws.App

open Cppws.Core
open Cppws.Http
open Cppws.Net

/-! ## A stream of requests -/

/-- What is sent for some requests. -/
def stream (requests : List Request) : Bytes :=
  requests.flatMap WireRequest.bytes

@[simp]
theorem stream_append (first second : List Request) :
    stream (first ++ second) = stream first ++ stream second :=
  List.flatMap_append

theorem stream_singleton (request : Request) :
    stream [request] = request.bytes :=
  List.flatMap_singleton ..

theorem bytes_pos (request : Request) : 0 < request.bytes.length := by
  apply List.length_pos_of_ne_nil
  simp [WireRequest.bytes, WireRequest.head, WireRequest.lines, requestLine]

/-- A chunk may end after so many bytes of some requests. -/
def CutAllowed : List Request → Nat → Prop
  | [], _ => True
  | request :: rest, count =>
      if count < request.bytes.length then
        request.CutAllowed count
      else
        CutAllowed rest (count - request.bytes.length)

instance decidableCutAllowed :
    ∀ requests count, Decidable (CutAllowed requests count)
  | [], _ => inferInstanceAs (Decidable True)
  | request :: rest, count =>
      have : ∀ count, Decidable (CutAllowed rest count) :=
        decidableCutAllowed rest
      inferInstanceAs (Decidable
        (if count < request.bytes.length then request.CutAllowed count
          else CutAllowed rest (count - request.bytes.length)))

/-- The cut is one of the request that it falls into. -/
theorem CutAllowed.within {done later : List Request} {request : Request}
    {part : Bytes} (short : part.length < request.bytes.length)
    (cut : CutAllowed (done ++ request :: later)
      (stream done ++ part).length) : request.CutAllowed part.length := by
  induction done with
  | nil =>
      rw [List.nil_append, CutAllowed] at cut
      change if part.length < _ then _ else _ at cut
      rwa [if_pos short] at cut
  | cons first done ih =>
      have sum : (stream (first :: done) ++ part).length =
          first.bytes.length + (stream done ++ part).length := by
        rw [stream, List.flatMap_cons, List.append_assoc, List.length_append]
        rfl
      rw [List.cons_append, CutAllowed, sum, if_neg (by omega),
        Nat.add_sub_cancel_left] at cut
      exact ih cut

/-- What has been recognised and what the parser is in the middle of. -/
inductive Reading (requests : List Request) (heard : List Message)
    (received : Bytes) (parser : HttpParser) : Prop where
  | intro (done rest : List Request) (part : Bytes)
      (split : requests = done ++ rest)
      (recognised : heard =
        done.map fun request => .request request.toRequest)
      (arrived : received = stream done ++ part)
      (incomplete : part = [] ∨
        ∃ request ∈ rest.head?, part.length < request.bytes.length)
      (continues : ∀ after,
        (HttpParser.fresh defaultMaxBodySize).feed (part ++ after) =
          parser.feed after)

theorem reading_fresh (requests : List Request) :
    Reading requests [] [] (.fresh defaultMaxBodySize) :=
  .intro [] requests [] rfl rfl rfl (Or.inl rfl) fun _ => rfl

/-- The requests that have arrived as a whole have been recognised. -/
theorem Reading.hears {requests : List Request} {heard : List Message}
    {received : Bytes} {parser : HttpParser}
    (reading : Reading requests heard received parser) :
    ∃ done, done <+: requests ∧
      heard = done.map (fun request => .request request.toRequest) ∧
      ∀ whole, whole <+: requests → stream whole <+: received →
        whole <+: done := by
  cases reading with
  | intro done rest part split recognised arrived incomplete continues =>
      subst split arrived
      have own : done <+: done ++ rest := List.prefix_append _ _
      refine ⟨done, own, recognised, fun whole among begins => ?_⟩
      by_cases short : whole.length ≤ done.length
      · exact List.prefix_of_prefix_length_le among own short
      rcases List.prefix_of_prefix_length_le own among
        (Nat.le_of_not_le short) with ⟨more, rfl⟩
      have among := (List.prefix_append_right_inj done).1 among
      rw [stream_append] at begins
      have begins := (List.prefix_append_right_inj _).1 begins
      cases more with
      | nil => simp at short
      | cons request later =>
          -- The parser would have the whole request it is in the middle of.
          have some_bytes := bytes_pos request
          have long : request.bytes.length ≤ part.length := by
            refine Nat.le_trans ?_ begins.length_le
            rw [stream, List.flatMap_cons, List.length_append]
            exact Nat.le_add_right _ _
          rcases among with ⟨others, rfl⟩
          rcases incomplete with rfl | ⟨next, first, less⟩
          · rw [List.length_nil] at long
            omega
          · cases first
            omega

/-- The next chunk ends in the middle of a request or with it. -/
theorem Reading.feeds {requests : List Request} {heard : List Message}
    {received chunk : Bytes} {parser : HttpParser}
    (reading : Reading requests heard received parser) (some : chunk ≠ [])
    (begins : received ++ chunk <+:
      stream (requests.take (heard.length + 1)))
    (cut : CutAllowed requests (received ++ chunk).length) :
    (∃ next, parser.feed chunk = (next, .incomplete) ∧
        Reading requests heard (received ++ chunk) next) ∨
      ∃ request : Request,
        parser.feed chunk = (request.finished, .complete) ∧
        received ++ chunk = stream (requests.take (heard.length + 1)) ∧
        heard.length < requests.length ∧
        Reading requests (heard ++ [.request request.toRequest])
          (received ++ chunk) (.fresh defaultMaxBodySize) := by
  cases reading with
  | intro done rest part split recognised arrived incomplete continues =>
      subst split recognised arrived
      rw [List.length_map, List.take_length_add_append, stream_append,
        List.append_assoc] at begins
      have begins := (List.prefix_append_right_inj _).1 begins
      cases rest with
      | nil =>
          have nothing := List.prefix_nil.1 begins
          exact absurd (List.append_eq_nil_iff.1 nothing).2 some
      | cons request later =>
          rw [List.take_one, List.head?_cons, Option.toList_some,
            stream_singleton] at begins
          rw [List.append_assoc] at cut ⊢
          by_cases short : (part ++ chunk).length < request.bytes.length
          · rcases request.feed_cut begins short (cut.within short) with
              ⟨next, fed, continuesOn⟩
            refine Or.inl ⟨next, ?_, ?_⟩
            · rw [← continues chunk, fed]
            · exact .intro done (request :: later) _ rfl rfl rfl
                (Or.inr ⟨request, rfl, short⟩) continuesOn
          · have whole : part ++ chunk = request.bytes :=
              begins.eq_of_length (Nat.le_antisymm begins.length_le
                (Nat.le_of_not_lt short))
            refine Or.inr ⟨request, ?_, ?_, ?_, ?_⟩
            · rw [← continues chunk, whole, request.feed_bytes]
            · rw [whole, List.length_map, List.take_length_add_append,
                stream_append, List.take_one, List.head?_cons,
                Option.toList_some, stream_singleton]
            · simp
            · refine .intro (done ++ [request]) later [] (by simp) (by simp)
                ?_ (Or.inl rfl) fun _ => rfl
              rw [whole, stream_append, stream_singleton, List.append_nil]

/-! ## What a parser is given -/

/-- A round of `on_readable` gives the callback what `recv` returns, if that is
anything. -/
theorem readOnce_taken {conn : Connection} (afresh : conn.Afresh)
    (received : Received) :
    (conn.readOnce received).2.2 ≠ .callback ∧ taken conn received = [] ∨
      (conn.readOnce received).2.2 = .callback ∧
        (conn.readOnce received).1.readBuf.readable = taken conn received ∧
        taken conn received ≠ [] ∧ conn.socket ≠ none := by
  have room : conn.readBuf.writableBytes ≠ 0 := by
    rw [afresh.room]
    decide
  have roomy : conn.roomToRead = some conn := if_neg room
  rw [afresh.readOnce_eq]
  simp only [taken, roomy, Connection.recv]
  cases returned : conn.receives received with
  | data first rest =>
      refine Or.inr ⟨rfl, ?_, ?_, ?_⟩
      · simp only [Buffer.readable_append, afresh.readable, List.nil_append]
        rfl
      · simp [ReadEvent.received, room]
      · intro none
        rw [Connection.receives, if_pos none] at returned
        cases returned
  | eof =>
      refine Or.inl ⟨?_, rfl⟩
      intro same
      cases same
  | failed errno =>
      refine Or.inl ⟨?_, rfl⟩
      cases errno <;> (intro same; cases same)

/-- The parser of a connection after a round of `on_readable`. -/
def Client.parserAfter (client : Client) (received : Received) : HttpParser :=
  if (client.conn.readOnce received).2.2 = .callback then
    (readCallback (client.conn.readOnce received).1 client.parser).2.1
  else
    client.parser

theorem called_parses {loop after : EventLoop} {id : Nat} {client : Client}
    (ran : loop.called id client = some after) :
    ∃ moved : Client,
      after.heap = Function.update loop.heap id (some moved) ∧
        moved.parser = (readCallback client.conn client.parser).2.1 := by
  unfold EventLoop.called at ran
  dsimp only at ran
  split at ran
  case h_1 =>
    cases ran
    exact ⟨_, rfl, rfl⟩
  case h_2 data _ =>
    rcases Option.map_eq_some_iff.1 ran with ⟨pushed, _, rfl⟩
    exact ⟨_, rfl, rfl⟩
  case h_3 =>
    cases ran
    exact ⟨_, rfl, rfl⟩

/-- One parser is fed in a round of `on_readable`. -/
theorem recv_parses {before after : EventLoop} {received : Received}
    (stepped : EventLoop.machine.step before (.recv received) = some after) :
    ∃ id client, before.currentClient = some (id, client) ∧
      ∃ moved : Client,
        after.heap = Function.update before.heap id (some moved) ∧
          moved.parser = client.parserAfter received := by
  have ran : before.step (.recv received) = some after := stepped
  simp only [EventLoop.step] at ran
  split at ran
  case h_2 => cases ran
  case h_1 event rest phase =>
    rcases Option.bind_eq_some_iff.1 ran with ⟨⟨id, client⟩, found, ran⟩
    refine ⟨id, client, ?_, ?_⟩
    · rw [EventLoop.currentClient, phase]
      exact found
    dsimp only at ran
    unfold Client.parserAfter
    generalize client.conn.readOnce received = read at ran
    cases reading : read.2.2 with
    | callback =>
        simp only [reading] at ran
        rcases called_parses ran with ⟨moved, heap, parser⟩
        refine ⟨moved, ?_, ?_⟩
        · rw [heap]
          exact Function.update_idem _ _ _
        · rw [if_pos rfl]
          exact parser
    | retry | blocked | closed =>
        simp only [reading, Option.some.injEq] at ran
        subst ran
        refine ⟨_, rfl, ?_⟩
        rw [if_neg fun same => by cases same]

/-- No parser has been fed. -/
def Unfed (before after : EventLoop) : Prop :=
  ∀ id moved, after.heap id = some moved →
    ∃ client, before.heap id = some client ∧ moved.parser = client.parser

theorem Unfed.of_heap {before after : EventLoop}
    (heap : after.heap = before.heap) : Unfed before after := by
  intro id moved found
  exact ⟨moved, heap ▸ found, rfl⟩

theorem Unfed.of_update {before after : EventLoop} {id : Nat}
    {client moved : Client} (found : before.heap id = some client)
    (heap : after.heap = Function.update before.heap id (some moved))
    (same : moved.parser = client.parser) : Unfed before after := by
  intro other entry known
  rw [heap] at known
  by_cases here : other = id
  · rw [here, Function.update_self, Option.some.injEq] at known
    exact ⟨client, here ▸ found, known ▸ same⟩
  · rw [Function.update_of_ne here] at known
    exact ⟨entry, known, rfl⟩

/-- Only new connections and `recv` make a difference to the parsers. -/
theorem Unfed.step {before after : EventLoop} {action : EventLoop.Action}
    (stepped : EventLoop.machine.step before action = some after)
    (accepting : ∀ clients last, action ≠ .accept clients last)
    (receiving : ∀ received, action ≠ .recv received) :
    Unfed before after := by
  cases EventLoop.step_effect stepped with
  | wait | reap | stop => exact .of_heap rfl
  | accept clients last => exact absurd rfl (accepting clients last)
  | recv received => exact absurd rfl (receiving received)
  | handle event rest _ _ _ handles =>
      cases handles with
      | closes id client keyed found closed =>
          exact .of_update found rfl rfl
      | wakeup | stale | reads | writes | ignores => exact .of_heap rfl
  | write answers event rest phase id client flushed keyed found flush used _
      writes => exact .of_update found writes.replaces.heap rfl
  | drain answers rest phase _ drains =>
      cases drains with
      | finishes | discards => exact .of_heap rfl
      | delivers pw queue popped id client flushed named found alive delivered
          used next same =>
          subst same
          split
          · unfold EventLoop.modify
            split <;> exact .of_update found rfl rfl
          · exact .of_update found rfl rfl
  | work index response _ finishes =>
      cases finishes <;> exact .of_heap rfl

/-- A parser that was not there before is a fresh one. -/
theorem acceptAll_fresh {clients : List Fd} {before after : EventLoop}
    (sound : before.Sound) (accepted : before.acceptAll clients = some after)
    {id : Nat} {client : Client} (found : after.heap id = some client) :
    before.heap id = some client ∨
      before.heap id = none ∧
        client.parser = .fresh defaultMaxBodySize := by
  induction clients generalizing before with
  | nil =>
      cases accepted
      exact Or.inl found
  | cons fd rest ih =>
      rcases Option.bind_eq_some_iff.1 accepted with ⟨next, first, accepted⟩
      have absent := sound.unborn (Nat.le_refl before.nextConnId)
      cases (EventLoop.acceptOne_accepts first).1 with
      | stored _ _ _ heap =>
          have later := ih (sound.acceptOne first) accepted
          rw [heap] at later
          by_cases new : id = before.nextConnId
          · subst new
            simp only [Function.update_self, Option.some.injEq,
              reduceCtorEq, false_and, or_false] at later
            exact Or.inr ⟨absent, later ▸ rfl⟩
          · rwa [Function.update_of_ne new] at later
      | dropped _ _ _ _ heap =>
          have later := ih (sound.acceptOne first) accepted
          rwa [heap] at later

end Cppws.App
