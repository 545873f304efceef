import Cppws.App.ReadCallback
import Cppws.Http.WireRequest

/-!
# Requests in a stream

What a connection submits for a stream of requests that arrives in chunks.  The
callback feeds everything that has been read, discards it, and takes at most
one request, so whatever follows a request in its chunk is lost.  No request is
lost or invented when every request ends where a chunk ends.
-/

namespace Cppws.App

open Cppws.Http
open Cppws.Net

/-- A parser and the requests submitted so far. -/
abbrev Served := HttpParser × List HttpRequest

/-- The read callback, with what it submits. -/
def submitting (conn : Connection) (served : Served) : Connection × Served :=
  let called := readCallback conn served.1
  (called.1, called.2.1,
    match called.2.2 with
    | .submit request _ => served.2 ++ [request]
    | _ => served.2)

/-- The `recv` that reads a chunk. -/
def received : Bytes → List Received
  | [] => []
  | first :: rest => [.data first rest]

/-- One call of `on_readable` for each batch of chunks. -/
def serve (conn : Connection) (served : Served) :
    List (List Bytes) → Option (Connection × Served)
  | [] => some (conn, served)
  | batch :: rest =>
      (conn.onReadable submitting served
          (batch.flatMap received ++ [.failed .again])).bind fun result =>
        serve result.1 result.2.1 rest

/-- A new connection with its parser, and what it submits for some batches. -/
def submitted (socket : Fd) (id : Nat) (batches : List (List Bytes)) :
    Option (List HttpRequest) :=
  (serve (.opened socket id) (.fresh defaultMaxBodySize, []) batches).map
    fun result => result.2.2

/-- A request within the limits of the server. -/
abbrev Request := WireRequest defaultMaxBodySize

/-- The chunks can be read into an empty buffer. -/
def Readable (chunks : List Bytes) : Prop :=
  ∀ chunk ∈ chunks, chunk ≠ [] ∧ chunk.length ≤ Net.defaultCapacity

instance (chunks : List Bytes) : Decidable (Readable chunks) :=
  inferInstanceAs (Decidable (∀ chunk ∈ chunks, _))

/-- No chunk ends inside a line of the head of a request. -/
def EndsOutsideLines (requests : List Request) (chunks : List Bytes) : Prop :=
  ∀ front ∈ chunks.inits,
    front.flatten = requests.flatMap WireRequest.bytes ∨
      ∃ before request after part,
        requests = before ++ request :: after ∧
        front.flatten = before.flatMap WireRequest.bytes ++ part ∧
        part <+: request.bytes ∧ request.CutAllowed part.length

/--
The chunks fall into groups, one for each request, none of which is cut inside
a line of its head.
-/
def Aligned (requests : List Request) (chunks : List Bytes) : Prop :=
  ∃ groups : List (List Bytes), groups.flatten = chunks ∧
    List.Forall₂
      (fun request group => group.flatten = request.bytes ∧
        ∀ front ∈ group.inits, request.CutAllowed front.flatten.length)
      requests groups

/-! ## From the connection to the parser -/

/-- What the callback does with a chunk. -/
def serveChunk (served : Served) (chunk : Bytes) : Served :=
  let fed := served.1.feed chunk
  match fed.2 with
  | .complete =>
      (fed.1.takeResult.2.reset, served.2 ++ [fed.1.takeResult.1])
  | _ => (fed.1, served.2)

/-- A connection that is alive and has nothing in its read buffer. -/
structure Ready (conn : Connection) : Prop where
  socket : conn.socket ≠ none
  alive : conn.isAlive = true
  capacity : conn.readBuf.capacity = Net.defaultCapacity
  unread : conn.readBuf.writePos = 0

theorem ready_opened (socket : Fd) (id : Nat) :
    Ready (.opened socket id) :=
  ⟨nofun, rfl, rfl, rfl⟩

theorem submitting_serves {conn : Connection} (socket : conn.socket ≠ none)
    (alive : conn.isAlive = true)
    (capacity : conn.readBuf.capacity = Net.defaultCapacity)
    (served : Served) :
    Ready (submitting conn served).1 ∧
      (submitting conn served).2 =
        serveChunk served conn.readBuf.readable := by
  cases result : (served.1.feed conn.readBuf.readable).2 <;>
    simp only [submitting, readCallback, serveChunk, result, and_true] <;>
    exact ⟨socket, alive, capacity, rfl⟩

/-- One chunk through `recv` and the callback. -/
theorem readOnce_chunk {conn : Connection} (ready : Ready conn)
    {first : UInt8} {rest : Bytes}
    (fits : (first :: rest).length ≤ Net.defaultCapacity) :
    ∃ read, conn.readOnce (.data first rest) = (read, [], .callback) ∧
      read.socket = conn.socket ∧ read.isAlive = conn.isAlive ∧
      read.readBuf.capacity = conn.readBuf.capacity ∧
      read.readBuf.readable = first :: rest := by
  have room : conn.readBuf.writableBytes = Net.defaultCapacity := by
    rw [Buffer.writableBytes, ready.capacity, ready.unread]
    rfl
  have roomy : conn.roomToRead = some conn := by
    rw [Connection.roomToRead, room]
    rfl
  have all : (first :: rest).take conn.readBuf.writableBytes =
      first :: rest := by
    rw [room]
    exact List.take_of_length_le fits
  have nothing : conn.readBuf.readable = [] := by
    rw [Buffer.readable_eq, ready.unread, List.take_zero, List.drop_nil]
  have calls : conn.receives (.data first rest) = .data first rest :=
    if_neg ready.socket
  rw [Connection.readOnce, roomy]
  simp only [Connection.recv, calls]
  refine ⟨_, rfl, rfl, rfl, rfl, ?_⟩
  rw [Buffer.readable_append, nothing, List.nil_append, all]

theorem onReadable_chunks {conn : Connection} (ready : Ready conn)
    (served : Served) {chunks : List Bytes} (fit : Readable chunks) :
    ∃ read, Ready read ∧
      conn.onReadable submitting served
          (chunks.flatMap received ++ [.failed .again]) =
        some (read, chunks.foldl serveChunk served, [], true) := by
  induction chunks generalizing conn served with
  | nil =>
      have blocked : conn.readOnce (.failed .again) = (conn, [], .blocked) := by
        have room : conn.readBuf.writableBytes ≠ 0 := by
          rw [Buffer.writableBytes, ready.capacity, ready.unread]
          decide
        rw [Connection.readOnce, Connection.roomToRead, if_neg room]
        simp only [Connection.recv, Connection.receives, if_neg ready.socket]
      refine ⟨conn, ready, ?_⟩
      simp only [List.flatMap_nil, List.nil_append, Connection.onReadable,
        blocked, List.foldl_nil]
  | cons chunk chunks ih =>
      rcases fit chunk List.mem_cons_self with ⟨nonempty, fits⟩
      cases chunk with
      | nil => exact absurd rfl nonempty
      | cons first rest =>
          rcases readOnce_chunk ready fits with
            ⟨read, once, socket, alive, capacity, bytes⟩
          rcases submitting_serves (socket ▸ ready.socket)
            (alive.trans ready.alive) (capacity.trans ready.capacity)
            served with ⟨again, serves⟩
          rcases ih again (serveChunk served (first :: rest))
            (fun other member => fit other (List.mem_cons_of_mem _ member))
            with ⟨last, ready, ran⟩
          refine ⟨last, ready, ?_⟩
          simp only [List.flatMap_cons, received, List.cons_append,
            Connection.onReadable, once, serves, bytes, ran, List.foldl_cons,
            Option.map_some, List.nil_append]

theorem serve_batches {conn : Connection} (ready : Ready conn)
    (served : Served) {batches : List (List Bytes)}
    (fit : Readable batches.flatten) :
    ∃ last, Ready last ∧
      serve conn served batches =
        some (last, batches.flatten.foldl serveChunk served) := by
  induction batches generalizing conn served with
  | nil => exact ⟨conn, ready, rfl⟩
  | cons batch batches ih =>
      have firstFit : Readable batch := fun chunk member =>
        fit chunk (List.mem_append_left _ member)
      have restFit : Readable batches.flatten := fun chunk member =>
        fit chunk (List.mem_append_right _ member)
      rcases onReadable_chunks ready served firstFit with ⟨read, again, ran⟩
      rcases ih again (batch.foldl serveChunk served) restFit with
        ⟨last, ready, served⟩
      refine ⟨last, ready, ?_⟩
      rw [serve, ran, List.flatten_cons, List.foldl_append]
      exact served

/-! ## From the parser to the requests -/

/--
The chunks of one request, from a parser that has been fed the part of it
before them.
-/
theorem foldl_group (request : Request) (requests : List HttpRequest)
    {group : List Bytes} (nonempty : group ≠ [])
    (fit : ∀ chunk ∈ group, chunk ≠ []) {parser : HttpParser}
    (before : Bytes)
    (whole : before ++ group.flatten = request.bytes)
    (cuts : ∀ front ∈ group.inits,
      request.CutAllowed (before ++ front.flatten).length)
    (continues : ∀ after,
      (HttpParser.fresh defaultMaxBodySize).feed (before ++ after) =
        parser.feed after) :
    group.foldl serveChunk (parser, requests) =
      (.fresh defaultMaxBodySize, requests ++ [request.toRequest]) := by
  induction group generalizing parser before with
  | nil => exact absurd rfl nonempty
  | cons chunk group ih =>
      by_cases last : group = []
      · subst last
        have fed : parser.feed chunk = (request.finished, .complete) := by
          rw [← continues chunk, ← request.feed_bytes, ← whole]
          simp
        simp only [List.foldl_cons, List.foldl_nil, serveChunk, fed]
        rfl
      · have begins : before ++ chunk <+: request.bytes := by
          refine ⟨group.flatten, ?_⟩
          rw [← whole, List.flatten_cons, List.append_assoc]
        have strict : (before ++ chunk).length < request.bytes.length := by
          have more : 0 < group.flatten.length := by
            rcases List.exists_cons_of_ne_nil last with ⟨next, others, rfl⟩
            have some_bytes := fit next (by simp)
            rw [List.flatten_cons, List.length_append]
            exact Nat.add_pos_left (List.length_pos_of_ne_nil some_bytes) _
          have total : request.bytes.length =
              (before ++ chunk).length + group.flatten.length := by
            rw [← List.length_append, ← whole, List.flatten_cons,
              List.append_assoc]
          rw [total]
          exact Nat.lt_add_of_pos_right more
        have allowed : request.CutAllowed (before ++ chunk).length := by
          have cut := cuts [chunk] (by simp)
          rwa [List.flatten_singleton] at cut
        rcases request.feed_cut begins strict allowed with
          ⟨next, fed, continuesOn⟩
        have first : serveChunk (parser, requests) chunk =
            (next, requests) := by
          have result : parser.feed chunk = (next, .incomplete) := by
            rw [← continues chunk, fed]
          simp only [serveChunk, result]
        rw [List.foldl_cons, first]
        refine ih last (fun other member => fit other (by simp [member]))
          (before ++ chunk) ?_ ?_ continuesOn
        · rw [← whole, List.flatten_cons, List.append_assoc]
        · intro front member
          have cut := cuts (chunk :: front) (by
            rw [List.mem_inits] at member ⊢
            exact List.cons_prefix_cons.2 ⟨rfl, member⟩)
          rwa [List.flatten_cons, ← List.append_assoc] at cut

/-- Aligned chunks submit one request after the other. -/
theorem foldl_groups {requests : List Request} {groups : List (List Bytes)}
    (aligned : List.Forall₂
      (fun (request : Request) group => group.flatten = request.bytes ∧
        ∀ front ∈ group.inits, request.CutAllowed front.flatten.length)
      requests groups)
    (fit : ∀ chunk ∈ groups.flatten, chunk ≠ [])
    (earlier : List HttpRequest) :
    groups.flatten.foldl serveChunk (.fresh defaultMaxBodySize, earlier) =
      (.fresh defaultMaxBodySize,
        earlier ++ requests.map WireRequest.toRequest) := by
  induction aligned generalizing earlier with
  | nil => simp
  | @cons request group requests groups head _ ih =>
      rcases head with ⟨whole, cuts⟩
      have nonempty : group ≠ [] := by
        rintro rfl
        have none : request.bytes = [] := whole.symm
        simp [WireRequest.bytes, WireRequest.head, WireRequest.lines,
          requestLine] at none
      rw [List.flatten_cons, List.foldl_append,
        foldl_group request earlier nonempty
          (fun chunk member => fit chunk (List.mem_append_left _ member))
          [] whole cuts (fun _ => rfl),
        ih fun chunk member => fit chunk (List.mem_append_right _ member)]
      simp

/--
If every request of the stream ends where a chunk ends, and no chunk ends
inside a line of a head, then exactly these requests are submitted, in order.
-/
theorem submitted_requests (socket : Fd) (id : Nat) (requests : List Request)
    (batches : List (List Bytes)) (fit : Readable batches.flatten)
    (aligned : Aligned requests batches.flatten) :
    submitted socket id batches =
      some (requests.map WireRequest.toRequest) := by
  rcases aligned with ⟨groups, whole, aligned⟩
  rcases serve_batches (ready_opened socket id)
    (.fresh defaultMaxBodySize, []) fit with ⟨last, _, served⟩
  rw [submitted, served, ← whole, foldl_groups aligned]
  · rfl
  · rw [whole]
    exact fun chunk member => (fit chunk member).1

/-! ## Two requests in one stream -/

def getRequest : Request where
  method := .GET
  path := text "/a"
  version := text "HTTP/1.1"
  lineCr := true
  headers := []
  blankCr := true
  body := []
  known := by decide
  pathFree := by decide
  supported := by decide
  lineFits := by decide
  few := by decide
  framed := by decide
  bodyFits := by decide

def postRequest : Request where
  method := .POST
  path := text "/b"
  version := text "HTTP/1.0"
  lineCr := true
  headers :=
    [{ name := text "Content-Length"
       value := text " 2"
       withCr := false
       noColon := by decide
       noLf := by decide
       noCr := by decide
       fits := by decide }]
  blankCr := true
  body := text "ok"
  known := by decide
  pathFree := by decide
  supported := by decide
  lineFits := by decide
  few := by decide
  framed := by decide
  bodyFits := by decide

/-- A request whose header lines repeat its request line. -/
def repetitiveRequest : Request where
  method := .GET
  path := text "/b:c"
  version := text "HTTP/1.1"
  lineCr := true
  headers :=
    List.replicate 2
      { name := text "GET /b"
        value := text "c HTTP/1.1"
        withCr := true
        noColon := by decide
        noLf := by decide
        noCr := by decide
        fits := by decide }
  blankCr := true
  body := []
  known := by decide
  pathFree := by decide
  supported := by decide
  lineFits := by decide
  few := by decide
  framed := by decide
  bodyFits := by decide

/-- A lost request line goes unnoticed when a header line can replace it. -/
example :
    submitted 5 0
        [[getRequest.bytes ++ text "GET /b:c HTTP/1.1\r\n",
          text "GET /b:c HTTP/1.1\r\nGET /b:c HTTP/1.1\r\n\r\n"]] =
      some [getRequest.toRequest, repetitiveRequest.toRequest] := by
  decide

/-- A blank line that is cut is refused first and then ends the request. -/
example :
    submitted 5 0 [[getRequest.bytes.dropLast, [lf]]] =
      some [getRequest.toRequest] := by
  decide

/-- The body and the second request arrive with the second event. -/
theorem submitted_requests_apart :
    submitted 5 0
        [[postRequest.head.flatten], [text "ok", getRequest.bytes]] =
      some [postRequest.toRequest, getRequest.toRequest] :=
  submitted_requests 5 0 [postRequest, getRequest] _ (by decide)
    ⟨[[postRequest.head.flatten, text "ok"], [getRequest.bytes]], rfl,
      .cons (by decide) (.cons (by decide) .nil)⟩

/-- Both requests in one chunk: the second is never submitted. -/
theorem submitted_requests_oneChunk :
    ¬ ∀ socket id requests batches,
        Readable batches.flatten →
          batches.flatten.flatten = requests.flatMap WireRequest.bytes →
            EndsOutsideLines requests batches.flatten →
              submitted socket id batches =
                some (requests.map WireRequest.toRequest) := by
  intro always
  have outside : EndsOutsideLines [postRequest, getRequest]
      [postRequest.bytes ++ getRequest.bytes] := by
    intro front member
    simp only [List.inits, List.map_cons, List.map_nil, List.mem_cons,
      List.not_mem_nil, or_false] at member
    rcases member with rfl | rfl
    · exact Or.inr ⟨[], postRequest, [getRequest], [], rfl, rfl,
        List.nil_prefix, by decide⟩
    · exact Or.inl (by simp)
  have both := always 5 0 [postRequest, getRequest]
    [[postRequest.bytes ++ getRequest.bytes]] (by decide) (by simp) outside
  have once : submitted 5 0 [[postRequest.bytes ++ getRequest.bytes]] =
      some [postRequest.toRequest] := by decide
  rw [once] at both
  exact absurd both (by decide)

end Cppws.App
