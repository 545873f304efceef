import Cppws.Foundation.Machine
import Cppws.Http.Absorption

/-!
# The memory of the parser

What a parser holds is bounded in every state that calls of `feed`, `reset` and
`take_result` lead to, also after an error has left it with half a request and
a line.  Every field is written from one line, which is no longer than
`MAX_HEADER_SIZE`, or from the body, of which no more is taken than announced.
-/

namespace Cppws.Http.HttpParser

/-! ## The bounds -/

/-- The parts of a request that are cut out of lines. -/
structure BoundedRequest (request : HttpRequest) : Prop where
  headers : request.headers.keys.card ≤ maxHeaderCount
  path : request.path.length < maxHeaderSize + 1
  version : request.version.length < maxHeaderSize + 1
  header : ∀ name value, request.headers.lookup name = some value →
    name.length < maxHeaderSize + 1 ∧ value.length < maxHeaderSize + 1

/-- What a parser with a limit on bodies holds. -/
structure Bounded (maxBodySize : Nat) (parser : HttpParser) : Prop where
  limit : parser.maxBodySize = maxBodySize
  lineBuf : parser.lineBuf.length ≤ maxHeaderSize
  request : BoundedRequest parser.request
  body : parser.request.body.length ≤ maxBodySize
  inHead : parser.InHead → parser.request.body = []
  inBody : parser.state = .body →
    0 < parser.bodyRemaining ∧
      parser.request.body.length + parser.bodyRemaining =
        parser.request.contentLength ∧
      parser.request.body.length + parser.bodyRemaining ≤ maxBodySize

theorem boundedRequest_empty (method : Method) :
    BoundedRequest { method } where
  headers := by
    show (∅ : HeaderMap).keys.card ≤ maxHeaderCount
    rw [Finmap.keys_empty]
    exact Nat.zero_le _
  path := Nat.succ_pos _
  version := Nat.succ_pos _
  header name value found := by
    rw [Finmap.lookup_empty] at found
    cases found

theorem bounded_fresh (maxBodySize : Nat) :
    Bounded maxBodySize (fresh maxBodySize) where
  limit := rfl
  lineBuf := Nat.zero_le _
  request := boundedRequest_empty _
  body := Nat.zero_le _
  inHead _ := rfl
  inBody reading := by cases reading

/-! ## What is cut out of a line -/

theorem length_trim_le (sv : Bytes) : (trim sv).length ≤ sv.length := by
  have dropped : ∀ str : Bytes, (str.dropWhile fun ch =>
      ch = sp ∨ ch = ht).length ≤ str.length :=
    fun str => (List.dropWhile_sublist _).length_le
  rw [trim, List.length_reverse]
  refine Nat.le_trans (dropped _) ?_
  rw [List.length_reverse]
  exact dropped sv

/-- One more header, unless there are too many. -/
theorem BoundedRequest.store {request : HttpRequest}
    (bounded : BoundedRequest request)
    (room : request.headers.keys.card < maxHeaderCount) {name value : Bytes}
    (nameFits : name.length ≤ maxHeaderSize)
    (valueFits : value.length ≤ maxHeaderSize) :
    BoundedRequest
      { request with headers := request.headers.insert name value } where
  headers := by
    have keys : (request.headers.insert name value).keys ⊆
        insert name request.headers.keys := by
      intro key member
      rw [Finmap.mem_keys, Finmap.mem_insert] at member
      rw [Finset.mem_insert, Finmap.mem_keys]
      exact member
    exact (Finset.card_le_card keys).trans
      ((Finset.card_insert_le _ _).trans room)
  path := bounded.path
  version := bounded.version
  header other stored found := by
    by_cases same : other = name
    · subst same
      rw [Finmap.lookup_insert, Option.some.injEq] at found
      rw [← found]
      exact ⟨Nat.lt_succ_of_le nameFits, Nat.lt_succ_of_le valueFits⟩
    · rw [Finmap.lookup_insert_of_ne _ same] at found
      exact bounded.header other stored found

theorem BoundedRequest.with_body {request : HttpRequest}
    (bounded : BoundedRequest request) (body : Bytes) :
    BoundedRequest { request with body } where
  headers := bounded.headers
  path := bounded.path
  version := bounded.version
  header := bounded.header

/-! ## The pieces of `feed` -/

variable {maxBodySize : Nat} {parser : HttpParser}

/-- A parser that halts holds what it held. -/
theorem Bounded.halted (bounded : Bounded maxBodySize parser)
    {state : State} (halts : state = .complete) (error : Bytes)
    (bodyRemaining : Nat) :
    Bounded maxBodySize { parser with state, error, bodyRemaining } where
  limit := bounded.limit
  lineBuf := bounded.lineBuf
  request := bounded.request
  body := bounded.body
  inHead reading := by
    rcases reading with phase | phase <;> cases halts.symm.trans phase
  inBody reading := by cases halts.symm.trans reading

theorem Bounded.with_lineBuf (bounded : Bounded maxBodySize parser)
    {lineBuf : Bytes} (fits : lineBuf.length ≤ maxHeaderSize) :
    Bounded maxBodySize { parser with lineBuf } :=
  { bounded with lineBuf := fits }

theorem Bounded.consumeLine (bounded : Bounded maxBodySize parser)
    (data : Bytes) : Bounded maxBodySize (parser.consumeLine data).1 := by
  rcases consumeLine_cases parser data with equal | ⟨_, _, fits, equal⟩
  · rw [equal]
    exact bounded.halted rfl _ _
  · rw [equal]
    exact bounded.with_lineBuf fits

/-- What the request line leaves behind, whether it is accepted or not. -/
theorem Bounded.with_requestLine (bounded : Bounded maxBodySize parser)
    (inHead : parser.InHead) {state : State} (left : state ≠ .body)
    (error : Bytes) (method : Method) {path version : Bytes}
    (pathFits : path.length ≤ maxHeaderSize)
    (versionFits : version.length ≤ maxHeaderSize) :
    Bounded maxBodySize
      { parser with
        state, error
        request := { parser.request with method, path, version } } where
  limit := bounded.limit
  lineBuf := bounded.lineBuf
  request :=
    { bounded.request with
      path := Nat.lt_succ_of_le pathFits
      version := Nat.lt_succ_of_le versionFits }
  body := bounded.body
  inHead _ := bounded.inHead inHead
  inBody reading := absurd reading left

theorem Bounded.parseRequestLine (bounded : Bounded maxBodySize parser)
    (inHead : parser.InHead) {line : Bytes}
    (fits : line.length ≤ maxHeaderSize) :
    Bounded maxBodySize (parser.parseRequestLine line).1 := by
  have rest : ∀ count, (line.drop count).length ≤ maxHeaderSize :=
    fun count => (List.drop_sublist count line).length_le.trans fits
  have middle : ∀ start count,
      ((line.drop start).take count).length ≤ maxHeaderSize :=
    fun start count =>
      (List.take_sublist count _).length_le.trans (rest start)
  simp only [HttpParser.parseRequestLine]
  split_ifs with long
  · exact bounded.halted rfl _ _
  · cases find line sp 0 with
    | none => exact bounded.halted rfl _ _
    | some sp1 =>
        cases second : find line sp (sp1 + 1) with
        | none =>
            simp only [second]
            exact bounded.halted rfl _ _
        | some sp2 =>
            simp only [second]
            split_ifs with unknown unsupported
            · exact bounded.with_requestLine inHead State.noConfusion _ _
                (middle _ _) (rest _)
            · exact bounded.with_requestLine inHead State.noConfusion _ _
                (middle _ _) (rest _)
            · exact bounded.with_requestLine inHead State.noConfusion _ _
                (middle _ _) (rest _)

theorem Bounded.parseHeaderLine (bounded : Bounded maxBodySize parser)
    (phase : parser.state = .headers) {line : Bytes}
    (fits : line.length ≤ maxHeaderSize) :
    Bounded maxBodySize (parser.parseHeaderLine line).1 := by
  have empty := bounded.inHead (Or.inr phase)
  rcases parseHeaderLine_cases parser line with
    ⟨-, none, equal⟩ | ⟨-, positive, small, equal⟩ |
      ⟨-, room, colon, -, equal⟩ | ⟨bodyRemaining, msg, -, equal⟩
  · rw [equal]
    exact bounded.halted rfl _ _
  · -- The blank line before a body, of which nothing has been read.
    rw [equal]
    rw [bounded.limit] at small
    constructor
    · exact bounded.limit
    · exact bounded.lineBuf
    · exact bounded.request
    · exact bounded.body
    · intro reading
      rcases reading with reading | reading <;> cases reading
    · intro _
      simp only [empty, List.length_nil, Nat.zero_add]
      exact ⟨positive, trivial, small⟩
  · rw [equal]
    constructor
    · exact bounded.limit
    · exact bounded.lineBuf
    · apply bounded.request.store room
      · rw [toLower, List.length_map]
        exact (List.take_sublist colon line).length_le.trans fits
      · exact (length_trim_le _).trans
          ((List.drop_sublist _ line).length_le.trans fits)
    · exact bounded.body
    · intro _
      exact empty
    · intro reading
      cases phase.symm.trans reading
  · rw [equal]
    exact bounded.halted rfl _ _

theorem Bounded.parseLine (bounded : Bounded maxBodySize parser)
    {line : Bytes} (fits : line.length ≤ maxHeaderSize) :
    Bounded maxBodySize (parser.parseLine line).1 := by
  cases phase : parser.state with
  | requestLine =>
      rw [parseLine_requestLine phase]
      exact bounded.parseRequestLine (Or.inl phase) fits
  | headers =>
      rw [parseLine_headers phase]
      exact bounded.parseHeaderLine phase fits
  | body =>
      simp only [HttpParser.parseLine, phase]
      exact bounded
  | complete =>
      simp only [HttpParser.parseLine, phase]
      exact bounded

/-- What is read of a body is taken off what remains. -/
theorem Bounded.parseBody (bounded : Bounded maxBodySize parser)
    (phase : parser.state = .body) (data : Bytes) :
    Bounded maxBodySize (parser.parseBody data).1 := by
  rcases bounded.inBody phase with ⟨-, framed, small⟩
  rcases parseBody_cases parser data with
    ⟨enough, equal⟩ | ⟨short, equal⟩
  · rw [equal]
    constructor
    · exact bounded.limit
    · exact bounded.lineBuf
    · exact bounded.request.with_body _
    · rw [List.length_append, List.length_take, Nat.min_eq_left enough]
      exact small
    · intro reading
      rcases reading with reading | reading <;> cases reading
    · intro reading
      cases reading
  · rw [equal]
    have sum : (parser.request.body ++ data).length +
        (parser.bodyRemaining - data.length) =
        parser.request.body.length + parser.bodyRemaining := by
      rw [List.length_append, Nat.add_assoc, Nat.add_sub_cancel' short.le]
    constructor
    · exact bounded.limit
    · exact bounded.lineBuf
    · exact bounded.request.with_body _
    · exact (Nat.le_add_right _ _).trans (sum.le.trans small)
    · intro reading
      rcases reading with reading | reading <;>
        cases phase.symm.trans reading
    · intro _
      exact ⟨Nat.sub_pos_of_lt short, sum.trans framed, sum.le.trans small⟩

theorem Bounded.feed (bounded : Bounded maxBodySize parser) (data : Bytes) :
    Bounded maxBodySize (parser.feed data).1 := by
  apply feed_invariant _ _ _ bounded
  · intro parser data bounded _
    exact bounded.consumeLine data
  · intro parser bounded _
    exact (bounded.parseLine bounded.lineBuf).with_lineBuf (Nat.zero_le _)
  · intro parser data bounded phase
    exact bounded.parseBody phase data

/-! ## Runs of calls -/

theorem Bounded.reset (bounded : Bounded maxBodySize parser) :
    Bounded maxBodySize parser.reset := by
  have equal : parser.reset = fresh maxBodySize := by
    rw [← bounded.limit]
    rfl
  rw [equal]
  exact bounded_fresh maxBodySize

theorem Bounded.takeResult (bounded : Bounded maxBodySize parser)
    (final : parser.state = .complete) :
    Bounded maxBodySize parser.takeResult.2 where
  limit := bounded.limit
  lineBuf := bounded.lineBuf
  request := boundedRequest_empty _
  body := Nat.zero_le _
  inHead _ := rfl
  inBody reading := by cases final.symm.trans reading

/-- A parser in use, with the result of the last `feed` since a `reset`. -/
structure Session where
  parser : HttpParser
  last : Option Result := none

/-- The calls on a parser whose result is taken only after a `Complete`. -/
def session : Machine Session Call where
  step state made :=
    let parser := state.parser.call made
    match made with
    | .feed data => some { parser, last := some (state.parser.feed data).2 }
    | .reset => some { parser }
    | .takeResult =>
        if state.last = some .complete then some { state with parser }
        else none

theorem session_step {before after : Session} {made : Call}
    (bounded : before.parser.Bounded maxBodySize)
    (final : before.last = some .complete → before.parser.state = .complete)
    (stepped : session.step before made = some after) :
    after.parser.Bounded maxBodySize ∧
      (after.last = some .complete → after.parser.state = .complete) := by
  cases made with
  | feed data =>
      cases stepped
      refine ⟨bounded.feed data, ?_⟩
      intro completed
      apply feed_final
      intro incomplete
      rw [incomplete] at completed
      cases completed
  | reset =>
      cases stepped
      refine ⟨bounded.reset, ?_⟩
      intro completed
      cases completed
  | takeResult =>
      simp only [session, Option.ite_none_right_eq_some,
        Option.some.injEq] at stepped
      rcases stepped with ⟨completed, rfl⟩
      exact ⟨bounded.takeResult (final completed),
        fun _ => final completed⟩

/--
Whatever is fed to a parser, in whatever pieces, and however often it is reset
or its result is taken, its memory stays within the limits.
-/
theorem session_bounded {maxBodySize : Nat} {state : Session}
    (reachable :
      session.Reachable { parser := fresh maxBodySize } state) :
    state.parser.Bounded maxBodySize := by
  have kept : state.parser.Bounded maxBodySize ∧
      (state.last = some .complete → state.parser.state = .complete) := by
    apply reachable.invariant
    · intro before made after holds stepped
      exact session_step holds.1 holds.2 stepped
    · refine ⟨bounded_fresh maxBodySize, ?_⟩
      intro completed
      cases completed
  exact kept.1

/-- A result is taken, and the parser is used again and refuses a request. -/
theorem session_bounded_reused :
    ∃ state : Session,
      session.run { parser := fresh 4 }
        [.feed (text "GET / HTTP/1.0\n"), .feed (text "\n"), .takeResult,
          .reset, .feed (text "POST / HTTP/1.1\ncontent-length: 5\n\nab"),
          .feed (text "c")] = some state ∧
        state.parser.Bounded 4 := by
  have ran : (session.run { parser := fresh 4 }
      [.feed (text "GET / HTTP/1.0\n"), .feed (text "\n"), .takeResult,
        .reset, .feed (text "POST / HTTP/1.1\ncontent-length: 5\n\nab"),
        .feed (text "c")]).isSome := by
    decide
  rcases Option.isSome_iff_exists.1 ran with ⟨state, reached⟩
  exact ⟨state, reached, session_bounded ⟨_, reached⟩⟩

end Cppws.Http.HttpParser
