import Cppws.Http.HeadScan

/-!
# What holds of a parser between two calls of `feed`

`Progress` is the invariant of a parser all of whose `feed` calls have
returned `Incomplete`: it has buffered no partial line, no error is recorded,
and what has been parsed so far is well formed for the state it is in.
`WellFormedResult` is what `result()` promises after `Complete`.  A scan from a
parser with `Progress` ends in one of the ways listed in `HeadScan.Sound`.
-/

namespace Cppws.Http.HttpParser

open Segments

/-- The request line has been accepted. -/
def LineAccepted (request : HttpRequest) : Prop :=
  request.method ≠ .UNKNOWN ∧
    (request.version = text "HTTP/1.1" ∨ request.version = text "HTTP/1.0")

/-- What a caller may rely on when `feed` has returned `Complete`. -/
structure WellFormedResult (parser : HttpParser) : Prop where
  noError : parser.error = []
  accepted : LineAccepted parser.request
  framed : parser.request.body.length = parser.request.contentLength

/-- The invariant of a parser whose calls all returned `Incomplete`. -/
structure Progress (parser : HttpParser) : Prop where
  noPartial : parser.lineBuf = []
  noError : parser.error = []
  unfinished : parser.state ≠ .complete
  inHead : parser.InHead → parser.request.body = []
  accepted : parser.state ≠ .requestLine → LineAccepted parser.request
  inBody : parser.state = .body →
    0 < parser.bodyRemaining ∧
      parser.request.body.length + parser.bodyRemaining =
        parser.request.contentLength ∧
      parser.request.contentLength ≤ parser.maxBodySize

theorem progress_fresh (maxBodySize : Nat) :
    (fresh maxBodySize).Progress where
  noPartial := rfl
  noError := rfl
  unfinished := nofun
  inHead _ := rfl
  accepted notFirst := absurd rfl notFirst
  inBody := nofun

/-- A parser refused by a line parser. -/
structure Refused (parser : HttpParser) : Prop where
  halted : parser.state = .complete
  reason : parser.error ≠ []

/-! ## One line -/

theorem Progress.parseLine_incomplete {parser next : HttpParser}
    {line : Bytes} (progress : parser.Progress) (inHead : parser.InHead)
    (parsed : parser.parseLine line = (next, .incomplete)) :
    next.Progress ∧ next.maxBodySize = parser.maxBodySize ∧
      next.state ≠ .requestLine := by
  have empty := progress.inHead inHead
  rcases inHead with phase | phase
  · rw [parseLine_requestLine phase] at parsed
    rcases parseRequestLine_cases parser line with
      ⟨method, path, version, known, supported, equal⟩ |
      ⟨_, _, _, equal⟩
    · rw [equal, Prod.mk.injEq] at parsed
      rcases parsed with ⟨rfl, -⟩
      refine ⟨?_, rfl, nofun⟩
      exact {
        noPartial := progress.noPartial
        noError := progress.noError
        unfinished := nofun
        inHead := fun _ => empty
        accepted := fun _ => ⟨known, supported⟩
        inBody := nofun }
    · simp [equal] at parsed
  · rw [parseLine_headers phase] at parsed
    have accepted := progress.accepted (by simp [phase])
    rcases parseHeaderLine_cases parser line with
      ⟨_, _, equal⟩ | ⟨_, positive, small, equal⟩ |
        ⟨_, _, colon, _, equal⟩ | ⟨_, _, _, equal⟩
    · simp [equal] at parsed
    · rw [equal, Prod.mk.injEq] at parsed
      rcases parsed with ⟨rfl, -⟩
      refine ⟨?_, rfl, nofun⟩
      exact {
        noPartial := progress.noPartial
        noError := progress.noError
        unfinished := nofun
        inHead := fun _ => empty
        accepted := fun _ => accepted
        inBody := fun _ => ⟨positive, by simp [empty], small⟩ }
    · rw [equal, Prod.mk.injEq] at parsed
      rcases parsed with ⟨rfl, -⟩
      refine ⟨?_, rfl, by simp [phase]⟩
      exact {
        noPartial := progress.noPartial
        noError := progress.noError
        unfinished := progress.unfinished
        inHead := fun _ => empty
        accepted := fun _ => accepted
        inBody := fun body => by simp [phase] at body }
    · simp [equal] at parsed

theorem Progress.parseLine_complete {parser next : HttpParser}
    {line : Bytes} (progress : parser.Progress) (inHead : parser.InHead)
    (parsed : parser.parseLine line = (next, .complete)) :
    next.WellFormedResult ∧ next.state = .complete := by
  have empty := progress.inHead inHead
  rcases inHead with phase | phase
  · rw [parseLine_requestLine phase] at parsed
    rcases parseRequestLine_cases parser line with
      ⟨_, _, _, _, _, equal⟩ |
      ⟨_, _, _, equal⟩ <;> simp [equal] at parsed
  · rw [parseLine_headers phase] at parsed
    rcases parseHeaderLine_cases parser line with
      ⟨_, noBody, equal⟩ | ⟨_, _, _, equal⟩ |
        ⟨_, _, colon, _, equal⟩ | ⟨_, _, _, equal⟩
    · rw [equal, Prod.mk.injEq] at parsed
      rcases parsed with ⟨rfl, -⟩
      refine ⟨?_, rfl⟩
      exact {
        noError := progress.noError
        accepted := progress.accepted (by simp [phase])
        framed := by simp [empty, noBody] }
    · simp [equal] at parsed
    · simp [equal] at parsed
    · simp [equal] at parsed

theorem headerErrors_ne_nil {msg : Bytes} (member : msg ∈ headerErrors) :
    msg ≠ [] := by
  rintro rfl
  exact absurd member (by decide)

theorem parseLine_error {parser next : HttpParser} {line : Bytes}
    (inHead : parser.InHead)
    (parsed : parser.parseLine line = (next, .error)) :
    next.Refused ∧
      (parser.state = .headers → next.error ∈ headerErrors) := by
  rcases inHead with phase | phase
  · rw [parseLine_requestLine phase] at parsed
    rcases parseRequestLine_cases parser line with
      ⟨_, _, _, _, _, equal⟩ | ⟨_, msg, reason, equal⟩
    · simp [equal] at parsed
    · rw [equal, Prod.mk.injEq] at parsed
      rcases parsed with ⟨rfl, -⟩
      exact ⟨⟨rfl, reason.1⟩, by simp [phase]⟩
  · rw [parseLine_headers phase] at parsed
    rcases parseHeaderLine_cases parser line with
      ⟨_, _, equal⟩ | ⟨_, _, _, equal⟩ |
        ⟨_, _, colon, _, equal⟩ | ⟨_, msg, listed, equal⟩
    · simp [equal] at parsed
    · simp [equal] at parsed
    · simp [equal] at parsed
    · rw [equal, Prod.mk.injEq] at parsed
      rcases parsed with ⟨rfl, -⟩
      exact ⟨⟨rfl, headerErrors_ne_nil listed⟩, fun _ => listed⟩

/-! ## A whole scan -/

/-- What a scan from a parser with `Progress` can end in. -/
def HeadScan.Sound : HeadScan → Prop
  | .unfinished parser => parser.Progress ∧ parser.InHead
  | .body parser _ => parser.Progress ∧ parser.state = .body
  | .returned parser .complete =>
      parser.WellFormedResult ∧ parser.state = .complete
  | .returned parser .error => parser.Refused
  | .returned _ .incomplete => False
  | .overlong parser => parser.Progress ∧ parser.InHead

theorem Progress.scanHead {parser : HttpParser}
    (progress : parser.Progress) (inHead : parser.InHead)
    (pieces : List Bytes) :
    (parser.scanHead pieces).Sound := by
  induction pieces generalizing parser with
  | nil => exact ⟨progress, inHead⟩
  | cons segment rest ih =>
      simp only [HttpParser.scanHead]
      by_cases long : segment.length > maxHeaderSize
      · simp only [if_pos long]
        exact ⟨progress, inHead⟩
      · simp only [if_neg long]
        rcases parsed : parser.parseLine (lineOf segment) with
          ⟨next, result⟩
        cases result
        case incomplete =>
          have kept := (progress.parseLine_incomplete inHead parsed).1
          rcases (HttpParser.parseLine_incomplete inHead parsed).2.2.2 with
            phase | phase
          · simp only [if_pos phase]
            exact ⟨kept, phase⟩
          · have notBody : next.state ≠ .body := by simp [phase]
            simp only [if_neg notBody]
            exact ih kept (Or.inr phase)
        case complete => exact progress.parseLine_complete inHead parsed
        case error => exact (parseLine_error inHead parsed).1

/-- Past the request line a refusal names a header-line error. -/
theorem scanHead_headers_error {parser next : HttpParser}
    {pieces : List Bytes} (phase : parser.state = .headers)
    (scanned : parser.scanHead pieces = .returned next .error) :
    next.error ∈ headerErrors := by
  induction pieces generalizing parser with
  | nil => simp [HttpParser.scanHead] at scanned
  | cons segment rest ih =>
      simp only [HttpParser.scanHead] at scanned
      split_ifs at scanned
      rcases parsed : parser.parseLine (lineOf segment) with ⟨after, result⟩
      simp only [parsed] at scanned
      cases result
      case incomplete =>
        rcases (parseLine_incomplete (Or.inr phase) parsed).2.2.2 with
          body | stays
        · simp [body] at scanned
        · simp only [stays, reduceCtorEq, if_false] at scanned
          exact ih stays scanned
      case complete => simp at scanned
      case error =>
        simp only [HeadScan.returned.injEq, and_true] at scanned
        subst scanned
        exact (parseLine_error (Or.inr phase) parsed).2 phase

/-! ## The body -/

/-- The two outcomes of reading body bytes. -/
theorem parseBody_cases (parser : HttpParser) (data : Bytes) :
    (parser.bodyRemaining ≤ data.length ∧
        parser.parseBody data =
          ({ parser with
              state := .complete
              request :=
                { parser.request with
                  body := parser.request.body ++
                    data.take parser.bodyRemaining }
              bodyRemaining := 0 }, .complete)) ∨
      (data.length < parser.bodyRemaining ∧
        parser.parseBody data =
          ({ parser with
              request :=
                { parser.request with body := parser.request.body ++ data }
              bodyRemaining := parser.bodyRemaining - data.length },
            .incomplete)) := by
  rcases Nat.lt_or_ge data.length parser.bodyRemaining with short | enough
  · refine Or.inr ⟨short, ?_⟩
    have left : parser.bodyRemaining - data.length ≠ 0 := by omega
    simp [parseBody, Nat.min_eq_left short.le, left]
  · refine Or.inl ⟨enough, ?_⟩
    simp [parseBody, Nat.min_eq_right enough]

theorem Progress.feed_body {parser : HttpParser}
    (progress : parser.Progress) (phase : parser.state = .body)
    (data : Bytes) :
    ((parser.feed data).2 = .incomplete ∧ (parser.feed data).1.Progress) ∨
      ((parser.feed data).2 = .complete ∧
        (parser.feed data).1.WellFormedResult) := by
  have accepted := progress.accepted (by simp [phase])
  rcases progress.inBody phase with ⟨positive, framed, small⟩
  by_cases empty : data = []
  · subst empty
    refine Or.inl ⟨?_, progress⟩
    simp [finish, phase]
  · rw [HttpParser.feed_body phase empty]
    rcases parseBody_cases parser data with
      ⟨enough, equal⟩ | ⟨short, equal⟩
    · rw [equal]
      refine Or.inr ⟨rfl, ?_⟩
      exact {
        noError := progress.noError
        accepted := accepted
        framed := by
          show (parser.request.body ++
              data.take parser.bodyRemaining).length =
            parser.request.contentLength
          rw [← framed, List.length_append, List.length_take,
            Nat.min_eq_left enough] }
    · rw [equal]
      refine Or.inl ⟨rfl, ?_⟩
      exact {
        noPartial := progress.noPartial
        noError := progress.noError
        unfinished := progress.unfinished
        inHead := fun inHead => by
          rcases inHead with other | other <;> simp [phase] at other
        accepted := fun _ => accepted
        inBody := fun _ => by
          show 0 < parser.bodyRemaining - data.length ∧
            (parser.request.body ++ data).length +
                (parser.bodyRemaining - data.length) =
              parser.request.contentLength ∧
            parser.request.contentLength ≤ parser.maxBodySize
          rw [List.length_append]
          omega }

/-! ## Completion -/

theorem Progress.inHead_or_body {parser : HttpParser}
    (progress : parser.Progress) :
    parser.InHead ∨ parser.state = .body := by
  have unfinished := progress.unfinished
  unfold InHead
  cases phase : parser.state <;> simp_all

/--
A line of the input longer than `MAX_HEADER_SIZE` is reached while the parser
is still reading lines.
-/
def ReachesOverlong (parser : HttpParser) (data : Bytes) : Prop :=
  parser.InHead ∧
    ∃ next, parser.scanHead (segments lf data) = .overlong next

/-- What `feed` returns when no over-long line is reached. -/
theorem Progress.feed {parser : HttpParser} (progress : parser.Progress)
    {data : Bytes} (short : ¬ parser.ReachesOverlong data) :
    ((parser.feed data).2 = .incomplete ∧ (parser.feed data).1.Progress) ∨
      ((parser.feed data).2 = .complete ∧
        (parser.feed data).1.WellFormedResult) ∨
      ((parser.feed data).2 = .error ∧ (parser.feed data).1.Refused) := by
  rcases progress.inHead_or_body with inHead | phase
  · have sound := progress.scanHead inHead (segments lf data)
    rw [feed_eq_resume inHead progress.noPartial]
    cases scanned : parser.scanHead (segments lf data) with
    | unfinished next =>
        rw [scanned] at sound
        exact Or.inl ⟨rfl, sound.1⟩
    | body next rest =>
        rw [scanned] at sound
        rcases sound.1.feed_body sound.2 rest with more | done
        · exact Or.inl more
        · exact Or.inr (Or.inl done)
    | returned next result =>
        rw [scanned] at sound
        cases result
        case incomplete => exact sound.elim
        case complete => exact Or.inr (Or.inl ⟨rfl, sound.1⟩)
        case error => exact Or.inr (Or.inr ⟨rfl, sound⟩)
    | overlong next => exact absurd ⟨inHead, next, scanned⟩ short
  · rcases progress.feed_body phase data with more | done
    · exact Or.inl more
    · exact Or.inr (Or.inl done)

/-- An over-long line is answered with `Complete`. -/
theorem Progress.feed_overlong {parser : HttpParser}
    (progress : parser.Progress) {data : Bytes}
    (long : parser.ReachesOverlong data) :
    (parser.feed data).2 = .complete ∧
      (parser.feed data).1.error = text "header line too long" := by
  rcases long with ⟨inHead, next, scanned⟩
  rw [feed_eq_resume inHead progress.noPartial, scanned]
  exact ⟨rfl, rfl⟩

/-- Feed chunks in order, up to the first result other than `Incomplete`. -/
def feedChunks (parser : HttpParser) : List Bytes → HttpParser × Result
  | [] => (parser, .incomplete)
  | chunk :: rest =>
      let fed := parser.feed chunk
      if fed.2 = .incomplete then
        fed.1.feedChunks rest
      else
        fed

/-- A parser all of whose calls returned `Incomplete` has `Progress`. -/
theorem Progress.feedChunks {parser next : HttpParser}
    (progress : parser.Progress) {chunks : List Bytes}
    (fed : parser.feedChunks chunks = (next, .incomplete)) :
    next.Progress := by
  induction chunks generalizing parser with
  | nil =>
      rw [HttpParser.feedChunks, Prod.mk.injEq] at fed
      exact fed.1 ▸ progress
  | cons chunk rest ih =>
      simp only [HttpParser.feedChunks] at fed
      split_ifs at fed with more
      · have short : ¬ parser.ReachesOverlong chunk := by
          intro long
          simp [(progress.feed_overlong long).1] at more
        rcases progress.feed short with
          ⟨_, kept⟩ | ⟨done, _⟩ | ⟨done, _⟩
        · exact ih kept fed
        · simp [done] at more
        · simp [done] at more
      · simp [fed] at more

/--
Over every sequence of chunks all of whose calls returned `Incomplete`, the
next call reports `Complete` only for a well-formed request and every recorded
error as `Error`, exactly when it reaches no over-long line.
-/
theorem complete_wellFormed_iff (maxBodySize : Nat) (chunks : List Bytes)
    (parser : HttpParser)
    (fed : (fresh maxBodySize).feedChunks chunks = (parser, .incomplete))
    (data : Bytes) :
    (((parser.feed data).2 = .complete →
          (parser.feed data).1.WellFormedResult) ∧
        ((parser.feed data).1.error ≠ [] →
          (parser.feed data).2 = .error)) ↔
      ¬ parser.ReachesOverlong data := by
  have progress := (progress_fresh maxBodySize).feedChunks fed
  constructor
  · intro ⟨wellFormed, _⟩ long
    rcases progress.feed_overlong long with ⟨complete, recorded⟩
    have noError := (wellFormed complete).noError
    rw [recorded] at noError
    exact absurd noError (by decide)
  · intro short
    rcases progress.feed short with
      ⟨result, kept⟩ | ⟨result, wellFormed⟩ | ⟨result, refused⟩
    · simp [result, kept.noError]
    · simp [result, wellFormed, wellFormed.noError]
    · simp [result]

/-- A body that arrives after the head of its request. -/
theorem complete_wellFormed_iff_post :
    let head := text "POST / HTTP/1.1\r\nContent-Length: 2\r\n\r\n"
    let parser := ((fresh defaultMaxBodySize).feedChunks [head]).1
    (parser.feed (text "ok")).2 = .complete →
      (parser.feed (text "ok")).1.WellFormedResult := by
  intro head parser
  have notHead : ¬ parser.InHead := by
    unfold InHead
    decide
  exact
    ((complete_wellFormed_iff defaultMaxBodySize [head] parser
      (by decide) (text "ok")).2 fun long => notHead long.1).1

/-- More than `MAX_HEADER_SIZE` bytes of one line are reported `Complete`. -/
theorem complete_wellFormed_overlong :
    let data := List.replicate (maxHeaderSize + 1) sp
    ((fresh defaultMaxBodySize).feed data).2 = .complete ∧
      ¬ ((fresh defaultMaxBodySize).feed data).1.WellFormedResult := by
  intro data
  have inHead : (fresh defaultMaxBodySize).InHead := Or.inl rfl
  have oneLine : segments lf data = [data] :=
    segments_of_not_mem (by simp [data, lf, sp]) (by simp [data])
  have long : (fresh defaultMaxBodySize).ReachesOverlong data := by
    refine ⟨inHead, fresh defaultMaxBodySize, ?_⟩
    rw [oneLine, HttpParser.scanHead, if_pos (by simp [data])]
  rcases (progress_fresh defaultMaxBodySize).feed_overlong long with
    ⟨complete, recorded⟩
  refine ⟨complete, fun wellFormed => ?_⟩
  have noError := wellFormed.noError
  rw [recorded] at noError
  exact absurd noError (by decide)

end Cppws.Http.HttpParser
