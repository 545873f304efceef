import Cppws.Http.Absorption
import Cppws.Http.Grammar

/-!
# Which parsers can still complete

A parser that waits for more input has not always read the beginning of a
request.  It has, unless there is no room for another header and the headers it
has announce a body over the limit: the blank line is then refused as any other
line is.  Until one comes the parser still waits.
-/

namespace Cppws.Http

open Segments

namespace HttpParser

variable {parser next : HttpParser}

/-- Nothing that follows is a request. -/
structure Doomed (parser : HttpParser) : Prop where
  phase : parser.state = .headers
  full : maxHeaderCount ≤ parser.request.headers.keys.card
  large : parser.maxBodySize < parser.request.contentLength

instance (parser : HttpParser) : Decidable parser.Doomed :=
  decidable_of_iff (parser.state = .headers ∧
      maxHeaderCount ≤ parser.request.headers.keys.card ∧
      parser.maxBodySize < parser.request.contentLength)
    ⟨fun ⟨phase, full, large⟩ => ⟨phase, full, large⟩,
      fun doomed => ⟨doomed.phase, doomed.full, doomed.large⟩⟩

/-! ## A parser that is doomed -/

/-- Every line is refused. -/
theorem Doomed.parseLine (doomed : parser.Doomed) (line : Bytes) :
    ∃ refused, parser.parseLine line = (refused, .error) := by
  rw [parseLine_headers doomed.phase]
  rcases parseHeaderLine_cases parser line with
    ⟨-, none, -⟩ | ⟨-, -, small, -⟩ | ⟨-, room, -⟩ |
    ⟨_, _, -, equal⟩
  · exact absurd doomed.large (by omega)
  · exact absurd doomed.large (Nat.not_lt.2 small)
  · exact absurd doomed.full (Nat.not_le.2 room)
  · exact ⟨_, equal⟩

/-- The next data are refused, unless there are none. -/
theorem Doomed.feed (doomed : parser.Doomed) (progress : parser.Progress)
    {data : Bytes} (nonempty : data ≠ []) :
    (parser.feed data).2 ≠ .incomplete ∧
      (parser.feed data).1.error ≠ [] := by
  have inHead : parser.InHead := Or.inr doomed.phase
  rw [feed_eq_resume inHead progress.noPartial]
  cases cut : segments lf data with
  | nil => exact absurd ((segments_eq_nil_iff lf data).1 cut) nonempty
  | cons first rest =>
      rw [HttpParser.scanHead]
      split_ifs
      · have tooLong : text "header line too long" ≠ [] := by decide
        refine ⟨?_, tooLong⟩
        intro more
        cases more
      · rcases doomed.parseLine (lineOf first) with ⟨refused, parsed⟩
        rw [parsed]
        refine ⟨?_, (parseLine_error inHead parsed).1.reason⟩
        intro more
        cases more

/-- A request never comes of what follows. -/
theorem Doomed.feedChunks (doomed : parser.Doomed) (progress : parser.Progress)
    {more : List Bytes} (fed : parser.feedChunks more = (next, .complete)) :
    ¬ next.WellFormedResult := by
  induction more with
  | nil => cases fed
  | cons data rest ih =>
      simp only [HttpParser.feedChunks] at fed
      by_cases empty : data = []
      · have waits : parser.feed data = (parser, .incomplete) := by
          rw [empty, feed_nil, finish, doomed.phase]
          rfl
        rw [waits] at fed
        exact ih fed
      · rcases doomed.feed progress empty with ⟨final, refused⟩
        rw [if_neg final] at fed
        rw [fed] at refused
        exact fun wellFormed => refused wellFormed.noError

/-! ## A parser that is not -/

/-- A parser that waits for its request line has no headers. -/
def Blank (parser : HttpParser) : Prop :=
  parser.state = .requestLine → parser.request.headers = ∅

theorem blank_of_state (other : parser.state ≠ .requestLine) : parser.Blank :=
  fun first => absurd first other

/-- A request line is read only once. -/
theorem parseLine_ne_requestLine (inHead : parser.InHead) (line : Bytes) :
    (parser.parseLine line).1.state ≠ .requestLine := by
  by_cases final : (parser.parseLine line).2 = .incomplete
  · rcases (parseLine_incomplete inHead (Prod.ext rfl final)).2.2.2 with
      phase | phase
    · simp [phase]
    · simp [phase]
  · simp [parseLine_final final]

theorem Blank.feed (blank : parser.Blank) (data : Bytes) :
    (parser.feed data).1.Blank := by
  apply feed_invariant _ _ _ blank
  · intro parser data blank _
    rcases consumeLine_cases parser data with equal | ⟨_, _, _, equal⟩
    · rw [equal]
      exact blank_of_state State.noConfusion
    · rw [equal]
      exact blank
  · intro parser blank _
    cases phase : parser.state with
    | requestLine =>
        exact blank_of_state (parseLine_ne_requestLine (Or.inl phase) _)
    | headers =>
        exact blank_of_state (parseLine_ne_requestLine (Or.inr phase) _)
    | body | complete =>
        apply blank_of_state
        simp [HttpParser.parseLine, phase]
  · intro parser data blank phase
    apply blank_of_state
    rcases parseBody_cases parser data with ⟨_, equal⟩ | ⟨_, equal⟩
    · simp [equal]
    · simp [equal, phase]

theorem Blank.feedChunks (blank : parser.Blank) {chunks : List Bytes}
    (fed : parser.feedChunks chunks = (next, .incomplete)) : next.Blank := by
  induction chunks generalizing parser with
  | nil =>
      cases fed
      exact blank
  | cons chunk rest ih =>
      simp only [HttpParser.feedChunks] at fed
      split_ifs at fed with more
      · exact ih (blank.feed chunk) fed
      · simp [fed] at more

/-- The blank line and the body behind it. -/
theorem feed_blank (progress : parser.Progress)
    (phase : parser.state = .headers)
    (small : parser.request.contentLength ≤ parser.maxBodySize) {body : Bytes}
    (whole : body.length = parser.request.contentLength) :
    (parser.feed ([lf] ++ body)).2 = .complete ∧
      (parser.feed ([lf] ++ body)).1.error = [] := by
  have isLine : IsLine [lf] [] := ⟨[], List.not_mem_nil, rfl, rfl⟩
  have resumed := resume_blank parser phase (progress.inHead (Or.inr phase))
    isLine (segments lf body)
  rw [flatten_segments, if_pos ⟨whole.ge, small⟩] at resumed
  rw [feed_eq_resume (Or.inr phase) progress.noPartial,
    isLine.segments_append body, resumed]
  exact ⟨rfl, progress.noError⟩

/-- Some data complete the request. -/
def Completable (parser : HttpParser) : Prop :=
  ∃ data, (parser.feed data).2 = .complete ∧ (parser.feed data).1.error = []

/-- A line that is accepted may come first. -/
theorem Completable.of_line {line : Bytes} (inHead : parser.InHead)
    (progress : parser.Progress) (noLf : lf ∉ line)
    (noCr : line.getLast? ≠ some cr)
    (fits : (line ++ lineEnd false).length ≤ maxHeaderSize)
    (parsed : parser.parseLine line = (next, .incomplete))
    (later : next.Completable) : parser.Completable := by
  rcases later with ⟨data, complete, noError⟩
  have fed := WireRequest.feed_lineEnd inHead progress.noPartial noLf noCr
    false fits parsed data
  exact ⟨_, fed ▸ complete, fed ▸ noError⟩

/-- A body that is not too long only has to be sent. -/
theorem completable_of_small (progress : parser.Progress)
    (phase : parser.state = .headers)
    (small : parser.request.contentLength ≤ parser.maxBodySize) :
    parser.Completable := by
  have whole : (List.replicate parser.request.contentLength sp).length =
      parser.request.contentLength := List.length_replicate
  exact ⟨_, feed_blank progress phase small whole⟩

/-- Another length may be announced while there is room. -/
theorem completable_of_room (progress : parser.Progress)
    (phase : parser.state = .headers)
    (room : parser.request.headers.keys.card < maxHeaderCount) :
    parser.Completable := by
  have free : colonByte ∉ text "content-length" := by decide
  have inHead : parser.InHead := Or.inr phase
  have parsed := parseHeaderLine_colon free (text "0") room
  rw [← parseLine_headers phase] at parsed
  apply Completable.of_line inHead progress _ _ _ parsed
  · rcases progress.parseLine_incomplete inHead parsed with ⟨kept, _⟩
    apply completable_of_small kept phase
    have nothing : (fromChars (trim (text "0"))).getD 0 = 0 := by decide
    simp [HttpRequest.contentLength, HttpRequest.header, nothing]
  · decide
  · decide
  · decide

/-- Any request line will do. -/
theorem completable_of_first (progress : parser.Progress)
    (blank : parser.Blank) (phase : parser.state = .requestLine) :
    parser.Completable := by
  have inHead : parser.InHead := Or.inl phase
  have known : Method.GET ≠ .UNKNOWN := by decide
  have free : sp ∉ text "/" := by decide
  have parsed := parseRequestLine_requestLine known free
    (Or.inl (Eq.refl (text "HTTP/1.1"))) (by decide) parser
  rw [← parseLine_requestLine phase] at parsed
  apply Completable.of_line inHead progress _ _ _ parsed
  · rcases progress.parseLine_incomplete inHead parsed with ⟨kept, _⟩
    apply completable_of_small kept rfl
    simp [HttpRequest.contentLength, HttpRequest.header, blank phase]
  · decide
  · decide
  · decide

/-- The rest of a body. -/
theorem completable_of_body (progress : parser.Progress)
    (phase : parser.state = .body) : parser.Completable := by
  rcases progress.inBody phase with ⟨positive, -, -⟩
  have nonempty : List.replicate parser.bodyRemaining sp ≠ [] := by
    simpa using positive.ne'
  refine ⟨List.replicate parser.bodyRemaining sp, ?_⟩
  rw [feed_body phase nonempty]
  rcases parseBody_cases parser (List.replicate parser.bodyRemaining sp) with
    ⟨_, equal⟩ | ⟨short, _⟩
  · rw [equal]
    exact ⟨rfl, progress.noError⟩
  · simp at short

theorem completable_of_not_doomed (progress : parser.Progress)
    (blank : parser.Blank) (saved : ¬ parser.Doomed) : parser.Completable := by
  rcases progress.inHead_or_body with (phase | phase) | phase
  · exact completable_of_first progress blank phase
  · by_cases small : parser.request.contentLength ≤ parser.maxBodySize
    · exact completable_of_small progress phase small
    · apply completable_of_room progress phase
      by_contra full
      exact saved ⟨phase, Nat.not_lt.1 full, Nat.not_le.1 small⟩
  · exact completable_of_body progress phase

/-- Only an over-long line is reported as a request that is none. -/
theorem Progress.wellFormed (progress : parser.Progress) {data : Bytes}
    (complete : (parser.feed data).2 = .complete)
    (noError : (parser.feed data).1.error = []) :
    (parser.feed data).1.WellFormedResult := by
  have short : ¬ parser.ReachesOverlong data := by
    intro long
    rw [(progress.feed_overlong long).2] at noError
    exact absurd noError (by decide)
  rcases progress.feed short with
    ⟨more, _⟩ | ⟨_, wellFormed⟩ | ⟨refused, _⟩
  · rw [complete] at more
    cases more
  · exact wellFormed
  · rw [complete] at refused
    cases refused

/--
Whatever a parser has been fed, in whichever pieces, as long as it waits for
more it can be brought to a well-formed request, unless it is doomed.
-/
theorem completable_iff (maxBodySize : Nat) (chunks : List Bytes)
    (parser : HttpParser)
    (fed : (fresh maxBodySize).feedChunks chunks = (parser, .incomplete)) :
    (∃ more next, parser.feedChunks more = (next, .complete) ∧
        next.WellFormedResult) ↔
      ¬ parser.Doomed := by
  have progress := (progress_fresh maxBodySize).feedChunks fed
  constructor
  · rintro ⟨more, next, finished, wellFormed⟩ doomed
    exact doomed.feedChunks progress finished wellFormed
  · intro saved
    have begun : (fresh maxBodySize).Blank := fun _ => rfl
    have blank := begun.feedChunks fed
    rcases completable_of_not_doomed progress blank saved with
      ⟨data, complete, noError⟩
    refine ⟨[data], (parser.feed data).1, ?_,
      progress.wellFormed complete noError⟩
    rw [HttpParser.feedChunks, complete]
    exact Prod.ext rfl complete

/-- A hundred headers, one of which announces five bytes too many. -/
example :
    let names := (List.range 99).map fun number => [UInt8.ofNat (128 + number)]
    let head := text "POST / HTTP/1.1\nContent-Length:5\n" ++
      names.flatMap fun name => name ++ text ":\n"
    ((fresh 0).feed head).2 = .incomplete ∧
      ((fresh 0).feed head).1.Doomed := by
  decide +kernel

/-- A body that is announced too long, with room for another header. -/
theorem completable_iff_large :
    let head := text "POST / HTTP/1.1\nContent-Length: 99999999999\n"
    let parser := ((fresh defaultMaxBodySize).feedChunks [head]).1
    ∃ more next, parser.feedChunks more = (next, .complete) ∧
      next.WellFormedResult := by
  intro head parser
  have room : ¬ maxHeaderCount ≤
      parser.request.headers.keys.card := by decide
  exact (completable_iff defaultMaxBodySize [head] parser (by decide)).2
    fun doomed => room doomed.full

end HttpParser

end Cppws.Http
