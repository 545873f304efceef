import Cppws.Http.Grammar

/-!
# CRLF and bare LF

The same lines, each ended in one of two ways.  `consume_line` measures a line
with its ending, before it strips it, so that a line of one byte less than
`MAX_HEADER_SIZE` is read if it ends with LF and is too long if it ends with
CRLF.  From there on the two runs are different ones.
-/

namespace Cppws.Http

open Segments
open HttpParser

/-! ## Lines with two endings -/

/-- The text of a line. -/
structure TextLine where
  content : Bytes
  noLf : lf ∉ content
  noCr : content.getLast? ≠ some cr

namespace TextLine

/-- The line with which a head ends. -/
def blank : TextLine where
  content := []
  noLf := List.not_mem_nil
  noCr := by decide

def ended (line : TextLine) (withCr : Bool) : Bytes :=
  line.content ++ lineEnd withCr

/-- The line is within `MAX_HEADER_SIZE` if it is ended so. -/
def Fits (line : TextLine) (withCr : Bool) : Prop :=
  (line.ended withCr).length ≤ maxHeaderSize

instance (line : TextLine) (withCr : Bool) : Decidable (line.Fits withCr) :=
  inferInstanceAs (Decidable (_ ≤ _))

end TextLine

/-- A line with its endings in the first and the second input. -/
structure EndedLine where
  line : TextLine
  first : Bool
  second : Bool

/-- The lines of one of the inputs, and what follows them. -/
def stream (side : EndedLine → Bool) (choices : List EndedLine)
    (body : Bytes) : Bytes :=
  (choices.flatMap fun choice => choice.line.ended (side choice)) ++ body

/-- The same result and, when it is `Complete`, the same request. -/
def SameRequest (first second : HttpParser × Result) : Prop :=
  first.2 = second.2 ∧
    (first.2 = .complete → first.1.request = second.1.request)

theorem SameRequest.refl (run : HttpParser × Result) : SameRequest run run :=
  ⟨rfl, fun _ => rfl⟩

theorem SameRequest.comm {first second : HttpParser × Result} :
    SameRequest first second ↔ SameRequest second first := by
  constructor
  · rintro ⟨result, request⟩
    exact ⟨result.symm, fun done => (request (result.trans done)).symm⟩
  · rintro ⟨result, request⟩
    exact ⟨result.symm, fun done => (request (result.trans done)).symm⟩

/-! ## When the two inputs are read alike -/

/-- The headers after a header line, unless it is refused. -/
def storeHeader (headers : HeaderMap) (line : Bytes) : Option HeaderMap :=
  if headers.keys.card ≥ maxHeaderCount then
    none
  else
    (find line colonByte 0).map fun colon =>
      headers.insert (toLower (line.take colon)) (trim (line.drop (colon + 1)))

/-- The length of the body that the headers announce. -/
def announced (headers : HeaderMap) : Nat :=
  ({ headers } : HttpRequest).contentLength

/-- So many bytes are there in both inputs or in neither, and are the same. -/
def SameBody (length : Nat) (first second : Bytes) : Prop :=
  (length ≤ first.length ↔ length ≤ second.length) ∧
    (length ≤ first.length → first.take length = second.take length)

/--
The lines up to the end of the head, or up to one that is too long, put the
headers back to what they are to be, and there is no body.
-/
def Restores (side : EndedLine → Bool) (target : HeaderMap) :
    HeaderMap → List EndedLine → Prop
  | _, [] => False
  | headers, choice :: rest =>
      if choice.line.Fits (side choice) then
        if choice.line.content = [] then
          headers = target ∧ announced headers = 0
        else
          ∃ stored ∈ storeHeader headers choice.line.content,
            Restores side target stored rest
      else
        headers = target

/--
The header lines that are read are too long in both inputs or in neither, or
where they differ the rest of the head restores the headers.  An empty header
line ends the head, and what follows it then agrees as far as it is the body.
-/
def HeadersAlike (maxBodySize : Nat) (body : Bytes) :
    HeaderMap → List EndedLine → Prop
  | _, [] => True
  | headers, choice :: rest =>
      if choice.line.Fits choice.first ∧ choice.line.Fits choice.second then
        if choice.line.content = [] then
          announced headers ≤ maxBodySize →
            SameBody (announced headers) (stream EndedLine.first rest body)
              (stream EndedLine.second rest body)
        else
          ∀ stored ∈ storeHeader headers choice.line.content,
            HeadersAlike maxBodySize body stored rest
      else if choice.line.Fits choice.first then
        Restores EndedLine.first headers headers (choice :: rest)
      else if choice.line.Fits choice.second then
        Restores EndedLine.second headers headers (choice :: rest)
      else
        True

/-! ## One line of a stream -/

theorem segments_stream (side : EndedLine → Bool) (choice : EndedLine)
    (rest : List EndedLine) (body : Bytes) :
    segments lf (stream side (choice :: rest) body) =
      choice.line.ended (side choice) ::
        segments lf (stream side rest body) := by
  rw [stream, List.flatMap_cons, List.append_assoc]
  exact segments_lineEnd choice.line.noLf _ _

/-- `feed` parses the first line, and what follows it unless it has ended. -/
theorem feed_stream {parser : HttpParser} (inHead : parser.InHead)
    (noPartial : parser.lineBuf = []) (side : EndedLine → Bool)
    (choice : EndedLine)
    (rest : List EndedLine) (body : Bytes) :
    parser.feed (stream side (choice :: rest) body) =
      if choice.line.Fits (side choice) then
        match parser.parseLine choice.line.content with
        | (next, .incomplete) => next.feed (stream side rest body)
        | (next, result) => (next, result)
      else
        (parser.setError (text "header line too long"), .complete) := by
  have content : lineOf (choice.line.ended (side choice)) =
      choice.line.content := lineOf_lineEnd choice.line.noCr _
  rw [feed_eq_resume inHead noPartial, segments_stream, scanHead, content]
  by_cases fits : choice.line.Fits (side choice)
  · rw [if_neg (Nat.not_lt.2 fits), if_pos fits]
    rcases parsed : parser.parseLine choice.line.content with ⟨next, result⟩
    have buffer := parseLine_lineBuf inHead parsed
    cases result with
    | incomplete =>
        dsimp only
        by_cases inBody : next.state = .body
        · rw [if_pos inBody, flatten_segments]
          rfl
        · rw [if_neg inBody, feed_eq_resume _ (buffer.trans noPartial)]
          exact Or.inr
            ((parseLine_incomplete inHead parsed).2.2.2.resolve_left inBody)
    | complete => rfl
    | error => rfl
  · rw [if_pos (Nat.not_le.1 fits), if_neg fits]
    rfl

/-- A line that is too long halts the parser with the request it has. -/
theorem feed_tooLong {parser : HttpParser} (inHead : parser.InHead)
    (noPartial : parser.lineBuf = []) {side : EndedLine → Bool}
    {choice : EndedLine}
    (tooLong : ¬ choice.line.Fits (side choice)) (rest : List EndedLine)
    (body : Bytes) :
    parser.feed (stream side (choice :: rest) body) =
      (parser.setError (text "header line too long"), .complete) := by
  rw [feed_stream inHead noPartial, if_neg tooLong]

/-- The parser with some headers. -/
def HttpParser.storing (parser : HttpParser) (headers : HeaderMap) :
    HttpParser :=
  { parser with request := { parser.request with headers } }

section

variable {parser : HttpParser} (phase : parser.state = .headers)
  (noPartial : parser.lineBuf = []) {side : EndedLine → Bool}
  {choice : EndedLine} (fits : choice.line.Fits (side choice))
  (rest : List EndedLine) (body : Bytes)
include phase noPartial fits

theorem feed_stored {stored : HeaderMap} (header : choice.line.content ≠ [])
    (stores : storeHeader parser.request.headers choice.line.content =
      some stored) :
    parser.feed (stream side (choice :: rest) body) =
      (parser.storing stored).feed (stream side rest body) := by
  have parsed : parser.parseLine choice.line.content =
      (parser.storing stored, .incomplete) := by
    rw [storeHeader] at stores
    split_ifs at stores with many
    rcases Option.map_eq_some_iff.1 stores with ⟨colon, found, rfl⟩
    rw [parseLine_headers phase]
    simp only [parseHeaderLine, if_neg header, if_neg many, found]
    rfl
  rw [feed_stream (Or.inr phase) noPartial, if_pos fits, parsed]

theorem feed_refused (header : choice.line.content ≠ [])
    (refuses : storeHeader parser.request.headers choice.line.content = none) :
    (parser.feed (stream side (choice :: rest) body)).2 = .error := by
  have parsed : (parser.parseLine choice.line.content).2 = .error := by
    rw [storeHeader] at refuses
    rw [parseLine_headers phase]
    split_ifs at refuses with many
    · simp only [parseHeaderLine, if_neg header, if_pos many]
    · rw [Option.map_eq_none_iff] at refuses
      simp only [parseHeaderLine, if_neg header, if_neg many, refuses]
  rw [feed_stream (Or.inr phase) noPartial, if_pos fits]
  rcases whole : parser.parseLine choice.line.content with ⟨next, result⟩
  rw [whole] at parsed
  dsimp only at parsed
  rw [parsed]

end

/-- Reading a body from its beginning. -/
theorem feed_announced {parser : HttpParser} (phase : parser.state = .body)
    (noBody : parser.request.body = []) (positive : 0 < parser.bodyRemaining)
    (data : Bytes) :
    (parser.bodyRemaining ≤ data.length ∧
      (parser.feed data).2 = .complete ∧
        (parser.feed data).1.request =
          { parser.request with body := data.take parser.bodyRemaining }) ∨
      (data.length < parser.bodyRemaining ∧
        (parser.feed data).2 = .incomplete) := by
  by_cases empty : data = []
  · subst empty
    refine Or.inr ⟨positive, ?_⟩
    simp [finish, phase]
  · rw [feed_body phase empty]
    rcases parseBody_cases parser data with
      ⟨enough, parsed⟩ | ⟨short, parsed⟩
    · rw [parsed]
      refine Or.inl ⟨enough, rfl, ?_⟩
      rw [noBody, List.nil_append]
    · rw [parsed]
      exact Or.inr ⟨short, rfl⟩

theorem TextLine.fits_of_blank {line : TextLine} (blank : line.content = [])
    (withCr : Bool) : line.Fits withCr := by
  rw [TextLine.Fits, TextLine.ended, blank, List.nil_append]
  cases withCr <;> decide

/-- Reading the line that ends the head. -/
theorem feed_blank {parser : HttpParser} (phase : parser.state = .headers)
    (noPartial : parser.lineBuf = []) (noBody : parser.request.body = [])
    (side : EndedLine → Bool) {choice : EndedLine}
    (blank : choice.line.content = []) (rest : List EndedLine) (body : Bytes) :
    let length := announced parser.request.headers
    let run := parser.feed (stream side (choice :: rest) body)
    (parser.maxBodySize < length ∧ run.2 = .error) ∨
      (length ≤ parser.maxBodySize ∧
        length ≤ (stream side rest body).length ∧ run.2 = .complete ∧
          run.1.request =
            { parser.request with
              body := (stream side rest body).take length }) ∨
      (length ≤ parser.maxBodySize ∧
        (stream side rest body).length < length ∧ run.2 = .incomplete) := by
  intro length run
  have fits := TextLine.fits_of_blank blank (side choice)
  have ran : run = parser.feed (stream side (choice :: rest) body) := rfl
  rw [feed_stream (Or.inr phase) noPartial, if_pos fits, blank,
    parseLine_headers phase] at ran
  simp only [parseHeaderLine, if_true] at ran
  have same : parser.request.contentLength = length := rfl
  rw [same] at ran
  by_cases positive : length > 0
  · rw [if_pos positive] at ran
    by_cases large : length > parser.maxBodySize
    · rw [if_pos large] at ran
      exact Or.inl ⟨large, by rw [ran]⟩
    · rw [if_neg large] at ran
      have small := Nat.not_lt.1 large
      dsimp only at ran
      have reading := @feed_announced
        { parser with state := .body, bodyRemaining := length } rfl noBody
        positive (stream side rest body)
      rcases reading with
        ⟨enough, complete, request⟩ | ⟨short, incomplete⟩
      · exact Or.inr (Or.inl
          ⟨small, enough, ran ▸ complete, ran ▸ request⟩)
      · exact Or.inr (Or.inr ⟨small, short, ran ▸ incomplete⟩)
  · have none : length = 0 := Nat.eq_zero_of_not_pos positive
    rw [if_neg positive] at ran
    refine Or.inr (Or.inl
      ⟨none ▸ Nat.zero_le _, none ▸ Nat.zero_le _, ?_⟩)
    rw [ran, none, List.take_zero, ← noBody]
    exact ⟨rfl, rfl⟩

theorem exists_blank_tail {choice : EndedLine} {rest : List EndedLine}
    (ends : ∃ last ∈ choice :: rest, last.line.content = [])
    (header : choice.line.content ≠ []) :
    ∃ last ∈ rest, last.line.content = [] := by
  rcases ends with ⟨last, member, blank⟩
  rcases List.mem_cons.1 member with rfl | later
  · exact absurd blank header
  · exact ⟨last, later, blank⟩

theorem request_eq_iff {request target : HttpRequest}
    (others : request = { target with headers := request.headers }) :
    request = target ↔ request.headers = target.headers := by
  constructor
  · rintro rfl
    rfl
  · intro same
    rw [others, same]

/-- A blank line completes the request as it is if there is no body. -/
theorem feed_blank_eq_iff {parser : HttpParser}
    (phase : parser.state = .headers) (noPartial : parser.lineBuf = [])
    {target : HttpRequest}
    (others : parser.request =
      { target with headers := parser.request.headers })
    (noBody : target.body = []) (side : EndedLine → Bool) {choice : EndedLine}
    (blank : choice.line.content = []) (rest : List EndedLine) (body : Bytes) :
    (parser.feed (stream side (choice :: rest) body)).2 = .complete ∧
        (parser.feed (stream side (choice :: rest) body)).1.request =
          target ↔
      parser.request.headers = target.headers ∧
        announced parser.request.headers = 0 := by
  have noBody' : parser.request.body = [] := by rw [others, noBody]
  rcases feed_blank phase noPartial noBody' side blank rest body with
    ⟨large, error⟩ | ⟨-, enough, complete, request⟩ |
      ⟨-, short, incomplete⟩
  · rw [error]
    refine iff_of_false (fun both => by cases both.1) fun both => ?_
    exact Nat.not_lt.2 (Nat.zero_le _) (both.2 ▸ large)
  · rw [complete, request, and_iff_right rfl]
    constructor
    · intro equal
      have headers := congrArg HttpRequest.headers equal
      have read := congrArg HttpRequest.body equal
      dsimp only at headers read
      rw [noBody, List.take_eq_nil_iff] at read
      refine ⟨headers, ?_⟩
      rcases read with none | empty
      · exact none
      · rw [empty] at enough
        exact Nat.le_zero.1 enough
    · rintro ⟨headers, none⟩
      rw [none, List.take_zero, ← noBody']
      exact (request_eq_iff others).2 headers
  · rw [incomplete]
    refine iff_of_false (fun both => by cases both.1) fun both => ?_
    exact Nat.not_lt.2 (Nat.zero_le _) (both.2 ▸ short)

/-- The run ends with `Complete` and with a request that has other headers. -/
theorem restores_iff {side : EndedLine → Bool} {choices : List EndedLine}
    (ends : ∃ choice ∈ choices, choice.line.content = [])
    {parser : HttpParser} (phase : parser.state = .headers)
    (noPartial : parser.lineBuf = []) (target : HttpRequest)
    (request : parser.request =
      { target with headers := parser.request.headers })
    (noBody : target.body = []) (body : Bytes) :
    (parser.feed (stream side choices body)).2 = .complete ∧
        (parser.feed (stream side choices body)).1.request = target ↔
      Restores side target.headers parser.request.headers choices := by
  induction choices generalizing parser with
  | nil =>
      rcases ends with ⟨last, member, -⟩
      cases member
  | cons choice rest ih =>
      rw [Restores]
      by_cases fits : choice.line.Fits (side choice)
      · rw [if_pos fits]
        by_cases blank : choice.line.content = []
        · rw [if_pos blank]
          exact feed_blank_eq_iff phase noPartial request noBody side blank
            rest body
        · rw [if_neg blank]
          cases stores : storeHeader parser.request.headers
              choice.line.content with
          | none =>
              have error := feed_refused phase noPartial fits rest body blank
                stores
              rw [error]
              simp
          | some stored =>
              rw [feed_stored phase noPartial fits rest body blank stores]
              simp only [Option.mem_def, Option.some.injEq, exists_eq_left']
              apply ih (exists_blank_tail ends blank)
              · exact phase
              · exact noPartial
              · rw [HttpParser.storing, request]
      · rw [if_neg fits, feed_tooLong (Or.inr phase) noPartial fits]
        exact (and_iff_right rfl).trans (request_eq_iff request)

/-! ## The two inputs -/

/-- The other run stops at a line that is too long. -/
theorem sameRequest_halted_iff {run : HttpParser × Result}
    {parser : HttpParser} {msg : Bytes} :
    SameRequest run (parser.setError msg, .complete) ↔
      run.2 = .complete ∧ run.1.request = parser.request := by
  constructor
  · rintro ⟨complete, request⟩
    exact ⟨complete, request complete⟩
  · rintro ⟨complete, request⟩
    exact ⟨complete, fun _ => request⟩

/-- The ends of two heads are alike if the bodies that follow them are. -/
theorem sameRequest_blank_iff {parser : HttpParser}
    (phase : parser.state = .headers) (noPartial : parser.lineBuf = [])
    (noBody : parser.request.body = []) {choice : EndedLine}
    (blank : choice.line.content = []) (rest : List EndedLine) (body : Bytes) :
    SameRequest
        (parser.feed (stream EndedLine.first (choice :: rest) body))
        (parser.feed (stream EndedLine.second (choice :: rest) body)) ↔
      (announced parser.request.headers ≤ parser.maxBodySize →
        SameBody (announced parser.request.headers)
          (stream EndedLine.first rest body)
          (stream EndedLine.second rest body)) := by
  have first := feed_blank phase noPartial noBody EndedLine.first blank rest
    body
  have second := feed_blank phase noPartial noBody EndedLine.second blank rest
    body
  dsimp only at first second
  by_cases large : parser.maxBodySize < announced parser.request.headers
  · have notSmall := Nat.not_le.2 large
    have refused := (first.resolve_right fun others =>
      notSmall (others.elim And.left And.left)).2
    have refused' := (second.resolve_right fun others =>
      notSmall (others.elim And.left And.left)).2
    refine iff_of_true ⟨refused.trans refused'.symm, fun complete => ?_⟩
      fun small => absurd small notSmall
    rw [refused] at complete
    cases complete
  · have small := Nat.not_lt.1 large
    rw [forall_prop_of_true small, SameRequest, SameBody]
    rcases first.resolve_left fun refused => large refused.1 with
      ⟨-, enough, complete, request⟩ | ⟨-, short, incomplete⟩
    all_goals
      rcases second.resolve_left fun refused => large refused.1 with
        ⟨-, enough', complete', request'⟩ | ⟨-, short', incomplete'⟩
    · rw [complete, complete', request, request']
      simp [enough, enough']
    · rw [complete, incomplete']
      simp [enough, Nat.not_le.2 short']
    · rw [incomplete, complete']
      simp [enough', Nat.not_le.2 short]
    · rw [incomplete, incomplete']
      simp [Nat.not_le.2 short, Nat.not_le.2 short']

/-- In the header lines the condition is exact. -/
theorem headersAlike_iff {choices : List EndedLine}
    (ends : ∃ choice ∈ choices, choice.line.content = [])
    {parser : HttpParser} (phase : parser.state = .headers)
    (noPartial : parser.lineBuf = []) (noBody : parser.request.body = [])
    (body : Bytes) :
    SameRequest (parser.feed (stream EndedLine.first choices body))
        (parser.feed (stream EndedLine.second choices body)) ↔
      HeadersAlike parser.maxBodySize body parser.request.headers choices := by
  induction choices generalizing parser with
  | nil =>
      rcases ends with ⟨last, member, -⟩
      cases member
  | cons choice rest ih =>
      rw [HeadersAlike]
      by_cases first : choice.line.Fits choice.first
      · by_cases second : choice.line.Fits choice.second
        · rw [if_pos ⟨first, second⟩]
          by_cases blank : choice.line.content = []
          · rw [if_pos blank]
            exact sameRequest_blank_iff phase noPartial noBody blank rest body
          · rw [if_neg blank]
            cases stores : storeHeader parser.request.headers
                choice.line.content with
            | none =>
                refine iff_of_true ⟨?_, ?_⟩ (by simp)
                · rw [feed_refused phase noPartial first rest body blank
                    stores,
                    feed_refused phase noPartial second rest body blank stores]
                · rw [feed_refused phase noPartial first rest body blank
                    stores]
                  intro complete
                  cases complete
            | some stored =>
                rw [feed_stored phase noPartial first rest body blank stores,
                  feed_stored phase noPartial second rest body blank stores]
                simp only [Option.mem_def, Option.some.injEq, forall_eq']
                exact ih (exists_blank_tail ends blank) phase noPartial noBody
        · rw [if_neg fun both => second both.2, if_pos first,
            feed_tooLong (Or.inr phase) noPartial second]
          exact sameRequest_halted_iff.trans
            (restores_iff ends phase noPartial parser.request rfl noBody body)
      · rw [if_neg fun both => first both.1, if_neg first,
          feed_tooLong (Or.inr phase) noPartial first]
        by_cases second : choice.line.Fits choice.second
        · rw [if_pos second, SameRequest.comm]
          exact sameRequest_halted_iff.trans
            (restores_iff ends phase noPartial parser.request rfl noBody body)
        · rw [if_neg second, feed_tooLong (Or.inr phase) noPartial second]
          exact iff_of_true (SameRequest.refl _) trivial

/-! ## The whole request -/

/-- The request line has been accepted, whatever came after it. -/
structure HttpParser.Started (parser : HttpParser) : Prop where
  phase : parser.state ≠ .requestLine
  known : parser.request.method ≠ .UNKNOWN

theorem HttpParser.Started.parseLine {parser : HttpParser}
    (started : parser.Started) (line : Bytes) :
    (parser.parseLine line).1.Started := by
  cases phase : parser.state with
  | requestLine => exact absurd phase started.phase
  | headers =>
      rw [parseLine_headers phase]
      rcases parseHeaderLine_cases parser line with
        ⟨-, -, equal⟩ | ⟨-, -, -, equal⟩ | ⟨-, -, colon, -, equal⟩ |
          ⟨bodyRemaining, msg, -, equal⟩
      · rw [equal]
        exact ⟨State.noConfusion, started.known⟩
      · rw [equal]
        exact ⟨State.noConfusion, started.known⟩
      · rw [equal]
        exact ⟨started.phase, started.known⟩
      · rw [equal]
        exact ⟨State.noConfusion, started.known⟩
  | body =>
      simp only [HttpParser.parseLine, phase]
      exact started
  | complete =>
      simp only [HttpParser.parseLine, phase]
      exact started

theorem HttpParser.Started.feed {parser : HttpParser}
    (started : parser.Started) (data : Bytes) :
    (parser.feed data).1.Started := by
  apply feed_invariant _ _ _ started
  · intro parser data started _
    rcases consumeLine_cases parser data with equal | ⟨_, _, _, equal⟩
    · rw [equal]
      exact ⟨State.noConfusion, started.known⟩
    · rw [equal]
      exact ⟨started.phase, started.known⟩
  · intro parser started _
    have parsed := started.parseLine parser.lineBuf
    exact ⟨parsed.phase, parsed.known⟩
  · intro parser data started _
    rcases parseBody_cases parser data with ⟨_, equal⟩ | ⟨_, equal⟩
    · rw [equal]
      exact ⟨State.noConfusion, started.known⟩
    · rw [equal]
      exact ⟨started.phase, started.known⟩

/-- A text that `parse_request_line` accepts if it is short enough. -/
def IsRequestLine (content : Bytes) : Prop :=
  ∃ method path version, method ≠ .UNKNOWN ∧ sp ∉ path ∧
    (version = text "HTTP/1.1" ∨ version = text "HTTP/1.0") ∧
    content = requestLine method path version

/-- A request whose lines are ended in two ways. -/
structure TwoEndings where
  request : EndedLine
  headers : List EndedLine
  blankFirst : Bool
  blankSecond : Bool
  body : Bytes

namespace TwoEndings

/-- The header lines and the blank line. -/
def rest (input : TwoEndings) : List EndedLine :=
  input.headers ++ [⟨.blank, input.blankFirst, input.blankSecond⟩]

def bytes (input : TwoEndings) (side : EndedLine → Bool) : Bytes :=
  stream side (input.request :: input.rest) input.body

/--
The request line is too long in both inputs or in neither, and if it is one,
the header lines are read alike.
-/
structure Alike (maxBodySize : Nat) (input : TwoEndings) : Prop where
  request :
    input.request.line.Fits input.request.first ↔
      input.request.line.Fits input.request.second
  headers :
    input.request.line.Fits input.request.first →
      IsRequestLine input.request.line.content →
        HeadersAlike maxBodySize input.body ∅ input.rest

theorem rest_ends (input : TwoEndings) :
    ∃ choice ∈ input.rest, choice.line.content = [] := by
  refine ⟨⟨.blank, input.blankFirst, input.blankSecond⟩, ?_, rfl⟩
  exact List.mem_append_right _ (List.mem_singleton_self _)

section

variable (input : TwoEndings) {side : EndedLine → Bool}
  (fits : input.request.line.Fits (side input.request)) (maxBodySize : Nat)
include fits

theorem request_short :
    input.request.line.content.length ≤ maxRequestLine := by
  refine Nat.le_trans ?_ fits
  rw [TextLine.ended, List.length_append]
  exact Nat.le_add_right _ _

/-- The request line of one of the inputs is read. -/
theorem feed_request {method : Method} {path version : Bytes}
    (known : method ≠ .UNKNOWN) (pathFree : sp ∉ path)
    (supported : version = text "HTTP/1.1" ∨ version = text "HTTP/1.0")
    (content : input.request.line.content = requestLine method path version) :
    (fresh maxBodySize).feed (input.bytes side) =
      ((fresh maxBodySize).starting method path version).feed
        (stream side input.rest input.body) := by
  have short := input.request_short fits
  rw [content] at short
  have phase : (fresh maxBodySize).state = .requestLine := rfl
  rw [bytes, feed_stream (Or.inl phase) rfl, if_pos fits,
    parseLine_requestLine phase, content,
    parseRequestLine_requestLine known pathFree supported short]
  rfl

theorem feed_notRequest
    (other : ¬ IsRequestLine input.request.line.content) :
    ((fresh maxBodySize).feed (input.bytes side)).2 = .error := by
  have phase : (fresh maxBodySize).state = .requestLine := rfl
  rw [bytes, feed_stream (Or.inl phase) rfl, if_pos fits,
    parseLine_requestLine phase]
  rcases parseRequestLine_cases (fresh maxBodySize)
      input.request.line.content with
    ⟨_, _, _, _, _, parsed⟩ | ⟨_, _, _, parsed⟩
  · rcases exists_requestLine parsed with
      ⟨method, path, version, known, pathFree, supported, content, -⟩
    exact absurd
      ⟨method, path, version, known, pathFree, supported, content⟩ other
  · rw [parsed]

/-- A request line that is too long in one input only is always noticed. -/
theorem not_sameRequest_halted {parser : HttpParser} {msg : Bytes}
    (empty : parser.request.method = .UNKNOWN) :
    ¬ SameRequest ((fresh maxBodySize).feed (input.bytes side))
      (parser.setError msg, .complete) := by
  rw [sameRequest_halted_iff]
  rintro ⟨complete, request⟩
  by_cases isLine : IsRequestLine input.request.line.content
  · rcases isLine with
      ⟨method, path, version, known, pathFree, supported, content⟩
    have started : ((fresh maxBodySize).starting method path version).Started :=
      ⟨State.noConfusion, known⟩
    have kept := (started.feed (stream side input.rest input.body)).known
    rw [← input.feed_request fits maxBodySize known pathFree supported
      content, request] at kept
    exact kept empty
  · cases complete.symm.trans (input.feed_notRequest fits maxBodySize isLine)

end

end TwoEndings

/--
Two inputs with the same lines and the same body, ended in any two ways, are
read alike exactly if no ending makes one of the lines that are read too long
(or the rest of the head happens to undo that) and no line before the last one
is empty (or the body does not reach the next ending).
-/
theorem line_endings_iff (input : TwoEndings) (maxBodySize : Nat) :
    SameRequest ((fresh maxBodySize).feed (input.bytes EndedLine.first))
        ((fresh maxBodySize).feed (input.bytes EndedLine.second)) ↔
      input.Alike maxBodySize := by
  have halted : ∀ side : EndedLine → Bool,
      ¬ input.request.line.Fits (side input.request) →
        (fresh maxBodySize).feed (input.bytes side) =
          ((fresh maxBodySize).setError (text "header line too long"),
            .complete) :=
    fun side tooLong => feed_tooLong (Or.inl rfl) rfl tooLong _ _
  by_cases first : input.request.line.Fits input.request.first
  · by_cases second : input.request.line.Fits input.request.second
    · by_cases isLine : IsRequestLine input.request.line.content
      · have alike : input.Alike maxBodySize ↔
            HeadersAlike maxBodySize input.body ∅ input.rest :=
          ⟨fun alike => alike.headers first isLine,
            fun headers => ⟨iff_of_true first second, fun _ _ => headers⟩⟩
        rcases isLine with
          ⟨method, path, version, known, pathFree, supported, content⟩
        rw [alike,
          input.feed_request first _ known pathFree supported content,
          input.feed_request second _ known pathFree supported content]
        exact headersAlike_iff input.rest_ends rfl rfl rfl input.body
      · have refused := input.feed_notRequest first maxBodySize isLine
        have refused' := input.feed_notRequest second maxBodySize isLine
        refine iff_of_true ⟨refused.trans refused'.symm, fun complete => ?_⟩
          ?_
        · cases refused.symm.trans complete
        · exact ⟨iff_of_true first second,
            fun _ line => absurd line isLine⟩
    · rw [halted _ second]
      refine iff_of_false (input.not_sameRequest_halted first _ rfl) ?_
      exact fun alike => second (alike.request.1 first)
  · by_cases second : input.request.line.Fits input.request.second
    · rw [halted _ first, SameRequest.comm]
      refine iff_of_false (input.not_sameRequest_halted second _ rfl) ?_
      exact fun alike => first (alike.request.2 second)
    · rw [halted _ first, halted _ second]
      refine iff_of_true (SameRequest.refl _) ⟨?_, ?_⟩
      · exact iff_of_false first second
      · exact fun fits => absurd fits first

/-! ## A header line at the limit -/

/-- A header with a value of any length. -/
def padded (count : Nat) : TextLine where
  content := 97 :: colonByte :: List.replicate count 97
  noLf := by simp [colonByte, lf]
  noCr := by
    rw [show 97 :: colonByte :: List.replicate count 97 =
      [97, colonByte] ++ List.replicate count 97 from rfl,
      List.getLast?_append, List.getLast?_replicate]
    split_ifs <;> decide

/-- The header line ends with LF in the first input, with CRLF in the second. -/
def paddedInput (count : Nat) : TwoEndings where
  request :=
    { line :=
        { content := text "GET / HTTP/1.1"
          noLf := by decide
          noCr := by decide }
      first := false
      second := false }
  headers := [⟨padded count, false, true⟩]
  blankFirst := false
  blankSecond := false
  body := []

theorem padded_fits_iff (count : Nat) (withCr : Bool) :
    (padded count).Fits withCr ↔
      count + 2 + (lineEnd withCr).length ≤ maxHeaderSize := by
  rw [TextLine.Fits, TextLine.ended, List.length_append]
  simp [padded]

theorem storeHeader_ne_empty {headers stored : HeaderMap} {line : Bytes}
    (stores : storeHeader headers line = some stored) : stored ≠ ∅ := by
  rw [storeHeader] at stores
  split_ifs at stores
  rcases Option.map_eq_some_iff.1 stores with ⟨colon, -, rfl⟩
  intro empty
  have found := congrArg (Finmap.lookup (toLower (line.take colon))) empty
  rw [Finmap.lookup_insert, Finmap.lookup_empty] at found
  cases found

theorem paddedInput_not_alike {count : Nat}
    (fits : (padded count).Fits false) (tooLong : ¬ (padded count).Fits true)
    (maxBodySize : Nat) :
    ¬ HeadersAlike maxBodySize [] ∅ (paddedInput count).rest := by
  have header : (padded count).content ≠ [] := List.cons_ne_nil _ _
  intro alike
  simp only [TwoEndings.rest, paddedInput, List.cons_append, List.nil_append,
    HeadersAlike, fits, tooLong, and_false, if_false, if_true] at alike
  simp only [Restores, fits, if_true, if_neg header] at alike
  rcases alike with ⟨stored, stores, ended⟩
  rw [if_pos (TextLine.fits_of_blank rfl _)] at ended
  apply storeHeader_ne_empty stores
  simp only [TextLine.blank, if_true] at ended
  exact ended.1

/-- The first input is complete with a header, the second without one. -/
theorem line_endings_limit :
    ¬ SameRequest
      ((fresh 0).feed ((paddedInput 8189).bytes EndedLine.first))
      ((fresh 0).feed ((paddedInput 8189).bytes EndedLine.second)) := by
  have short : ∀ withCr, (paddedInput 8189).request.line.Fits withCr := by
    decide
  have supported : text "HTTP/1.1" = text "HTTP/1.1" ∨
      text "HTTP/1.1" = text "HTTP/1.0" := Or.inl rfl
  have accepted : ∀ side : EndedLine → Bool,
      (fresh 0).feed ((paddedInput 8189).bytes side) =
        ((fresh 0).starting .GET (text "/") (text "HTTP/1.1")).feed
          (stream side (paddedInput 8189).rest []) :=
    fun side => (paddedInput 8189).feed_request (short _) 0 (by decide)
      (by decide) supported rfl
  rw [accepted, accepted,
    headersAlike_iff (TwoEndings.rest_ends _) rfl rfl rfl]
  refine paddedInput_not_alike ?_ ?_ 0
  · rw [padded_fits_iff]
    decide
  · rw [padded_fits_iff]
    decide

end Cppws.Http
