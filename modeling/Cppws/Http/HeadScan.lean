import Cppws.Foundation.Segments
import Cppws.Http.Parser

/-!
# `feed` read line by line

`feed` alternates between cutting its input and parsing what it cut off.  This
module separates the two: `scanHead` runs the line parsers over the list of
segments of the input (each `'\n'` ends one, and what follows the last `'\n'`
is one more), and `feed_eq_resume` says that `feed` is that scan followed by
the body.  Everything proved about `feed` in later modules goes through this
equation, and none of it unfolds the loop again.
-/

namespace Cppws.Http.HttpParser

open Segments

/-- The state is `RequestLine` or `Headers`. -/
def InHead (parser : HttpParser) : Prop :=
  parser.state = .requestLine ∨ parser.state = .headers

/-- What `line_buf_` holds once a segment of the input has been consumed. -/
def lineOf (segment : Bytes) : Bytes :=
  if segment.getLast? = some lf then
    popBackIf cr (popBackIf lf segment)
  else
    segment

/-- How a scan of the head of a request ends. -/
inductive HeadScan where
  /-- Every segment was consumed and the head goes on. -/
  | unfinished (parser : HttpParser)
  /-- The blank line was met and a body is expected in `rest`. -/
  | body (parser : HttpParser) (rest : Bytes)
  /-- A line parser returned a final result. -/
  | returned (parser : HttpParser) (result : Result)
  /-- A segment is longer than `MAX_HEADER_SIZE`. -/
  | overlong (parser : HttpParser)

/-- Run the line parsers over the segments of the input. -/
def scanHead (parser : HttpParser) : List Bytes → HeadScan
  | [] => .unfinished parser
  | segment :: rest =>
      if segment.length > maxHeaderSize then
        .overlong parser
      else
        match parser.parseLine (lineOf segment) with
        | (next, .incomplete) =>
            if next.state = .body then
              .body next rest.flatten
            else
              scanHead next rest
        | (next, result) => .returned next result

/-- What `feed` makes of the scan. -/
def HeadScan.resume : HeadScan → HttpParser × Result
  | .unfinished parser => (parser, .incomplete)
  | .body parser rest => parser.feed rest
  | .returned parser result => (parser, result)
  | .overlong parser =>
      (parser.setError (text "header line too long"), .complete)

/-! ## The pieces of one iteration -/

theorem popBackIf_concat (ch : UInt8) (body : Bytes) :
    popBackIf ch (body ++ [ch]) = body := by
  simp [popBackIf]

theorem lineOf_terminated (body : Bytes) :
    lineOf (body ++ [lf]) = popBackIf cr body := by
  simp [lineOf, popBackIf_concat]

theorem lineOf_of_not_mem {segment : Bytes} (free : lf ∉ segment) :
    lineOf segment = segment := by
  unfold lineOf
  rw [if_neg]
  intro last
  exact free (List.mem_of_getLast? last)

/-- Cutting one segment off with an empty `line_buf_`. -/
theorem consumeLine_eq {parser : HttpParser} {data first : Bytes}
    {rest : List Bytes}
    (noPartial : parser.lineBuf = [])
    (cut : segments lf data = first :: rest) :
    data = first ++ rest.flatten ∧ 0 < first.length ∧
      parser.consumeLine data =
        if first.length > maxHeaderSize then
          (parser.setError (text "header line too long"), 0)
        else
          ({ parser with lineBuf := lineOf first }, first.length) := by
  have whole : data = first ++ rest.flatten := by
    have := flatten_segments lf data
    rw [cut] at this
    simpa using this.symm
  refine ⟨whole, ?_⟩
  have nonempty : data ≠ [] := by
    rintro rfl
    simp at cut
  cases found : data.findIdx? (· = lf) with
  | none =>
      have single := segments_of_findIdx?_none found nonempty
      rw [cut, List.cons.injEq] at single
      obtain ⟨rfl, -⟩ := single
      have free : lf ∉ first := by
        intro member
        have := List.findIdx?_eq_none_iff.1 found lf member
        simp at this
      refine ⟨List.length_pos_of_ne_nil nonempty, ?_⟩
      simp [consumeLine, find, found, noPartial, lineOf_of_not_mem free]
  | some pos =>
      obtain ⟨chunk, free, split⟩ := segments_of_findIdx?_some found
      rw [cut, List.cons.injEq] at split
      obtain ⟨rfl, -⟩ := split
      have bound : pos < data.length :=
        (List.findIdx?_eq_some_iff_getElem.1 found).1
      have size : (data.take (pos + 1)).length = pos + 1 := by
        simp only [List.length_take]
        omega
      refine ⟨by omega, ?_⟩
      have line : lineOf (data.take (pos + 1)) =
          popBackIf cr (popBackIf lf (data.take (pos + 1))) := by
        rw [chunk, lineOf_terminated, popBackIf_concat]
      have found' : find data lf 0 = some pos := by
        simp [find, found]
      rw [size, line]
      simp only [consumeLine, found', noPartial, List.nil_append, size,
        List.length_nil, Nat.zero_add]

theorem parseRequestLine_with_lineBuf
    (parser : HttpParser) (buffer line : Bytes) :
    { parser with lineBuf := buffer }.parseRequestLine line =
      ({ (parser.parseRequestLine line).1 with lineBuf := buffer },
        (parser.parseRequestLine line).2) := by
  simp only [parseRequestLine]
  by_cases long : line.length > maxRequestLine
  · simp only [if_pos long]
    rfl
  · simp only [if_neg long]
    cases first : find line sp 0 with
    | none => rfl
    | some sp1 =>
        cases second : find line sp (sp1 + 1) with
        | none =>
            simp only [second]
            rfl
        | some sp2 =>
            simp only [second]
            split_ifs <;> rfl

theorem parseHeaderLine_with_lineBuf
    (parser : HttpParser) (buffer line : Bytes) :
    { parser with lineBuf := buffer }.parseHeaderLine line =
      ({ (parser.parseHeaderLine line).1 with lineBuf := buffer },
        (parser.parseHeaderLine line).2) := by
  simp only [parseHeaderLine]
  cases colon : find line colonByte 0 <;> split_ifs <;> rfl

theorem parseLine_requestLine {parser : HttpParser}
    (phase : parser.state = .requestLine) (line : Bytes) :
    parser.parseLine line = parser.parseRequestLine line := by
  simp only [parseLine, phase]

theorem parseLine_headers {parser : HttpParser}
    (phase : parser.state = .headers) (line : Bytes) :
    parser.parseLine line = parser.parseHeaderLine line := by
  simp only [parseLine, phase]

/-- The line parsers neither read nor write `line_buf_`. -/
theorem parseLine_with_lineBuf {parser : HttpParser}
    (inHead : parser.InHead) (buffer line : Bytes) :
    { parser with lineBuf := buffer }.parseLine line =
      ({ (parser.parseLine line).1 with lineBuf := buffer },
        (parser.parseLine line).2) := by
  rcases inHead with phase | phase
  · rw [parseLine_requestLine phase, parseLine_requestLine (by exact phase),
      parseRequestLine_with_lineBuf]
  · rw [parseLine_headers phase, parseLine_headers (by exact phase),
      parseHeaderLine_with_lineBuf]

/-! ## What a line parser can do -/

/-- The texts a header line can be refused with. -/
def headerErrors : List Bytes :=
  [text "body too large", text "too many headers",
    text "malformed header: no colon"]

theorem unsupported_not_headerError (version : Bytes) :
    text "unsupported HTTP version: " ++ version ∉ headerErrors := by
  intro member
  have first : (text "unsupported HTTP version: " ++ version).head? ∈
      headerErrors.map List.head? :=
    List.mem_map_of_mem member
  have starts : (text "unsupported HTTP version: " ++ version).head? =
      some 117 := rfl
  rw [starts] at first
  exact absurd first (by decide)

/-- The outcomes of parsing a request line. -/
theorem parseRequestLine_cases (parser : HttpParser) (line : Bytes) :
    (∃ method path version,
        method ≠ Method.UNKNOWN ∧
        (version = text "HTTP/1.1" ∨ version = text "HTTP/1.0") ∧
        parser.parseRequestLine line =
          ({ parser with
              state := .headers
              request := { parser.request with method, path, version } },
            .incomplete)) ∨
      ∃ request msg,
        (msg ≠ [] ∧ msg ∉ headerErrors) ∧
        parser.parseRequestLine line =
          ({ parser with request }.setError msg, .error) := by
  simp only [parseRequestLine]
  by_cases long : line.length > maxRequestLine
  · simp only [if_pos long]
    exact Or.inr ⟨parser.request, _, by decide, rfl⟩
  · simp only [if_neg long]
    cases first : find line sp 0 with
    | none => exact Or.inr ⟨parser.request, _, by decide, rfl⟩
    | some sp1 =>
        cases second : find line sp (sp1 + 1) with
        | none =>
            simp only [second]
            exact Or.inr ⟨parser.request, _, by decide, rfl⟩
        | some sp2 =>
            simp only [second]
            split_ifs with unknown unsupported
            · exact Or.inr ⟨_, _, by decide, rfl⟩
            · refine Or.inr ⟨_, _, ⟨?_, ?_⟩, rfl⟩
              · exact List.append_ne_nil_of_left_ne_nil (by decide) _
              · exact unsupported_not_headerError _
            · refine Or.inl ⟨_, _, _, unknown, ?_, rfl⟩
              rw [not_and_or, not_not, not_not] at unsupported
              exact unsupported

/-- The outcomes of parsing a header line. -/
theorem parseHeaderLine_cases (parser : HttpParser) (line : Bytes) :
    (line = [] ∧ parser.request.contentLength = 0 ∧
        parser.parseHeaderLine line =
          ({ parser with state := .complete, bodyRemaining := 0 },
            .complete)) ∨
      (line = [] ∧ 0 < parser.request.contentLength ∧
        parser.request.contentLength ≤ parser.maxBodySize ∧
        parser.parseHeaderLine line =
          ({ parser with
              state := .body
              bodyRemaining := parser.request.contentLength },
            .incomplete)) ∨
      (line ≠ [] ∧
        parser.request.headers.keys.card < maxHeaderCount ∧
        ∃ colon,
          find line colonByte 0 = some colon ∧
          parser.parseHeaderLine line =
            ({ parser with
                request :=
                  { parser.request with
                    headers :=
                      parser.request.headers.insert
                        (toLower (line.take colon))
                        (trim (line.drop (colon + 1))) } },
              .incomplete)) ∨
      ∃ bodyRemaining msg,
        msg ∈ headerErrors ∧
        parser.parseHeaderLine line =
          ({ parser with bodyRemaining }.setError msg, .error) := by
  simp only [parseHeaderLine]
  by_cases blank : line = []
  · simp only [if_pos blank]
    by_cases hasBody : parser.request.contentLength > 0
    · simp only [if_pos hasBody]
      by_cases large : parser.request.contentLength > parser.maxBodySize
      · simp only [if_pos large]
        exact Or.inr (Or.inr (Or.inr ⟨_, _, by decide, rfl⟩))
      · simp only [if_neg large]
        exact Or.inr (Or.inl ⟨blank, hasBody, by omega, trivial⟩)
    · have none : parser.request.contentLength = 0 := by omega
      simp only [none]
      exact Or.inl ⟨blank, trivial, rfl⟩
  · simp only [if_neg blank]
    by_cases many : parser.request.headers.keys.card ≥ maxHeaderCount
    · simp only [if_pos many]
      exact Or.inr (Or.inr
        (Or.inr ⟨parser.bodyRemaining, _, by decide, rfl⟩))
    · simp only [if_neg many]
      cases found : find line colonByte 0 with
      | none =>
          exact Or.inr (Or.inr (Or.inr
            ⟨parser.bodyRemaining, _, by decide, rfl⟩))
      | some colon =>
          exact Or.inr (Or.inr (Or.inl
            ⟨blank, by omega, colon, rfl, rfl⟩))

/-! ## The loop as an equation -/

/-- Fuel beyond the length of the input changes nothing. -/
theorem feedLoop_eq_feed {fuel : Nat} {parser : HttpParser} {data : Bytes}
    (enough : data.length ≤ fuel) :
    feedLoop fuel parser data = parser.feed data := by
  unfold feed
  suffices agree : ∀ fuel fuel' parser data,
      data.length ≤ fuel → data.length ≤ fuel' →
        feedLoop fuel parser data = feedLoop fuel' parser data from
    agree _ _ parser data enough (Nat.le_refl _)
  clear enough parser data fuel
  intro fuel
  induction fuel with
  | zero =>
      intro fuel' parser data short _
      have empty : data = [] := List.length_eq_zero_iff.1 (by omega)
      cases fuel' <;> simp [feedLoop, empty]
  | succ fuel ih =>
      intro fuel' parser data short short'
      cases fuel' with
      | zero =>
          have empty : data = [] := List.length_eq_zero_iff.1 (by omega)
          simp [feedLoop, empty]
      | succ fuel' =>
          simp only [feedLoop]
          split_ifs with _ _ _ stuck
          · rfl
          · rfl
          · rfl
          · rfl
          · rfl
          · have advance : 0 < (parser.consumeLine data).2 :=
              Nat.pos_of_ne_zero stuck
            exact ih fuel' _ _
              (by simp only [List.length_drop]; omega)
              (by simp only [List.length_drop]; omega)

/-- The outcomes of cutting off a line. -/
theorem consumeLine_cases (parser : HttpParser) (data : Bytes) :
    parser.consumeLine data =
        (parser.setError (text "header line too long"), 0) ∨
      ∃ lineBuf consumed, lineBuf.length ≤ maxHeaderSize ∧
        parser.consumeLine data = ({ parser with lineBuf }, consumed) := by
  have popped : ∀ ch str, (popBackIf ch str).length ≤ str.length := by
    intro ch str
    unfold popBackIf
    split_ifs
    · rw [List.length_dropLast]
      exact Nat.sub_le _ _
    · exact Nat.le_refl _
  unfold consumeLine
  cases find data lf 0 with
  | none =>
      dsimp only
      split_ifs with long
      · exact Or.inl rfl
      · refine Or.inr ⟨_, _, ?_, rfl⟩
        rw [List.length_append]
        exact Nat.not_lt.1 long
  | some pos =>
      dsimp only
      split_ifs with long
      · exact Or.inl rfl
      · refine Or.inr ⟨_, _, ?_, rfl⟩
        refine Nat.le_trans (popped cr _) (Nat.le_trans (popped lf _) ?_)
        rw [List.length_append]
        exact Nat.not_lt.1 long

theorem consumeLine_ne_body {parser : HttpParser}
    (phase : parser.state ≠ .body) (data : Bytes) :
    (parser.consumeLine data).1.state ≠ .body := by
  rcases consumeLine_cases parser data with equal | ⟨_, _, _, equal⟩
  · rw [equal]
    exact State.noConfusion
  · rw [equal]
    exact phase

/-- `feed` keeps what each of its iterations keeps. -/
theorem feed_invariant {invariant : HttpParser → Prop}
    (cuts : ∀ parser data, invariant parser → parser.state ≠ .body →
      invariant (parser.consumeLine data).1)
    (parses : ∀ parser, invariant parser → parser.state ≠ .body →
      invariant { (parser.parseLine parser.lineBuf).1 with lineBuf := [] })
    (reads : ∀ parser data, invariant parser → parser.state = .body →
      invariant (parser.parseBody data).1)
    {parser : HttpParser} (holds : invariant parser) (data : Bytes) :
    invariant (parser.feed data).1 := by
  unfold feed
  generalize data.length = fuel
  induction fuel generalizing parser data with
  | zero => exact holds
  | succ fuel ih =>
      simp only [feedLoop]
      split_ifs with empty inBody final stuck ended
      · exact holds
      · exact reads parser data holds inBody
      · exact reads parser data holds inBody
      · exact cuts parser data holds inBody
      · exact parses _ (cuts parser data holds inBody)
          (consumeLine_ne_body inBody data)
      · refine ih ?_ _
        exact parses _ (cuts parser data holds inBody)
          (consumeLine_ne_body inBody data)

@[simp]
theorem feed_nil (parser : HttpParser) : parser.feed [] = parser.finish :=
  rfl

/-- One `feed` in the `Body` state. -/
theorem feed_body {parser : HttpParser} {data : Bytes}
    (phase : parser.state = .body) (nonempty : data ≠ []) :
    parser.feed data = parser.parseBody data := by
  obtain ⟨byte, others, rfl⟩ := List.exists_cons_of_ne_nil nonempty
  simp only [feed, List.length_cons, feedLoop, if_neg nonempty, if_pos phase]
  by_cases done :
      parser.bodyRemaining - min (others.length + 1) parser.bodyRemaining = 0
  · simp [parseBody, done]
  · simp [parseBody, done, finish, phase]

/-- One iteration of the loop outside the `Body` state. -/
theorem feed_line {parser : HttpParser} {data : Bytes}
    (phase : parser.state ≠ .body) (nonempty : data ≠ []) :
    parser.feed data =
      let cut := parser.consumeLine data
      if cut.2 = 0 then
        cut.1.finish
      else
        let parsed := cut.1.parseLine cut.1.lineBuf
        let next := { parsed.1 with lineBuf := [] }
        if parsed.2 = .error ∨ parsed.2 = .complete then
          (next, parsed.2)
        else
          next.feed (data.drop cut.2) := by
  obtain ⟨byte, others, rfl⟩ := List.exists_cons_of_ne_nil nonempty
  conv_lhs =>
    simp only [feed, List.length_cons, feedLoop, if_neg nonempty, if_neg phase]
  simp only
  split_ifs with stuck
  · rfl
  · rfl
  · apply feedLoop_eq_feed
    simp only [List.length_drop, List.length_cons]
    omega

/-! ## The scan -/

theorem parseLine_lineBuf {parser next : HttpParser} {line : Bytes}
    {result : Result} (inHead : parser.InHead)
    (parsed : parser.parseLine line = (next, result)) :
    next.lineBuf = parser.lineBuf := by
  have same := parseLine_with_lineBuf inHead parser.lineBuf line
  simp only [parsed, Prod.mk.injEq] at same
  rw [same.1]

/-- A line parser that goes on leaves the parser in the head or in a body. -/
theorem parseLine_incomplete {parser next : HttpParser} {line : Bytes}
    (inHead : parser.InHead)
    (parsed : parser.parseLine line = (next, .incomplete)) :
    next.error = parser.error ∧ next.maxBodySize = parser.maxBodySize ∧
      next.request.body = parser.request.body ∧
      (next.state = .body ∨ next.state = .headers) := by
  rcases inHead with phase | phase
  · rw [parseLine_requestLine phase] at parsed
    rcases parseRequestLine_cases parser line with
      ⟨method, path, version, _, _, equal⟩ | ⟨request, msg, _, equal⟩
    · rw [equal, Prod.mk.injEq] at parsed
      obtain ⟨rfl, -⟩ := parsed
      exact ⟨rfl, rfl, rfl, Or.inr rfl⟩
    · simp [equal] at parsed
  · rw [parseLine_headers phase] at parsed
    rcases parseHeaderLine_cases parser line with
      ⟨_, _, equal⟩ | ⟨_, _, _, equal⟩ | ⟨_, _, colon, _, equal⟩ |
        ⟨bodyRemaining, msg, _, equal⟩
    · simp [equal] at parsed
    · rw [equal, Prod.mk.injEq] at parsed
      obtain ⟨rfl, -⟩ := parsed
      exact ⟨rfl, rfl, rfl, Or.inl rfl⟩
    · rw [equal, Prod.mk.injEq] at parsed
      obtain ⟨rfl, -⟩ := parsed
      exact ⟨rfl, rfl, rfl, Or.inr phase⟩
    · simp [equal] at parsed

/-- `feed` in the head of a request is the scan of its segments. -/
theorem feed_eq_resume {parser : HttpParser} (inHead : parser.InHead)
    (noPartial : parser.lineBuf = []) (data : Bytes) :
    parser.feed data = (parser.scanHead (segments lf data)).resume := by
  generalize cut : segments lf data = pieces
  induction pieces generalizing parser data with
  | nil =>
      have empty : data = [] := (segments_eq_nil_iff lf data).1 cut
      have unfinished : parser.state ≠ .complete := by
        rcases inHead with phase | phase <;> simp [phase]
      simp [empty, finish, scanHead, HeadScan.resume, unfinished]
  | cons first rest ih =>
      obtain ⟨whole, positive, consumed⟩ := consumeLine_eq noPartial cut
      have nonempty : data ≠ [] := by
        rintro rfl
        simp at cut
      have notBody : parser.state ≠ .body := by
        rcases inHead with phase | phase <;> simp [phase]
      rw [feed_line notBody nonempty, consumed, scanHead]
      by_cases long : first.length > maxHeaderSize
      · rw [if_pos long, if_pos long]
        rfl
      · have remaining : data.drop first.length = rest.flatten := by
          rw [whole, List.drop_left]
        simp only [if_neg long, if_neg positive.ne', remaining]
        rw [parseLine_with_lineBuf inHead]
        rcases parsed : parser.parseLine (lineOf first) with ⟨next, result⟩
        have restored : { next with lineBuf := [] } = next := by
          rw [← noPartial, ← parseLine_lineBuf inHead parsed]
        simp only [restored]
        cases result
        case incomplete =>
          obtain ⟨-, -, -, phase⟩ := parseLine_incomplete inHead parsed
          have buffer := parseLine_lineBuf inHead parsed
          simp only [reduceCtorEq, or_self, if_false]
          rcases phase with phase | phase
          · simp [phase, HeadScan.resume]
          · have notBody : next.state ≠ .body := by simp [phase]
            rw [if_neg notBody]
            exact ih (Or.inr phase) (buffer.trans noPartial) _
              (segments_tail cut)
        case complete => simp [HeadScan.resume]
        case error => simp [HeadScan.resume]

/-- Scanning two lists of segments one after the other. -/
theorem scanHead_append (parser : HttpParser) (first second : List Bytes) :
    parser.scanHead (first ++ second) =
      match parser.scanHead first with
      | .unfinished next => next.scanHead second
      | .body next rest => .body next (rest ++ second.flatten)
      | .returned next result => .returned next result
      | .overlong next => .overlong next := by
  induction first generalizing parser with
  | nil => rfl
  | cons segment rest ih =>
      simp only [List.cons_append, scanHead]
      by_cases long : segment.length > maxHeaderSize
      · simp only [if_pos long]
      · simp only [if_neg long]
        rcases parser.parseLine (lineOf segment) with ⟨next, result⟩
        cases result
        case incomplete =>
          by_cases phase : next.state = .body
          · simp only [if_pos phase, List.flatten_append]
          · simp only [if_neg phase, ih]
        case complete => rfl
        case error => rfl

end Cppws.Http.HttpParser
