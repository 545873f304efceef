import Cppws.Http.Fragmentation

/-!
# Well-formed requests on the wire

A `WireRequest` is a request as a client writes it, within the limits of the
parser: a request line, header lines and a blank line, each ended by CRLF or
LF, and a body of the announced length.  A fresh parser that is fed its bytes,
cut outside the lines of its head, returns `Incomplete` until the last byte and
then `Complete` with the request.
-/

namespace Cppws.Http

open Segments

/-- A line ending. -/
def lineEnd (withCr : Bool) : Bytes :=
  if withCr then [cr, lf] else [lf]

/-- The text of a header line, cut at its first colon. -/
structure Field where
  name : Bytes
  value : Bytes
  noColon : colonByte ∉ name

namespace Field

def line (field : Field) : Bytes :=
  field.name ++ colonByte :: field.value

/-- The name under which the value is found. -/
def key (field : Field) : Bytes :=
  toLower field.name

end Field

/-- Fields entered into a map one by one. -/
def enterFields (headers : HeaderMap) (fields : List Field) : HeaderMap :=
  fields.foldl
    (fun entered field => entered.insert field.key (trim field.value)) headers

/-- A header line as it is written. -/
structure WireHeader extends Field where
  withCr : Bool
  noLf : lf ∉ name ++ value
  noCr : value.getLast? ≠ some cr
  fits : (name ++ colonByte :: value ++ lineEnd withCr).length ≤ maxHeaderSize

def WireHeader.bytes (header : WireHeader) : Bytes :=
  header.line ++ lineEnd header.withCr

/-- `METHOD SP Request-URI SP HTTP-Version`. -/
def requestLine (method : Method) (path version : Bytes) : Bytes :=
  methodToString method ++ sp :: (path ++ sp :: version)

structure WireRequest (maxBodySize : Nat) where
  method : Method
  path : Bytes
  version : Bytes
  lineCr : Bool
  headers : List WireHeader
  blankCr : Bool
  body : Bytes
  known : method ≠ .UNKNOWN
  pathFree : sp ∉ path ∧ lf ∉ path
  supported : version = text "HTTP/1.1" ∨ version = text "HTTP/1.0"
  lineFits :
    (requestLine method path version ++ lineEnd lineCr).length ≤ maxHeaderSize
  few : ∀ count < headers.length,
    (enterFields ∅ ((headers.take count).map WireHeader.toField)).keys.card <
      maxHeaderCount
  framed :
    ({ headers := enterFields ∅ (headers.map WireHeader.toField) } :
      HttpRequest).contentLength = body.length
  bodyFits : body.length ≤ maxBodySize

namespace WireRequest

variable {maxBodySize : Nat}

/-- The request that is meant. -/
def toRequest (wire : WireRequest maxBodySize) : HttpRequest where
  method := wire.method
  path := wire.path
  version := wire.version
  headers := enterFields ∅ (wire.headers.map WireHeader.toField)
  body := wire.body

/-- The lines up to the blank one. -/
def lines (wire : WireRequest maxBodySize) : List Bytes :=
  (requestLine wire.method wire.path wire.version ++ lineEnd wire.lineCr) ::
    wire.headers.map WireHeader.bytes

def head (wire : WireRequest maxBodySize) : List Bytes :=
  wire.lines ++ [lineEnd wire.blankCr]

def bytes (wire : WireRequest maxBodySize) : Bytes :=
  wire.head.flatten ++ wire.body

/--
After so many bytes of the request a chunk may end: at the end of a line of the
head, or in the body.
-/
def CutAllowed (wire : WireRequest maxBodySize) (count : Nat) : Prop :=
  (∃ lines ∈ wire.head.inits, lines.flatten.length = count) ∨
    wire.head.flatten.length ≤ count

instance (wire : WireRequest maxBodySize) (count : Nat) :
    Decidable (wire.CutAllowed count) :=
  inferInstanceAs (Decidable (_ ∨ _))

end WireRequest

/-! ## Lines and their ends -/

theorem enterFields_concat (headers : HeaderMap) (fields : List Field)
    (field : Field) :
    enterFields headers (fields ++ [field]) =
      (enterFields headers fields).insert field.key (trim field.value) := by
  simp [enterFields]

/-- What is left of a line when its end has been stripped. -/
theorem lineOf_lineEnd {line : Bytes} (noCr : line.getLast? ≠ some cr)
    (withCr : Bool) :
    HttpParser.lineOf (line ++ lineEnd withCr) = line := by
  cases withCr with
  | true =>
      have split : line ++ lineEnd true = (line ++ [cr]) ++ [lf] := by
        simp [lineEnd]
      rw [split, HttpParser.lineOf_terminated, HttpParser.popBackIf_concat]
  | false =>
      show HttpParser.lineOf (line ++ [lf]) = line
      rw [HttpParser.lineOf_terminated, popBackIf, if_neg noCr]

/-- The first segment is the first line. -/
theorem segments_lineEnd {line : Bytes} (noLf : lf ∉ line) (withCr : Bool)
    (rest : Bytes) :
    segments lf (line ++ lineEnd withCr ++ rest) =
      (line ++ lineEnd withCr) :: segments lf rest := by
  cases withCr with
  | true =>
      have free : lf ∉ line ++ [cr] := by simp [noLf, lf, cr]
      simpa [lineEnd] using segments_terminated_append free rest
  | false => simpa [lineEnd] using segments_terminated_append noLf rest

theorem find_append {first : Bytes} {ch : UInt8} (free : ch ∉ first)
    (rest : Bytes) : find (first ++ ch :: rest) ch 0 = some first.length := by
  have absent : first.findIdx? (· = ch) = none := by
    rw [List.findIdx?_eq_none_iff]
    intro other member
    simpa using ne_of_mem_of_not_mem member free
  simp [find, List.findIdx?_append, List.findIdx?_cons, absent]

theorem method_free {method : Method} (known : method ≠ .UNKNOWN) :
    sp ∉ methodToString method ∧ lf ∉ methodToString method := by
  cases method <;> first | contradiction | decide

theorem version_free {version : Bytes}
    (supported : version = text "HTTP/1.1" ∨ version = text "HTTP/1.0") :
    lf ∉ version ∧ version.getLast? ≠ some cr := by
  rcases supported with rfl | rfl <;> decide

/-- A request line within its limit is accepted. -/
theorem parseRequestLine_requestLine {method : Method} {path version : Bytes}
    (known : method ≠ .UNKNOWN) (pathFree : sp ∉ path)
    (supported : version = text "HTTP/1.1" ∨ version = text "HTTP/1.0")
    (short : (requestLine method path version).length ≤ maxRequestLine)
    (parser : HttpParser) :
    parser.parseRequestLine (requestLine method path version) =
      ({ parser with
          state := .headers
          request := { parser.request with method, path, version } },
        .incomplete) := by
  have firstSp : find (requestLine method path version) sp 0 =
      some (methodToString method).length :=
    find_append (method_free known).1 _
  have rest : (requestLine method path version).drop
      ((methodToString method).length + 1) = path ++ sp :: version := by
    rw [requestLine, List.drop_append]
    simp
  have secondSp : find (requestLine method path version) sp
      ((methodToString method).length + 1) =
        some ((methodToString method).length + 1 + path.length) := by
    have found := find_append pathFree version
    rw [find, List.drop_zero, Option.map_eq_some_iff] at found
    rcases found with ⟨index, found, equal⟩
    rw [find, rest, found, Option.map_some]
    congr 1
    omega
  have methodText : (requestLine method path version).take
      (methodToString method).length = methodToString method :=
    List.take_left
  have versionText : (requestLine method path version).drop
      ((methodToString method).length + 1 + path.length + 1) = version := by
    rw [Nat.add_assoc, ← List.drop_drop, rest, List.drop_append]
    simp
  have pathText : ((requestLine method path version).drop
      ((methodToString method).length + 1)).take
        ((methodToString method).length + 1 + path.length -
          (methodToString method).length - 1) = path := by
    rw [rest]
    apply List.take_left'
    omega
  have accepted : ¬ (version ≠ text "HTTP/1.1" ∧
      version ≠ text "HTTP/1.0") := by
    rintro ⟨notOne, notZero⟩
    exact supported.elim notOne notZero
  simp only [HttpParser.parseRequestLine, if_neg (Nat.not_lt.2 short),
    firstSp, secondSp, methodText, stringToMethod_methodToString known,
    versionText, if_neg known, if_neg accepted, pathText]

/-- A header line is entered while there is room. -/
theorem parseHeaderLine_colon {name : Bytes} (noColon : colonByte ∉ name)
    (value : Bytes) {parser : HttpParser}
    (room : parser.request.headers.keys.card < maxHeaderCount) :
    parser.parseHeaderLine (name ++ colonByte :: value) =
      ({ parser with
          request :=
            { parser.request with
              headers :=
                parser.request.headers.insert (toLower name) (trim value) } },
        .incomplete) := by
  have nonempty : name ++ colonByte :: value ≠ [] := by simp
  have colon : find (name ++ colonByte :: value) colonByte 0 =
      some name.length :=
    find_append noColon _
  have before : (name ++ colonByte :: value).take name.length = name :=
    List.take_left
  have after : (name ++ colonByte :: value).drop (name.length + 1) =
      value := by
    rw [List.drop_append]
    simp
  simp only [HttpParser.parseHeaderLine, if_neg nonempty,
    if_neg (Nat.not_le.2 room), colon, before, after]

namespace WireRequest

open HttpParser

variable {maxBodySize : Nat} (wire : WireRequest maxBodySize)

theorem lf_not_mem_requestLine :
    lf ∉ requestLine wire.method wire.path wire.version := by
  have method := (method_free wire.known).2
  have version := (version_free wire.supported).1
  simp [requestLine, method, version, wire.pathFree.2, lf, sp]

theorem requestLine_noCr :
    (requestLine wire.method wire.path wire.version).getLast? ≠ some cr := by
  have last := (version_free wire.supported).2
  have nonempty : wire.version ≠ [] := by
    rcases wire.supported with equal | equal <;> rw [equal] <;> decide
  have split : requestLine wire.method wire.path wire.version =
      (methodToString wire.method ++ sp :: (wire.path ++ [sp])) ++
        wire.version := by
    simp [requestLine]
  rwa [split, List.getLast?_append_of_ne_nil _ nonempty]

theorem header_lf_not_mem (header : WireHeader) : lf ∉ header.line := by
  have free := header.noLf
  rw [List.mem_append, not_or] at free
  simp [Field.line, free, lf, colonByte]

theorem header_noCr (header : WireHeader) :
    header.line.getLast? ≠ some cr := by
  rw [Field.line]
  by_cases empty : header.value = []
  · rw [empty, List.getLast?_append_of_ne_nil _ (by simp)]
    decide
  · rw [← List.singleton_append, ← List.append_assoc,
      List.getLast?_append_of_ne_nil _ empty]
    exact header.noCr

/-! ## The parser after some lines of the head -/

/-- The parser after the request line and some header lines. -/
def afterLines (lines : List WireHeader) : HttpParser :=
  { fresh maxBodySize with
    state := .headers
    request :=
      { method := wire.method
        path := wire.path
        version := wire.version
        headers := enterFields ∅ (lines.map WireHeader.toField) } }

/-- The parser after the head and some of the body. -/
def inBody (part : Bytes) : HttpParser :=
  { fresh maxBodySize with
    state := .body
    request := { wire.toRequest with body := part }
    bodyRemaining := wire.body.length - part.length }

/-- The parser after the request. -/
def finished : HttpParser :=
  { fresh maxBodySize with state := .complete, request := wire.toRequest }

theorem parse_requestLine :
    (fresh maxBodySize).parseLine
        (requestLine wire.method wire.path wire.version) =
      (wire.afterLines [], .incomplete) := by
  have short : (requestLine wire.method wire.path wire.version).length ≤
      maxRequestLine := by
    have fits := wire.lineFits
    rw [List.length_append] at fits
    exact Nat.le_trans (Nat.le_add_right _ _) fits
  rw [parseLine_requestLine rfl, parseRequestLine_requestLine wire.known
    wire.pathFree.1 wire.supported short]
  rfl

/-- Entering one more header line. -/
theorem parse_header (lines : List WireHeader) (header : WireHeader)
    (room : (enterFields ∅ (lines.map WireHeader.toField)).keys.card <
      maxHeaderCount) :
    (wire.afterLines lines).parseLine header.line =
      (wire.afterLines (lines ++ [header]), .incomplete) := by
  rw [parseLine_headers rfl, Field.line,
    parseHeaderLine_colon header.noColon header.value room, afterLines,
    afterLines, List.map_append, List.map_singleton, enterFields_concat]
  rfl

/-- The blank line of a request without a body. -/
theorem parse_blank_finished (noBody : wire.body = []) :
    (wire.afterLines wire.headers).parseLine [] =
      (wire.finished, .complete) := by
  have none : (wire.afterLines wire.headers).request.contentLength = 0 := by
    have framed := wire.framed
    rw [noBody] at framed
    exact framed
  rw [parseLine_headers rfl]
  simp only [parseHeaderLine, if_true, none, gt_iff_lt, Nat.lt_irrefl,
    if_false]
  simp only [afterLines, finished, toRequest, noBody]
  rfl

/-- The blank line of a request with a body. -/
theorem parse_blank_inBody (hasBody : wire.body ≠ []) :
    (wire.afterLines wire.headers).parseLine [] =
      (wire.inBody [], .incomplete) := by
  have announced : (wire.afterLines wire.headers).request.contentLength =
      wire.body.length := wire.framed
  have positive := List.length_pos_of_ne_nil hasBody
  have small : ¬ wire.body.length >
      (wire.afterLines wire.headers).maxBodySize := Nat.not_lt.2 wire.bodyFits
  rw [parseLine_headers rfl]
  simp only [parseHeaderLine, if_true, announced, gt_iff_lt, if_pos positive]
  rw [if_neg small]
  rfl

/-! ## Feeding the head -/

/-- Feeding one line that the parser accepts and goes on after. -/
theorem feed_lineEnd {parser next : HttpParser} {line : Bytes}
    (inHead : parser.InHead) (noPartial : parser.lineBuf = [])
    (noLf : lf ∉ line) (noCr : line.getLast? ≠ some cr) (withCr : Bool)
    (fits : (line ++ lineEnd withCr).length ≤ maxHeaderSize)
    (parsed : parser.parseLine line = (next, .incomplete)) (rest : Bytes) :
    parser.feed (line ++ lineEnd withCr ++ rest) = next.feed rest := by
  have nextPartial : next.lineBuf = [] :=
    (parseLine_lineBuf inHead parsed).trans noPartial
  rw [feed_eq_resume inHead noPartial, segments_lineEnd noLf, scanHead,
    if_neg (Nat.not_lt.2 fits), lineOf_lineEnd noCr, parsed]
  rcases (HttpParser.parseLine_incomplete inHead parsed).2.2.2 with
    phase | phase
  · simp only [if_pos phase, HeadScan.resume, flatten_segments]
  · have notBody : next.state ≠ .body := by simp [phase]
    simp only [if_neg notBody]
    exact (feed_eq_resume (Or.inr phase) nextPartial rest).symm

theorem feed_requestLine (rest : Bytes) :
    (fresh maxBodySize).feed
        (requestLine wire.method wire.path wire.version ++
          lineEnd wire.lineCr ++ rest) =
      (wire.afterLines []).feed rest :=
  feed_lineEnd (Or.inl rfl) rfl wire.lf_not_mem_requestLine
    wire.requestLine_noCr wire.lineCr wire.lineFits wire.parse_requestLine rest

/-- Feeding some of the header lines. -/
theorem feed_headers (earlier lines more : List WireHeader)
    (split : wire.headers = earlier ++ lines ++ more) (rest : Bytes) :
    (wire.afterLines earlier).feed
        ((lines.map WireHeader.bytes).flatten ++ rest) =
      (wire.afterLines (earlier ++ lines)).feed rest := by
  induction lines generalizing earlier with
  | nil => simp
  | cons header lines ih =>
      have room : (enterFields ∅ (earlier.map WireHeader.toField)).keys.card <
          maxHeaderCount := by
        have few := wire.few earlier.length (by simp [split])
        rwa [split, List.append_assoc, List.take_left] at few
      have one : (wire.afterLines earlier).feed
          (header.bytes ++ ((lines.map WireHeader.bytes).flatten ++ rest)) =
            (wire.afterLines (earlier ++ [header])).feed
              ((lines.map WireHeader.bytes).flatten ++ rest) :=
        feed_lineEnd (Or.inr rfl) rfl (header_lf_not_mem header)
          (header_noCr header) header.withCr
          (by simpa [Field.line] using header.fits)
          (wire.parse_header earlier header room) _
      rw [List.map_cons, List.flatten_cons, List.append_assoc, one,
        ih (earlier ++ [header]) (by simp [split])]
      simp

/-- Feeding the lines before the blank one, as far as they are given. -/
theorem feed_lines {lines : List Bytes} (begins : lines <+: wire.lines) :
    ∃ parser : HttpParser, parser.InHead ∧
      (lines = wire.lines → parser = wire.afterLines wire.headers) ∧
      ∀ rest, (fresh maxBodySize).feed (lines.flatten ++ rest) =
        parser.feed rest := by
  cases lines with
  | nil => exact ⟨fresh maxBodySize, Or.inl rfl, nofun, fun _ => rfl⟩
  | cons first others =>
      rcases List.cons_prefix_cons.1 begins with ⟨rfl, others_begin⟩
      have taken : ∃ count, others =
          (wire.headers.take count).map WireHeader.bytes := by
        refine ⟨others.length, ?_⟩
        rw [List.map_take]
        exact List.prefix_iff_eq_take.1 others_begin
      rcases taken with ⟨count, rfl⟩
      refine ⟨wire.afterLines (wire.headers.take count), Or.inr rfl, ?_, ?_⟩
      · intro all
        have sizes := congrArg List.length (List.cons.inj all).2
        rw [List.length_map, List.length_map, List.length_take] at sizes
        rw [List.take_of_length_le (min_eq_right_iff.1 sizes)]
      · intro rest
        rw [List.flatten_cons, List.append_assoc, feed_requestLine]
        exact wire.feed_headers [] (wire.headers.take count)
          (wire.headers.drop count) (by simp) rest

theorem feed_head_finished (noBody : wire.body = []) (rest : Bytes) :
    (fresh maxBodySize).feed (wire.head.flatten ++ rest) =
      (wire.finished, .complete) := by
  rcases wire.feed_lines (List.prefix_refl _) with ⟨parser, _, last, fed⟩
  have blank : segments lf (lineEnd wire.blankCr ++ rest) =
      lineEnd wire.blankCr :: segments lf rest :=
    @segments_lineEnd [] (by simp) wire.blankCr rest
  have line : lineOf (lineEnd wire.blankCr) = [] :=
    @lineOf_lineEnd [] (by simp) wire.blankCr
  have small : ¬ (lineEnd wire.blankCr).length > maxHeaderSize := by
    cases wire.blankCr <;> decide
  rw [head, List.flatten_append, List.flatten_singleton, List.append_assoc,
    fed, last rfl, feed_eq_resume (Or.inr rfl) rfl, blank, scanHead,
    if_neg small, line, wire.parse_blank_finished noBody]
  rfl

theorem feed_head_inBody (hasBody : wire.body ≠ []) (rest : Bytes) :
    (fresh maxBodySize).feed (wire.head.flatten ++ rest) =
      (wire.inBody []).feed rest := by
  rcases wire.feed_lines (List.prefix_refl _) with ⟨parser, _, last, fed⟩
  have small : ([] ++ lineEnd wire.blankCr).length ≤ maxHeaderSize := by
    cases wire.blankCr <;> decide
  rw [head, List.flatten_append, List.flatten_singleton, List.append_assoc,
    fed, last rfl]
  exact feed_lineEnd (Or.inr rfl) rfl (by simp) (by simp) wire.blankCr small
    (wire.parse_blank_inBody hasBody) rest

/-! ## Feeding the body -/

theorem inBody_progress (hasBody : wire.body ≠ []) :
    (wire.inBody []).Progress where
  noPartial := rfl
  noError := rfl
  unfinished := nofun
  inHead _ := rfl
  accepted _ := ⟨wire.known, wire.supported⟩
  inBody _ := by
    refine ⟨List.length_pos_of_ne_nil hasBody, ?_, ?_⟩
    · show 0 + wire.body.length = wire.toRequest.contentLength
      rw [Nat.zero_add]
      exact wire.framed.symm
    · show wire.toRequest.contentLength ≤ maxBodySize
      exact wire.framed.trans_le wire.bodyFits

theorem feed_part {part : Bytes} (short : part.length < wire.body.length) :
    (wire.inBody []).feed part = (wire.inBody part, .incomplete) := by
  by_cases none : part = []
  · rw [none]
    rfl
  · rw [feed_body rfl none]
    rcases parseBody_cases (wire.inBody []) part with
      ⟨enough, _⟩ | ⟨_, equal⟩
    · exact absurd short (Nat.not_lt.2 enough)
    · exact equal

theorem feed_body_finished (hasBody : wire.body ≠ []) :
    (wire.inBody []).feed wire.body = (wire.finished, .complete) := by
  rw [feed_body rfl hasBody]
  rcases parseBody_cases (wire.inBody []) wire.body with
    ⟨_, equal⟩ | ⟨short, _⟩
  · rw [equal]
    have all : wire.body.take (wire.inBody []).bodyRemaining = wire.body :=
      List.take_length
    rw [all]
    rfl
  · exact absurd short (Nat.lt_irrefl _)

/-! ## Feeding the request -/

/-- The whole request in one call. -/
theorem feed_bytes :
    (fresh maxBodySize).feed wire.bytes = (wire.finished, .complete) := by
  rw [bytes]
  by_cases noBody : wire.body = []
  · exact wire.feed_head_finished noBody _
  · rw [wire.feed_head_inBody noBody, wire.feed_body_finished noBody]

/-- The request up to an allowed cut, and whatever follows it. -/
theorem feed_cut {before : Bytes} (begins : before <+: wire.bytes)
    (strict : before.length < wire.bytes.length)
    (allowed : wire.CutAllowed before.length) :
    ∃ parser, (fresh maxBodySize).feed before = (parser, .incomplete) ∧
      ∀ after, (fresh maxBodySize).feed (before ++ after) =
        parser.feed after := by
  have afterHead : wire.head.flatten.length ≤ before.length →
      ∃ parser, (fresh maxBodySize).feed before = (parser, .incomplete) ∧
        ∀ after, (fresh maxBodySize).feed (before ++ after) =
          parser.feed after := by
    intro long
    rcases List.prefix_of_prefix_length_le (List.prefix_append _ wire.body)
      begins long with ⟨part, rfl⟩
    have short : part.length < wire.body.length := by
      rw [bytes, List.length_append, List.length_append] at strict
      exact Nat.lt_of_add_lt_add_left strict
    have hasBody : wire.body ≠ [] :=
      List.ne_nil_of_length_pos (Nat.zero_lt_of_lt short)
    refine ⟨wire.inBody part, ?_, ?_⟩
    · rw [wire.feed_head_inBody hasBody, wire.feed_part short]
    · intro after
      rw [List.append_assoc, wire.feed_head_inBody hasBody,
        feed_body_append (wire.inBody_progress hasBody) rfl,
        wire.feed_part short, andThen, if_pos rfl]
  rcases allowed with ⟨lines, member, count⟩ | long
  · rw [List.mem_inits] at member
    rcases List.prefix_concat_iff.1 member with rfl | earlier
    · exact afterHead (Nat.le_of_eq count)
    · have same : before = lines.flatten := by
        have inBytes : lines.flatten <+: wire.bytes := by
          rcases member with ⟨more, equal⟩
          refine ⟨more.flatten ++ wire.body, ?_⟩
          rw [bytes, ← equal, List.flatten_append, List.append_assoc]
        exact (List.prefix_of_prefix_length_le begins inBytes
          (Nat.le_of_eq count.symm)).eq_of_length count.symm
      rcases wire.feed_lines earlier with ⟨parser, inHead, _, fed⟩
      have unfinished : parser.finish = (parser, .incomplete) := by
        rcases inHead with phase | phase <;> simp [finish, phase]
      refine ⟨parser, ?_, ?_⟩
      · have first := fed []
        rwa [List.append_nil, feed_nil, unfinished, ← same] at first
      · rw [same]
        exact fed
  · exact afterHead long

end WireRequest

end Cppws.Http
