import Cppws.Http.WireRequest

/-!
# The grammar of the parser

What one call of `feed` on a fresh parser accepts, said without the parser.  A
`Derivation` cuts the input into a request line, header lines, a blank line, a
body and whatever follows it.  The parser returns `Complete` exactly if there
is one, and its result is the request of every derivation there is.
-/

namespace Cppws.Http

open Segments

/-! ## Derivations -/

/-- A terminated line, whose text is what precedes its LF or CRLF. -/
def IsLine (segment content : Bytes) : Prop :=
  ∃ raw, lf ∉ raw ∧ segment = raw ++ [lf] ∧ content = popBackIf cr raw

namespace Field

/-- The value of the last field with a name. -/
def last (fields : List Field) (key : Bytes) : Option Bytes :=
  (fields.reverse.find? fun field => field.key = key).map fun field =>
    trim field.value

/-- How many names there are. -/
def names (fields : List Field) : Nat :=
  (fields.map key).toFinset.card

end Field

/-- The lines of a request up to the blank one. -/
structure HeadLines where
  first : Bytes
  lines : List Bytes
  blank : Bytes
  method : Method
  path : Bytes
  version : Bytes
  fields : List Field
  firstLine : IsLine first (requestLine method path version)
  headerLines :
    List.Forall₂ (fun line (field : Field) => IsLine line field.line)
      lines fields
  blankLine : IsLine blank []
  known : method ≠ .UNKNOWN
  pathFree : sp ∉ path
  supported : version = text "HTTP/1.1" ∨ version = text "HTTP/1.0"

/-- A request at the beginning of `data`. -/
structure Derivation (maxBodySize : Nat) (data : Bytes) extends HeadLines where
  body : Bytes
  rest : Bytes
  headers : HeaderMap
  whole : data = first ++ lines.flatten ++ blank ++ body ++ rest
  few : ∀ count < fields.length,
    Field.names (fields.take count) < maxHeaderCount
  entered : ∀ key, headers.lookup key = Field.last fields key
  framed : ({ headers } : HttpRequest).contentLength = body.length
  bodyFits : body.length ≤ maxBodySize

/-- The request, whatever follows it. -/
def Derivation.request {maxBodySize : Nat} {data : Bytes}
    (derivation : Derivation maxBodySize data) : HttpRequest where
  method := derivation.method
  path := derivation.path
  version := derivation.version
  headers := derivation.headers
  body := derivation.body

def hasText (segment : Bytes) : Bool :=
  HttpParser.lineOf segment ≠ []

/-- The lines before the first blank one are within the limit. -/
def HeadFits (data : Bytes) : Prop :=
  ∀ segment ∈ (segments lf data).takeWhile hasText,
    segment.length ≤ maxHeaderSize

instance (data : Bytes) : Decidable (HeadFits data) :=
  inferInstanceAs (Decidable (∀ segment ∈ _, _))

/-! ## Lines and fields -/

theorem IsLine.lineOf {segment content : Bytes}
    (line : IsLine segment content) :
    HttpParser.lineOf segment = content := by
  rcases line with ⟨raw, _, rfl, rfl⟩
  exact HttpParser.lineOf_terminated raw

/-- A line at the beginning is the first segment. -/
theorem IsLine.segments_append {segment content : Bytes}
    (line : IsLine segment content) (rest : Bytes) :
    segments lf (segment ++ rest) = segment :: segments lf rest := by
  rcases line with ⟨raw, free, rfl, _⟩
  rw [List.append_assoc, List.singleton_append,
    segments_terminated_append free]

theorem lookup_enterFields (fields : List Field) (key : Bytes) :
    (enterFields ∅ fields).lookup key = Field.last fields key := by
  induction fields using List.reverseRecOn with
  | nil => exact Finmap.lookup_empty key
  | append_singleton fields field ih =>
      rw [enterFields_concat, Field.last, List.reverse_concat,
        List.find?_cons]
      by_cases same : field.key = key
      · rw [same, Finmap.lookup_insert]
        simp
      · rw [Finmap.lookup_insert_of_ne _ (Ne.symm same), ih]
        simp [same, Field.last]

theorem keys_enterFields (fields : List Field) :
    (enterFields ∅ fields).keys = (fields.map Field.key).toFinset := by
  ext key
  induction fields using List.reverseRecOn with
  | nil => simp [enterFields]
  | append_singleton fields field ih =>
      rw [enterFields_concat, Finmap.mem_keys, Finmap.mem_insert,
        ← Finmap.mem_keys, ih]
      simp

/-- The map is determined by the last value of every name. -/
theorem Derivation.headers_eq {maxBodySize : Nat} {data : Bytes}
    (derivation : Derivation maxBodySize data) :
    derivation.headers = enterFields ∅ derivation.fields := by
  apply Finmap.ext_lookup
  intro key
  rw [derivation.entered, lookup_enterFields]

/-! ## What a derivation makes of the parser -/

open HttpParser

/-- The lines of some fields are segments of the input. -/
theorem segments_lines {lines : List Bytes} {fields : List Field}
    (entered : List.Forall₂
      (fun line (field : Field) => IsLine line field.line)
      lines fields) (rest : Bytes) :
    segments lf (lines.flatten ++ rest) = lines ++ segments lf rest := by
  induction entered with
  | nil => rfl
  | @cons line field lines fields isLine _ ih =>
      rw [List.flatten_cons, List.append_assoc, isLine.segments_append, ih]
      rfl

theorem Field.line_ne_nil (field : Field) : field.line ≠ [] := by
  simp [Field.line]

/-- The parser with some more fields. -/
def HttpParser.entering (parser : HttpParser) (fields : List Field) :
    HttpParser :=
  { parser with
    request :=
      { parser.request with
        headers := enterFields parser.request.headers fields } }

/-- Scanning the lines of some fields that there is room for. -/
theorem scanHead_lines {lines : List Bytes} {fields : List Field}
    (entered : List.Forall₂
      (fun line (field : Field) => IsLine line field.line)
      lines fields) (fits : ∀ line ∈ lines, line.length ≤ maxHeaderSize)
    {parser : HttpParser} (phase : parser.state = .headers)
    (room : ∀ count < fields.length,
      (enterFields parser.request.headers (fields.take count)).keys.card <
        maxHeaderCount) (more : List Bytes) :
    parser.scanHead (lines ++ more) =
      (parser.entering fields).scanHead more := by
  induction entered generalizing parser with
  | nil => rfl
  | @cons line field lines fields isLine _ ih =>
      have short := fits line List.mem_cons_self
      have first : parser.parseLine (lineOf line) =
          (parser.entering [field], .incomplete) := by
        rw [isLine.lineOf, parseLine_headers phase]
        exact parseHeaderLine_colon field.noColon field.value
          (room 0 (Nat.succ_pos _))
      have goesOn : (parser.entering [field]).state ≠ .body := by
        rw [show (parser.entering [field]).state = .headers from phase]
        decide
      rw [List.cons_append, HttpParser.scanHead, if_neg (Nat.not_lt.2 short),
        first]
      simp only [if_neg goesOn]
      apply ih
      · exact fun other member => fits other (List.mem_cons_of_mem _ member)
      · exact phase
      · exact fun count before => room (count + 1) (Nat.succ_lt_succ before)

/-- A blank line is short. -/
theorem IsLine.blank_fits {blank : Bytes} (isLine : IsLine blank []) :
    blank.length ≤ maxHeaderSize := by
  rcases isLine with ⟨raw, _, rfl, nothing⟩
  have short : raw.length ≤ 1 := by
    unfold popBackIf at nothing
    split_ifs at nothing
    · have popped := congrArg List.length nothing
      rw [List.length_nil, List.length_dropLast] at popped
      exact Nat.sub_eq_zero_iff_le.1 popped.symm
    · rw [← nothing]
      exact Nat.zero_le 1
  rw [List.length_append]
  exact Nat.le_trans (Nat.add_le_add_right short 1) (by decide)

/-- The blank line and what follows it. -/
theorem resume_blank (parser : HttpParser) (phase : parser.state = .headers)
    (noBody : parser.request.body = []) {blank : Bytes}
    (isLine : IsLine blank []) (others : List Bytes) :
    if parser.request.contentLength ≤ others.flatten.length ∧
        parser.request.contentLength ≤ parser.maxBodySize then
      (parser.scanHead (blank :: others)).resume =
        ({ parser with
            state := .complete
            request :=
              { parser.request with
                body := others.flatten.take parser.request.contentLength }
            bodyRemaining := 0 }, .complete)
    else
      (parser.scanHead (blank :: others)).resume.2 ≠ .complete := by
  rw [HttpParser.scanHead, if_neg (Nat.not_lt.2 isLine.blank_fits),
    isLine.lineOf, parseLine_headers phase]
  simp only [HttpParser.parseHeaderLine, if_true]
  by_cases positive : parser.request.contentLength > 0
  · by_cases large : parser.request.contentLength > parser.maxBodySize
    · rw [if_neg fun held => Nat.not_le.2 large held.2]
      simp only [if_pos positive, if_pos large]
      intro done
      cases done
    · simp only [if_pos positive, if_neg large, if_true, HeadScan.resume]
      by_cases empty : others.flatten = []
      · rw [empty, if_neg fun held => Nat.not_le.2 positive held.1]
        simp [finish]
      · rw [feed_body rfl empty]
        rcases parseBody_cases
          { parser with
            state := .body
            bodyRemaining := parser.request.contentLength }
          others.flatten with ⟨enough, finished⟩ | ⟨short, unfinished⟩
        · rw [if_pos ⟨enough, Nat.not_lt.1 large⟩, finished]
          simp only [noBody, List.nil_append]
        · rw [if_neg fun held => Nat.not_le.2 short held.1, unfinished]
          intro done
          cases done
  · have nothing : parser.request.contentLength = 0 :=
      Nat.eq_zero_of_not_pos positive
    rw [if_pos ⟨nothing ▸ Nat.zero_le _, nothing ▸ Nat.zero_le _⟩]
    simp only [nothing, gt_iff_lt, Nat.lt_irrefl, if_false, List.take_zero,
      HeadScan.resume, ← noBody]

/-- The parser after the request line. -/
def HttpParser.starting (parser : HttpParser) (method : Method)
    (path version : Bytes) : HttpParser :=
  { parser with
    state := .headers
    request := { parser.request with method, path, version } }

/-- Scanning a request line. -/
theorem scanHead_requestLine {first : Bytes} {method : Method}
    {path version : Bytes}
    (isLine : IsLine first (requestLine method path version))
    (known : method ≠ .UNKNOWN) (pathFree : sp ∉ path)
    (supported : version = text "HTTP/1.1" ∨ version = text "HTTP/1.0")
    (fits : first.length ≤ maxHeaderSize) (maxBodySize : Nat)
    (more : List Bytes) :
    (fresh maxBodySize).scanHead (first :: more) =
      ((fresh maxBodySize).starting method path version).scanHead more := by
  have textFits : (requestLine method path version).length ≤
      maxRequestLine := by
    refine Nat.le_trans ?_ fits
    rcases isLine with ⟨raw, _, rfl, stripped⟩
    rw [stripped, List.length_append]
    refine Nat.le_trans ?_ (Nat.le_add_right _ _)
    unfold popBackIf
    split_ifs
    · rw [List.length_dropLast]
      exact Nat.sub_le _ _
    · exact Nat.le_refl _
  have parsed : (fresh maxBodySize).parseLine (lineOf first) =
      ((fresh maxBodySize).starting method path version, .incomplete) := by
    rw [isLine.lineOf, parseLine_requestLine rfl]
    exact parseRequestLine_requestLine known pathFree supported textFits _
  rw [HttpParser.scanHead, if_neg (Nat.not_lt.2 fits), parsed]
  rfl

theorem fits_of_hasText {lines more : List Bytes}
    (texts : ∀ line ∈ lines, hasText line = true)
    (fits : ∀ segment ∈ (lines ++ more).takeWhile hasText,
      segment.length ≤ maxHeaderSize) :
    ∀ line ∈ lines, line.length ≤ maxHeaderSize := by
  intro line member
  apply fits
  rw [List.takeWhile_append_of_pos texts]
  exact List.mem_append_left _ member

/-- The line of a field has text. -/
theorem hasText_of_fields {lines : List Bytes} {fields : List Field}
    (entered : List.Forall₂
      (fun line (field : Field) => IsLine line field.line)
      lines fields) : ∀ line ∈ lines, hasText line = true := by
  induction entered with
  | nil => exact fun line member => absurd member List.not_mem_nil
  | @cons line field lines fields isLine _ ih =>
      intro other member
      rcases List.mem_cons.1 member with rfl | later
      · rw [hasText, isLine.lineOf]
        exact decide_eq_true field.line_ne_nil
      · exact ih other later

namespace HeadLines

def bytes (head : HeadLines) : Bytes :=
  head.first ++ head.lines.flatten ++ head.blank

theorem segments_append (head : HeadLines) (rest : Bytes) :
    segments lf (head.bytes ++ rest) =
      (head.first :: head.lines) ++ head.blank :: segments lf rest := by
  rw [bytes, List.append_assoc, List.append_assoc,
    head.firstLine.segments_append, segments_lines head.headerLines,
    head.blankLine.segments_append, List.cons_append]

end HeadLines

/-- A head whose lines are each within the limit. -/
structure LongHead extends HeadLines where
  fits : ∀ line ∈ first :: lines, line.length ≤ maxHeaderSize

/-- A head within all limits. -/
structure RequestHead extends LongHead where
  few : ∀ count < fields.length,
    Field.names (fields.take count) < maxHeaderCount

namespace RequestHead

/-- The parser that has read the head but for the blank line. -/
def parser (head : RequestHead) (maxBodySize : Nat) : HttpParser :=
  ((fresh maxBodySize).starting head.method head.path head.version).entering
    head.fields

theorem scanHead_eq (head : RequestHead) (maxBodySize : Nat) (rest : Bytes) :
    (fresh maxBodySize).scanHead (segments lf (head.bytes ++ rest)) =
      (head.parser maxBodySize).scanHead (head.blank :: segments lf rest) := by
  have room : ∀ count < head.fields.length,
      (enterFields ∅ (head.fields.take count)).keys.card <
        maxHeaderCount := by
    intro count before
    rw [keys_enterFields]
    exact head.few count before
  rw [head.segments_append, List.cons_append,
    scanHead_requestLine head.firstLine head.known head.pathFree
      head.supported (head.fits head.first List.mem_cons_self)]
  exact scanHead_lines head.headerLines
    (fun line member => head.fits line (List.mem_cons_of_mem _ member)) rfl
    room _

end RequestHead

namespace Derivation

variable {maxBodySize : Nat} {data : Bytes}
  (derivation : Derivation maxBodySize data)

/-- The head and what follows it. -/
theorem data_eq :
    data = derivation.bytes ++ (derivation.body ++ derivation.rest) :=
  derivation.whole.trans (List.append_assoc _ _ _)

theorem segments_eq :
    segments lf data =
      (derivation.first :: derivation.lines) ++ derivation.blank ::
        segments lf (derivation.body ++ derivation.rest) := by
  conv_lhs => rw [derivation.data_eq]
  exact derivation.segments_append _

/-- The lines of the derivation are within the limit. -/
theorem fits (short : HeadFits data) :
    ∀ line ∈ derivation.first :: derivation.lines,
      line.length ≤ maxHeaderSize := by
  rw [HeadFits, derivation.segments_eq] at short
  refine fits_of_hasText ?_ short
  intro line member
  rcases List.mem_cons.1 member with rfl | later
  · rw [hasText, derivation.firstLine.lineOf]
    simp [requestLine]
  · exact hasText_of_fields derivation.headerLines line later

/-- The head of the derivation. -/
def head (short : HeadFits data) : RequestHead :=
  { derivation with fits := derivation.fits short }

/-- The parser after the lines of the derivation. -/
theorem scanHead_eq (short : HeadFits data) :
    (fresh maxBodySize).scanHead (segments lf data) =
      (((fresh maxBodySize).starting derivation.method derivation.path
          derivation.version).entering derivation.fields).scanHead
        (derivation.blank ::
          segments lf (derivation.body ++ derivation.rest)) := by
  conv_lhs => rw [derivation.data_eq]
  exact (derivation.head short).scanHead_eq maxBodySize _

/-- The parser returns `Complete` with the request of the derivation. -/
theorem feed (short : HeadFits data) :
    (fresh maxBodySize).feed data =
      ({ fresh maxBodySize with
          state := .complete
          request := derivation.request }, .complete) := by
  have announced :
      (((fresh maxBodySize).starting derivation.method derivation.path
        derivation.version).entering
          derivation.fields).request.contentLength =
        derivation.body.length := by
    rw [← derivation.framed, derivation.headers_eq]
    rfl
  rw [feed_eq_resume (Or.inl rfl) rfl, derivation.scanHead_eq short]
  have blank := resume_blank
    (((fresh maxBodySize).starting derivation.method derivation.path
      derivation.version).entering derivation.fields) rfl rfl
    derivation.blankLine (segments lf (derivation.body ++ derivation.rest))
  rw [announced, flatten_segments, if_pos] at blank
  · rw [blank, List.take_left, request, derivation.headers_eq]
    rfl
  · rw [List.length_append]
    exact ⟨Nat.le_add_right _ _, derivation.bodyFits⟩

end Derivation

/-! ## A derivation for what is accepted -/

theorem methodToString_stringToMethod {str : Bytes}
    (known : stringToMethod str ≠ .UNKNOWN) :
    methodToString (stringToMethod str) = str := by
  unfold stringToMethod at known ⊢
  split_ifs at known ⊢ with get head post put delete options patch
  all_goals first | exact absurd rfl known | symm; assumption

/-- What a search finds cuts the list. -/
theorem eq_append_of_find {data : Bytes} {ch : UInt8} {index : Nat}
    (found : find data ch 0 = some index) :
    ch ∉ data.take index ∧
      data = data.take index ++ ch :: data.drop (index + 1) := by
  rw [find, List.drop_zero, Option.map_eq_some_iff] at found
  rcases found with ⟨position, found, equal⟩
  rw [Nat.zero_add] at equal
  subst equal
  rcases segments_of_findIdx?_some found with ⟨chunk, free, _⟩
  refine ⟨free, ?_⟩
  conv_lhs => rw [← List.take_append_drop (position + 1) data, chunk]
  simp

/-- An accepted line is a request line. -/
theorem exists_requestLine {parser next : HttpParser} {line : Bytes}
    (accepted : parser.parseRequestLine line = (next, .incomplete)) :
    ∃ method path version, method ≠ .UNKNOWN ∧ sp ∉ path ∧
      (version = text "HTTP/1.1" ∨ version = text "HTTP/1.0") ∧
      line = requestLine method path version ∧
      line.length ≤ maxRequestLine := by
  simp only [HttpParser.parseRequestLine] at accepted
  by_cases long : line.length > maxRequestLine
  · simp [if_pos long] at accepted
  · simp only [if_neg long] at accepted
    cases first : find line sp 0 with
    | none => simp [first] at accepted
    | some sp1 =>
        rcases eq_append_of_find first with ⟨methodFree, cut⟩
        cases second : find line sp (sp1 + 1) with
        | none => simp [first, second] at accepted
        | some sp2 =>
            have unknown : stringToMethod (line.take sp1) ≠ .UNKNOWN := by
              intro unknown
              simp [first, second, unknown] at accepted
            have supported : line.drop (sp2 + 1) = text "HTTP/1.1" ∨
                line.drop (sp2 + 1) = text "HTTP/1.0" := by
              by_contra unsupported
              rw [not_or] at unsupported
              simp [first, second, unknown, unsupported] at accepted
            rw [find, Option.map_eq_some_iff] at second
            rcases second with ⟨offset, second, rfl⟩
            have found : find (line.drop (sp1 + 1)) sp 0 = some offset := by
              rw [find, List.drop_zero, second]
              simp
            rcases eq_append_of_find found with ⟨pathFree, rest⟩
            rw [List.drop_drop] at rest
            refine ⟨stringToMethod (line.take sp1),
              (line.drop (sp1 + 1)).take offset,
              line.drop (sp1 + 1 + (offset + 1)), unknown, pathFree,
              supported, ?_, Nat.not_lt.1 long⟩
            rw [requestLine, methodToString_stringToMethod unknown, ← rest]
            exact cut

/-- A text with a colon is the line of a field. -/
theorem exists_field {line : Bytes} {colon : Nat}
    (found : find line colonByte 0 = some colon) :
    ∃ field : Field, field.line = line := by
  rcases eq_append_of_find found with ⟨free, cut⟩
  exact ⟨⟨line.take colon, line.drop (colon + 1), free⟩, cut.symm⟩

/-- A segment is a line with its text, unless it is the last one. -/
theorem isLine_or_last {data segment : Bytes} {rest : List Bytes}
    (cut : segments lf data = segment :: rest) :
    IsLine segment (lineOf segment) ∨ rest = [] ∧
      lineOf segment ≠ [] := by
  rcases first_terminated_or_last cut with
    ⟨raw, free, rfl⟩ | ⟨free, last⟩
  · exact Or.inl ⟨raw, free, rfl, lineOf_terminated raw⟩
  · refine Or.inr ⟨last, ?_⟩
    rw [lineOf_of_not_mem free]
    exact first_ne_nil cut

/-- The scan ends without a request. -/
def HttpParser.HeadScan.Refuses : HeadScan → Prop
  | .unfinished next => next.state = .headers
  | .returned _ result => result = .error
  | _ => False

theorem HttpParser.HeadScan.Refuses.not_complete {scan : HeadScan}
    (refuses : scan.Refuses) : scan.resume.2 ≠ .complete := by
  cases scan with
  | unfinished next => exact nofun
  | returned next result =>
      have error : result = .error := refuses
      rw [error]
      exact nofun
  | body next rest => exact refuses.elim
  | overlong next => exact refuses.elim

/-- The header lines and the blank line, unless the scan refuses them. -/
theorem exists_fields {data : Bytes} {pieces : List Bytes}
    (cut : segments lf data = pieces)
    (fits : ∀ segment ∈ pieces.takeWhile hasText,
      segment.length ≤ maxHeaderSize)
    {parser : HttpParser} (phase : parser.state = .headers) :
    (parser.scanHead pieces).Refuses ∨
      ∃ lines fields blank others, pieces = lines ++ blank :: others ∧
        List.Forall₂ (fun line (field : Field) => IsLine line field.line)
          lines fields ∧
        IsLine blank [] ∧
        ∀ count < fields.length,
          (enterFields parser.request.headers
            (fields.take count)).keys.card < maxHeaderCount := by
  induction pieces generalizing data parser with
  | nil => exact Or.inl phase
  | cons segment rest ih =>
      by_cases blank : lineOf segment = []
      · rcases isLine_or_last cut with isLine | ⟨_, nonempty⟩
        · rw [blank] at isLine
          exact Or.inr ⟨[], [], segment, rest, rfl, .nil, isLine, nofun⟩
        · exact absurd blank nonempty
      · have texted : hasText segment = true := decide_eq_true blank
        rw [List.takeWhile_cons_of_pos texted] at fits
        have short := fits segment List.mem_cons_self
        rw [HttpParser.scanHead, if_neg (Nat.not_lt.2 short),
          parseLine_headers phase]
        rcases parseHeaderLine_cases parser (lineOf segment) with
          ⟨empty, _⟩ | ⟨empty, _⟩ | ⟨_, room, colon, found, equal⟩ |
            ⟨bodyRemaining, msg, _, equal⟩
        · exact absurd empty blank
        · exact absurd empty blank
        · rcases exists_field found with ⟨field, same⟩
          have entered : parser.parseHeaderLine (lineOf segment) =
              (parser.entering [field], .incomplete) := by
            rw [← same]
            exact parseHeaderLine_colon field.noColon field.value room
          have goesOn : (parser.entering [field]).state ≠ .body := by
            rw [show (parser.entering [field]).state = .headers from phase]
            decide
          rw [entered]
          simp only [if_neg goesOn]
          rcases isLine_or_last cut with isLine | ⟨rfl, _⟩
          · rcases ih (segments_tail cut)
              (fun other member => fits other (List.mem_cons_of_mem _ member))
              (show (parser.entering [field]).state = .headers from phase)
              with refuses | ⟨lines, fields, blankLine, others, split,
                linesOf, isBlank, few⟩
            · exact Or.inl refuses
            · refine Or.inr ⟨segment :: lines, field :: fields, blankLine,
                others, ?_, .cons (same ▸ isLine) linesOf, isBlank, ?_⟩
              · rw [split, List.cons_append]
              · intro count before
                cases count with
                | zero => exact room
                | succ count => exact few count (Nat.lt_of_succ_lt_succ before)
          · exact Or.inl phase
        · rw [equal]
          exact Or.inl rfl

/-- The rest of a request whose request line has been accepted. -/
theorem exists_framed {maxBodySize : Nat} {data : Bytes} {pieces : List Bytes}
    (cut : segments lf data = pieces)
    (fits : ∀ segment ∈ pieces.takeWhile hasText,
      segment.length ≤ maxHeaderSize) (method : Method) (path version : Bytes)
    (complete : (((fresh maxBodySize).starting method path version).scanHead
      pieces).resume.2 = .complete) :
    ∃ lines fields blank body rest,
      data = lines.flatten ++ blank ++ body ++ rest ∧
        List.Forall₂ (fun line (field : Field) => IsLine line field.line)
          lines fields ∧
        IsLine blank [] ∧
        (∀ count < fields.length,
          Field.names (fields.take count) < maxHeaderCount) ∧
        ({ headers := enterFields ∅ fields } : HttpRequest).contentLength =
          body.length ∧
        body.length ≤ maxBodySize := by
  let parser := (fresh maxBodySize).starting method path version
  rcases exists_fields cut fits (show parser.state = .headers from rfl) with
    refuses | ⟨lines, fields, blank, others, split, entered, isBlank, few⟩
  · exact absurd complete refuses.not_complete
  · subst split
    have linesFit := fits_of_hasText (hasText_of_fields entered) fits
    have ends := resume_blank (parser.entering fields) rfl rfl isBlank others
    rw [scanHead_lines entered linesFit rfl few] at complete
    split_ifs at ends with framed
    · have whole := flatten_segments lf data
      rw [cut] at whole
      refine ⟨lines, fields, blank,
        others.flatten.take (parser.entering fields).request.contentLength,
        others.flatten.drop (parser.entering fields).request.contentLength,
        ?_, entered, isBlank, ?_, ?_, ?_⟩
      · rw [List.append_assoc, List.take_append_drop, ← whole]
        simp
      · intro count before
        rw [Field.names, ← keys_enterFields]
        exact few count before
      · rw [List.length_take, Nat.min_eq_left framed.1]
        rfl
      · rw [List.length_take, Nat.min_eq_left framed.1]
        exact framed.2
    · exact absurd complete ends

/-- What is accepted has a derivation. -/
theorem exists_derivation {maxBodySize : Nat} {data : Bytes}
    (short : HeadFits data)
    (complete : ((fresh maxBodySize).feed data).2 = .complete) :
    Nonempty (Derivation maxBodySize data) := by
  have inHead : (fresh maxBodySize).InHead := Or.inl rfl
  rw [feed_eq_resume inHead rfl] at complete
  cases cut : segments lf data with
  | nil =>
      rw [cut] at complete
      cases complete
  | cons first pieces =>
      rw [HeadFits, cut] at short
      have firstFits : first.length ≤ maxHeaderSize := by
        by_contra long
        by_cases text : hasText first
        · rw [List.takeWhile_cons_of_pos text] at short
          exact long (short first List.mem_cons_self)
        · have blank : lineOf first = [] := by simpa [hasText] using text
          rcases isLine_or_last cut with isLine | ⟨_, nonempty⟩
          · rw [blank] at isLine
            exact long isLine.blank_fits
          · exact nonempty blank
      rw [cut, HttpParser.scanHead, if_neg (Nat.not_lt.2 firstFits),
        parseLine_requestLine rfl] at complete
      rcases parseRequestLine_cases (fresh maxBodySize) (lineOf first) with
        ⟨_, _, _, _, _, accepted⟩ | ⟨_, _, _, refused⟩
      · rcases exists_requestLine accepted with
          ⟨method, path, version, known, pathFree, supported, same,
            lineFits⟩
        rw [same, parseRequestLine_requestLine known pathFree supported
          (same ▸ lineFits)] at complete
        rcases isLine_or_last cut with isLine | ⟨rfl, _⟩
        · have text : hasText first = true := by
            rw [hasText, same]
            simp [requestLine]
          rw [List.takeWhile_cons_of_pos text] at short
          rcases exists_framed (segments_tail cut)
            (fun other member => short other (List.mem_cons_of_mem _ member))
            method path version complete with
            ⟨lines, fields, blank, body, rest, split, entered, isBlank, few,
              framed, bodyFits⟩
          refine ⟨{
            first := first
            lines := lines
            blank := blank
            body := body
            rest := rest
            method := method
            path := path
            version := version
            fields := fields
            headers := enterFields ∅ fields
            whole := ?_
            firstLine := same ▸ isLine
            headerLines := entered
            blankLine := isBlank
            known := known
            pathFree := pathFree
            supported := supported
            few := few
            entered := lookup_enterFields fields
            framed := framed
            bodyFits := bodyFits }⟩
          rw [← flatten_segments lf data, cut, List.flatten_cons, split]
          simp
        · cases complete
      · rw [refused] at complete
        cases complete

/--
A fresh parser that is fed everything in one call returns `Complete` exactly if
there is a derivation, and its result is the request of every derivation.
-/
theorem feed_complete_iff (maxBodySize : Nat) (data : Bytes)
    (short : HeadFits data) :
    (((fresh maxBodySize).feed data).2 = .complete ↔
        Nonempty (Derivation maxBodySize data)) ∧
      ∀ derivation : Derivation maxBodySize data,
        ((fresh maxBodySize).feed data).1.request = derivation.request := by
  refine ⟨⟨exists_derivation short, ?_⟩, ?_⟩
  · rintro ⟨derivation⟩
    rw [derivation.feed short]
  · intro derivation
    rw [derivation.feed short]

/-- Two header lines of one name, a body and a byte after it. -/
theorem feed_complete_iff_repeatedName :
    Nonempty (Derivation 2
      (text "PUT / HTTP/1.0\nContent-length: 9\r\n" ++
        text "content-Length:2\n\r\nokX")) :=
  (feed_complete_iff 2 _ (by decide)).1.1 (by decide)

end Cppws.Http
