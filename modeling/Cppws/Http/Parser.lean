import Cppws.Http.Request

/-!
# The incremental request parser

`HttpParser` of `http/parser.hpp` and `http/parser.cpp`, function by function.
Each member function takes the parser to the parser after the call, paired
with what the call returns.  `feedLoop` is the `while` loop of `feed`; its fuel
is the number of bytes still to be read, of which every iteration that goes
round consumes at least one.
-/

namespace Cppws.Http

def maxRequestLine : Nat := 8 * 1024
def maxHeaderSize : Nat := 8 * 1024
def maxHeaderCount : Nat := 100
def defaultMaxBodySize : Nat := 8 * 1024 * 1024

/-- Trim leading and trailing SP and HT. -/
def trim (sv : Bytes) : Bytes :=
  ((sv.dropWhile fun ch => ch = sp ∨ ch = ht).reverse.dropWhile
    fun ch => ch = sp ∨ ch = ht).reverse

/-- `if (!str.empty() && str.back() == ch) str.pop_back();` -/
def popBackIf (ch : UInt8) (str : Bytes) : Bytes :=
  if str.getLast? = some ch then str.dropLast else str

inductive HttpParser.Result where
  | incomplete
  | complete
  | error
deriving DecidableEq

inductive HttpParser.State where
  | requestLine
  | headers
  | body
  | complete
deriving DecidableEq

structure HttpParser where
  state : HttpParser.State := .requestLine
  request : HttpRequest := {}
  lineBuf : Bytes := []
  error : Bytes := []
  bodyRemaining : Nat := 0
  maxBodySize : Nat := defaultMaxBodySize
deriving DecidableEq

namespace HttpParser

/-- A default-constructed parser after `set_max_body_size`. -/
def fresh (maxBodySize : Nat) : HttpParser :=
  { maxBodySize }

def setError (parser : HttpParser) (msg : Bytes) : HttpParser :=
  { parser with error := msg, state := .complete }

/-- The parser after the call and the number of bytes it reports. -/
def consumeLine (parser : HttpParser) (data : Bytes) : HttpParser × Nat :=
  match find data lf 0 with
  | none =>
      if parser.lineBuf.length + data.length > maxHeaderSize then
        (parser.setError (text "header line too long"), 0)
      else
        ({ parser with lineBuf := parser.lineBuf ++ data }, data.length)
  | some pos =>
      let consumed := pos + 1
      let chunk := data.take consumed
      if parser.lineBuf.length + chunk.length > maxHeaderSize then
        (parser.setError (text "header line too long"), 0)
      else
        ({ parser with
            lineBuf :=
              popBackIf cr (popBackIf lf (parser.lineBuf ++ chunk)) },
          consumed)

def parseRequestLine
    (parser : HttpParser) (line : Bytes) : HttpParser × Result :=
  if line.length > maxRequestLine then
    (parser.setError (text "request line too long"), .error)
  else
    match find line sp 0 with
    | none =>
        (parser.setError
          (text "malformed request line: missing first SP"), .error)
    | some sp1 =>
        match find line sp (sp1 + 1) with
        | none =>
            (parser.setError
              (text "malformed request line: missing second SP"), .error)
        | some sp2 =>
            let method := stringToMethod (line.take sp1)
            let path := (line.drop (sp1 + 1)).take (sp2 - sp1 - 1)
            let version := line.drop (sp2 + 1)
            let parser :=
              { parser with
                request := { parser.request with method, path, version } }
            if method = .UNKNOWN then
              (parser.setError (text "unknown HTTP method"), .error)
            else if version ≠ text "HTTP/1.1" ∧
              version ≠ text "HTTP/1.0" then
              (parser.setError
                (text "unsupported HTTP version: " ++ version), .error)
            else
              ({ parser with state := .headers }, .incomplete)

def parseHeaderLine
    (parser : HttpParser) (line : Bytes) : HttpParser × Result :=
  if line = [] then
    let parser :=
      { parser with bodyRemaining := parser.request.contentLength }
    if parser.bodyRemaining > 0 then
      if parser.bodyRemaining > parser.maxBodySize then
        (parser.setError (text "body too large"), .error)
      else
        ({ parser with state := .body }, .incomplete)
    else
      ({ parser with state := .complete }, .complete)
  else if parser.request.headers.keys.card ≥ maxHeaderCount then
    (parser.setError (text "too many headers"), .error)
  else
    match find line colonByte 0 with
    | none =>
        (parser.setError (text "malformed header: no colon"), .error)
    | some colon =>
        let name := toLower (line.take colon)
        let value := trim (line.drop (colon + 1))
        ({ parser with
            request :=
              { parser.request with
                headers := parser.request.headers.insert name value } },
          .incomplete)

def parseBody
    (parser : HttpParser) (remaining : Bytes) : HttpParser × Result :=
  let take := min remaining.length parser.bodyRemaining
  let parser :=
    { parser with
      request :=
        { parser.request with
          body := parser.request.body ++ remaining.take take }
      bodyRemaining := parser.bodyRemaining - take }
  if parser.bodyRemaining = 0 then
    ({ parser with state := .complete }, .complete)
  else
    (parser, .incomplete)

/-- The last line of `feed`. -/
def finish (parser : HttpParser) : HttpParser × Result :=
  (parser, if parser.state = .complete then .complete else .incomplete)

/-- The dispatch on `state_` inside `feed`. -/
def parseLine (parser : HttpParser) (line : Bytes) : HttpParser × Result :=
  match parser.state with
  | .requestLine => parser.parseRequestLine line
  | .headers => parser.parseHeaderLine line
  | _ => (parser, .incomplete)

/-- The `while (!data.empty())` loop of `feed`. -/
def feedLoop : Nat → HttpParser → Bytes → HttpParser × Result
  | 0, parser, _ => parser.finish
  | fuel + 1, parser, data =>
      if data = [] then
        parser.finish
      else if parser.state = .body then
        let parsed := parser.parseBody data
        if parsed.2 ≠ .incomplete then parsed else parsed.1.finish
      else
        let cut := parser.consumeLine data
        if cut.2 = 0 then
          cut.1.finish
        else
          let parsed := cut.1.parseLine cut.1.lineBuf
          let parser := { parsed.1 with lineBuf := [] }
          if parsed.2 = .error ∨ parsed.2 = .complete then
            (parser, parsed.2)
          else
            feedLoop fuel parser (data.drop cut.2)

def feed (parser : HttpParser) (data : Bytes) : HttpParser × Result :=
  feedLoop data.length parser data

/-- `take_result()`: the request moves out and leaves empty containers. -/
def takeResult (parser : HttpParser) : HttpRequest × HttpParser :=
  (parser.request,
    { parser with request := { method := parser.request.method } })

def reset (parser : HttpParser) : HttpParser :=
  { parser with
    state := .requestLine
    request := {}
    lineBuf := []
    bodyRemaining := 0
    error := [] }

end HttpParser

end Cppws.Http
