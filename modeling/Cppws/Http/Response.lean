import Mathlib.Data.List.AList
import Cppws.Http.Request

/-!
# Responses

`HttpResponse` of `http/response.hpp` with its builder functions.  The
`unordered_map` of headers is an association list; the order in which
`serialize` writes them is that of the list.
-/

namespace Cppws.Http

inductive Status where
  | Ok
  | Created
  | NoContent
  | MovedPermanently
  | NotModified
  | BadRequest
  | Forbidden
  | NotFound
  | MethodNotAllowed
  | RequestTimeout
  | PayloadTooLarge
  | UriTooLong
  | InternalServerError
  | NotImplemented
  | ServiceUnavailable
deriving DecidableEq

/-- `static_cast<int>(code)`. -/
def Status.code : Status → Nat
  | .Ok => 200
  | .Created => 201
  | .NoContent => 204
  | .MovedPermanently => 301
  | .NotModified => 304
  | .BadRequest => 400
  | .Forbidden => 403
  | .NotFound => 404
  | .MethodNotAllowed => 405
  | .RequestTimeout => 408
  | .PayloadTooLarge => 413
  | .UriTooLong => 414
  | .InternalServerError => 500
  | .NotImplemented => 501
  | .ServiceUnavailable => 503

def statusToReason : Status → Bytes
  | .Ok => text "OK"
  | .Created => text "Created"
  | .NoContent => text "No Content"
  | .MovedPermanently => text "Moved Permanently"
  | .NotModified => text "Not Modified"
  | .BadRequest => text "Bad Request"
  | .Forbidden => text "Forbidden"
  | .NotFound => text "Not Found"
  | .MethodNotAllowed => text "Method Not Allowed"
  | .RequestTimeout => text "Request Timeout"
  | .PayloadTooLarge => text "Payload Too Large"
  | .UriTooLong => text "URI Too Long"
  | .InternalServerError => text "Internal Server Error"
  | .NotImplemented => text "Not Implemented"
  | .ServiceUnavailable => text "Service Unavailable"

/-- `std::to_string` of an unsigned number. -/
def decimal (n : Nat) : Bytes :=
  (Nat.toDigits 10 n).map fun digit => UInt8.ofNat digit.toNat

def crlf : Bytes :=
  [cr, lf]

structure HttpResponse where
  status : Status := .Ok
  headers : AList fun _ : Bytes => Bytes := ∅
  body : Bytes := []
  /-- `sendfile_fd_`, unless it is negative. -/
  sendfileFd : Option Nat := none
  sendfileSize : UInt64 := 0

namespace HttpResponse

def setBody (response : HttpResponse) (body contentType : Bytes) :
    HttpResponse :=
  { response with
    body := body
    headers := response.headers.insert (text "content-type") contentType }

def setStatus (response : HttpResponse) (code : Status) : HttpResponse :=
  { response with status := code }

def setHeader (response : HttpResponse) (name value : Bytes) : HttpResponse :=
  { response with headers := response.headers.insert (toLower name) value }

def hasSendfile (response : HttpResponse) : Bool :=
  response.sendfileFd.isSome

/-- One line of the head. -/
def headerLine (name value : Bytes) : Bytes :=
  name ++ text ": " ++ value ++ crlf

def serialize (response : HttpResponse) : Bytes :=
  text "HTTP/1.1 " ++ decimal response.status.code ++ text " " ++
    statusToReason response.status ++ crlf ++
    (response.headers.entries.flatMap fun header =>
      headerLine header.1 header.2) ++
    (if response.body ≠ [] ∧
        response.headers.lookup (text "content-length") = none ∧
        response.hasSendfile = false then
      headerLine (text "content-length") (decimal response.body.length)
    else
      []) ++
    crlf ++
    if response.hasSendfile then [] else response.body

def makeError (code : Status) (detail : Bytes) : HttpResponse :=
  ({ status := code } : HttpResponse).setBody
    (decimal code.code ++ text " " ++ statusToReason code ++
      if detail = [] then [] else lf :: detail)
    (text "text/plain")

def setSendfile (response : HttpResponse) (fileFd : Int) (fileSize : UInt64)
    (contentType : Bytes) : HttpResponse :=
  { response with
    sendfileFd := if 0 ≤ fileFd then some fileFd.toNat else none
    sendfileSize := fileSize
    headers :=
      (response.headers.insert (text "content-type") contentType).insert
        (text "content-length") (decimal fileSize.toNat) }

/-- `take_sendfile_fd()`, with the response after it. -/
def takeSendfileFd (response : HttpResponse) : Option Nat × HttpResponse :=
  (response.sendfileFd, { response with sendfileFd := none })

def makeRedirect (location : Bytes) : HttpResponse :=
  { status := .MovedPermanently
    headers := (∅ : AList fun _ : Bytes => Bytes).insert (text "location")
      location }

end HttpResponse

end Cppws.Http
