import Mathlib.Data.Finmap

/-!
# Parsed requests

The HTTP request record of `http/request.hpp` with its accessors.  Bytes are
`UInt8`, strings are byte lists, and the `unordered_map` of headers is a
finite map, so that two header maps are equal when they hold the same entries.
-/

namespace Cppws.Http

/-- The contents of a `std::string`. -/
abbrev Bytes := List UInt8

/-- The bytes of an ASCII literal of the source. -/
def text (literal : String) : Bytes :=
  literal.toList.map fun ch => UInt8.ofNat ch.toNat

/-- `'\n'` -/
abbrev lf : UInt8 := 10

/-- `'\r'` -/
abbrev cr : UInt8 := 13

/-- `' '` -/
abbrev sp : UInt8 := 32

/-- `'\t'` -/
abbrev ht : UInt8 := 9

/-- `':'` -/
abbrev colonByte : UInt8 := 58

/-- `data.find(ch, pos)`; `none` is `npos`. -/
def find (data : Bytes) (ch : UInt8) (pos : Nat) : Option Nat :=
  ((data.drop pos).findIdx? (· = ch)).map (pos + ·)

inductive Method where
  | GET
  | HEAD
  | POST
  | PUT
  | DELETE
  | OPTIONS
  | PATCH
  | UNKNOWN
deriving DecidableEq

def methodToString : Method → Bytes
  | .GET => text "GET"
  | .HEAD => text "HEAD"
  | .POST => text "POST"
  | .PUT => text "PUT"
  | .DELETE => text "DELETE"
  | .OPTIONS => text "OPTIONS"
  | .PATCH => text "PATCH"
  | .UNKNOWN => text "UNKNOWN"

def stringToMethod (str : Bytes) : Method :=
  if str = text "GET" then .GET
  else if str = text "HEAD" then .HEAD
  else if str = text "POST" then .POST
  else if str = text "PUT" then .PUT
  else if str = text "DELETE" then .DELETE
  else if str = text "OPTIONS" then .OPTIONS
  else if str = text "PATCH" then .PATCH
  else .UNKNOWN

/-- `std::tolower` on one `unsigned char` in the C locale. -/
def toLowerByte (ch : UInt8) : UInt8 :=
  if 65 ≤ ch ∧ ch ≤ 90 then ch + 32 else ch

/-- Lower-casing of a header name. -/
def toLower (str : Bytes) : Bytes :=
  str.map toLowerByte

/-- Headers by lower-cased name. -/
abbrev HeaderMap := Finmap fun _ : Bytes => Bytes

structure HttpRequest where
  method : Method := .UNKNOWN
  path : Bytes := []
  version : Bytes := []
  headers : HeaderMap := ∅
  body : Bytes := []
deriving DecidableEq

/-- `std::from_chars` into a `size_t`: the longest run of decimal digits. -/
def fromChars (val : Bytes) : Option Nat :=
  let digits := val.takeWhile fun ch => 48 ≤ ch ∧ ch ≤ 57
  let value := digits.foldl (fun acc ch => acc * 10 + (ch.toNat - 48)) 0
  if digits = [] then none
  else if value < 2 ^ 64 then some value
  else none

namespace HttpRequest

def header (request : HttpRequest) (name : Bytes) : Option Bytes :=
  request.headers.lookup (toLower name)

def wantsKeepAlive (request : HttpRequest) : Bool :=
  let conn := request.header (text "connection")
  if request.version = text "HTTP/1.1" then
    if conn = some (text "close") then false else true
  else if conn = some (text "keep-alive") then true
  else false

def contentLength (request : HttpRequest) : Nat :=
  match request.header (text "content-length") with
  | none => 0
  | some val => (fromChars val).getD 0

end HttpRequest

theorem stringToMethod_methodToString
    {method : Method} (known : method ≠ .UNKNOWN) :
    stringToMethod (methodToString method) = method := by
  cases method <;> first | contradiction | decide

end Cppws.Http
