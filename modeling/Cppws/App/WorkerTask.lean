import Cppws.Http.Router

/-!
# The task of a worker

The lambda that the read callback of `main.cpp` submits for a request.  It
dispatches the request, completes the response and posts it to the event loop,
unless the handler throws.
-/

namespace Cppws.App

open Cppws.Http

/-- What `post_response` is called with, apart from the connection. -/
structure Posting where
  data : Bytes
  fileFd : Option Nat
  /-- An `off_t`. -/
  fileSize : Int
deriving DecidableEq

/-- The response that is posted, unless the handler throws. -/
def handled {World : Type} (router : Router World) (world : World)
    (request : HttpRequest) : Option HttpResponse :=
  (router.dispatch world request {}).map fun dispatched =>
    if dispatched.1 then
      dispatched.2
    else
      HttpResponse.makeError .NotFound []

/-- The response with its connection header. -/
def completed (response : HttpResponse) (keepAlive : Bool) : HttpResponse :=
  response.setHeader (text "connection")
    (if keepAlive then text "keep-alive" else text "close")

/-- What is posted for a response. -/
def posting (response : HttpResponse) (keepAlive : Bool) : Posting :=
  let taken := (completed response keepAlive).takeSendfileFd
  { data := taken.2.serialize
    fileFd := taken.1
    fileSize := taken.2.sendfileSize.toInt64.toInt }

/-- The same response, with its headers in another order. -/
structure Reorders (first second : HttpResponse) : Prop where
  status : second.status = first.status
  headers : second.headers.entries.Perm first.headers.entries
  body : second.body = first.body
  sendfileFd : second.sendfileFd = first.sendfileFd

/-- What is posted for a response, whatever order its headers are in. -/
inductive Posts (response : HttpResponse) (keepAlive : Bool) :
    Posting → Prop where
  | ordered (serialized : HttpResponse)
      (reorders : Reorders (completed response keepAlive).takeSendfileFd.2
        serialized) :
      Posts response keepAlive
        { posting response keepAlive with data := serialized.serialize }

theorem posts_posting (response : HttpResponse) (keepAlive : Bool) :
    Posts response keepAlive (posting response keepAlive) :=
  .ordered _ ⟨rfl, .refl _, rfl, rfl⟩

end Cppws.App
