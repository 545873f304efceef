import Cppws.Http.Parser
import Cppws.Http.Response
import Cppws.Net.Lifetime

/-!
# The read callback

The lambda that `main.cpp` sets as the read callback of every connection.  It
feeds the parser of the connection and answers with what the event loop has to
do: nothing, post an error response, or submit a task for the request.  The
connection is owned by the event loop while the callback runs, so the weak
pointer to it can always be locked.
-/

namespace Cppws.App

open Cppws.Http
open Cppws.Net

/-- What the callback asks of the event loop. -/
inductive Dispatch where
  | nothing
  /-- `post_response` without a file. -/
  | postResponse (data : Bytes)
  /-- `submit` of the task that handles the request. -/
  | submit (request : HttpRequest) (keepAlive : Bool)

def readCallback (conn : Connection) (parser : HttpParser) :
    Connection × HttpParser × Dispatch :=
  let fed := parser.feed conn.readBuf.readable
  let conn := { conn with readBuf := conn.readBuf.consumeAll }
  match fed.2 with
  | .error =>
      (conn.setKeepAlive false, fed.1,
        .postResponse
          (HttpResponse.makeError .BadRequest fed.1.error).serialize)
  | .complete =>
      let taken := fed.1.takeResult
      let keepAlive := taken.1.wantsKeepAlive
      (conn.setKeepAlive keepAlive, taken.2.reset, .submit taken.1 keepAlive)
  | .incomplete => (conn, fed.1, .nothing)

/-- What the callback does to the connection and to its parser. -/
def onRead (conn : Connection) (parser : HttpParser) :
    Connection × HttpParser :=
  ((readCallback conn parser).1, (readCallback conn parser).2.1)

/-- The callback empties the buffer and decides about keeping alive. -/
theorem onRead_using (conn : Connection) (parser : HttpParser) :
    ∃ keepAlive, (onRead conn parser).1 =
      { conn with readBuf := conn.readBuf.consumeAll, keepAlive } := by
  unfold onRead readCallback
  dsimp only
  split
  · exact ⟨_, rfl⟩
  · exact ⟨_, rfl⟩
  · exact ⟨conn.keepAlive, rfl⟩

/-- All that is readable is consumed. -/
theorem onRead_consuming : Connection.Consuming onRead := by
  intro conn parser
  rcases onRead_using conn parser with ⟨keepAlive, called⟩
  rw [called]
  refine ⟨Buffer.consumeAll_capacity _, conn.readBuf.readable.length, ?_⟩
  rw [List.drop_length]
  exact Buffer.readable_consumeAll _

theorem onRead_uses : Lifetime.Using onRead :=
  fun conn parser => ⟨_, onRead_using conn parser⟩

end Cppws.App
