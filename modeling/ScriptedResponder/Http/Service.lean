import ScriptedResponder.Http.Binding

/-!
What becomes of a request. The health check answers by itself and never reads the body; everywhere
else the body is limited first, then the method and the event are judged. Only a request that
passes all of them is delivered.
-/

set_option autoImplicit false

namespace ScriptedResponder.Http

def healthPath : String := "/healthz"

def bodyLimit : Nat := 4 * 1024 * 1024

def bodyLimitText : String := "Failed to buffer the request body: length limit exceeded"

def route (path : String) : String :=
  String.ofList (path.toList.takeWhile fun character => character ≠ '?' && character ≠ '#')

inductive Reception
  | answered (response : Response)
  | accepted (event : Event)
  deriving DecidableEq, Repr

def healthResponse (method : String) : Response :=
  if method = "GET" ∨ method = "HEAD" then .bare 204
  else { status := 405, headers := [("allow", Bytes.ofText "GET,HEAD")], body := [] }

/-- The answer to a body beyond the limit; to a `HEAD` request no body is ever sent. -/
def tooLargeResponse (method : String) : Response :=
  let response := Response.explained 413 bodyLimitText
  if method = "HEAD" then { response with body := [] } else response

def receive (request : Request) : Reception × List LogRecord :=
  if route request.path = healthPath then (.answered (healthResponse request.method), [])
  else if bodyLimit < request.body.length then (.answered (tooLargeResponse request.method), [])
  else if request.method ≠ "POST" then (.answered (.bare 405), [])
  else
    match decodeEvent request.headers request.body with
    | .error error => (.answered (.explained 400 error.message), [.invalidEvent error])
    | .ok event => (.accepted event, [.receivedOverHttp event.id event.type])

end ScriptedResponder.Http
