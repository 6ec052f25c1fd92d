import ScriptedResponder.Delivery
import ScriptedResponder.Event.Envelope
import ScriptedResponder.Http.Message

/-!
Events over HTTP. In binary form the attributes travel as headers and the data as the body; a
content type that starts with the structured one announces an envelope, and then the other headers
do not matter. Replies are sent in binary form, with the delivery's outcome as the status.
-/

set_option autoImplicit false

namespace ScriptedResponder.Http

def structuredContentType : String := "application/cloudevents+json"

def defaultContentType : String := "application/octet-stream"

def optionalHeader (headers : Headers) (name : String) : Except EventError (Option String) :=
  match headers.first? name with
  | none => .ok none
  | some value =>
      match readable? value with
      | none => .error (.invalidHeader name)
      | some text => .ok (some text)

def requiredHeader (headers : Headers) (name attributeName : String) : Except EventError String :=
  match optionalHeader headers name with
  | .error error => .error error
  | .ok none => .error (.missingAttribute attributeName)
  | .ok (some text) => if text = "" then .error (.missingAttribute attributeName) else .ok text

def isStructured : Option String → Bool
  | none => false
  | some contentType => structuredContentType.toList.isPrefixOf contentType.toList

def binaryEvent (headers : Headers) (dataContentType : Option String) (data : Bytes) :
    Except EventError Event := do
  let specVersion ← requiredHeader headers "ce-specversion" "specversion"
  Event.checkVersion specVersion
  let id ← requiredHeader headers "ce-id" "id"
  let type ← requiredHeader headers "ce-type" "type"
  let source ← requiredHeader headers "ce-source" "source"
  return { id, type, source, specVersion, dataContentType, data }

def decodeEvent (headers : Headers) (body : Bytes) : Except EventError Event :=
  match optionalHeader headers "content-type" with
  | .error error => .error error
  | .ok contentType =>
      if isStructured contentType then Event.ofStructured body
      else binaryEvent headers contentType body

def sentHeader (name text : String) : Except EventError (String × Bytes) :=
  match sendable? text with
  | none => .error (.invalidHeader name)
  | some value => .ok (name, value)

def binaryHeaders (event : Event) : Except EventError Headers := do
  let specVersion ← sentHeader "ce-specversion" event.specVersion
  let id ← sentHeader "ce-id" event.id
  let type ← sentHeader "ce-type" event.type
  let source ← sentHeader "ce-source" event.source
  let contentType ←
    sentHeader "content-type" (event.dataContentType.getD defaultContentType)
  return [specVersion, id, type, source, contentType]

def statusOf (answer : Answer) : Nat :=
  match answer.outcome, answer.reply with
  | .nack, _ => 500
  | .ack, some _ => 200
  | .ack, none => 202

/-- The response to a delivery, and what is logged when its reply cannot be sent. -/
def encodeAnswer (answer : Answer) : Response × List LogRecord :=
  match answer.reply with
  | none => (.bare (statusOf answer), [])
  | some reply =>
      match binaryHeaders reply with
      | .error error => (.bare 500, [.replyNotEncodable reply.id error])
      | .ok headers => ({ status := statusOf answer, headers, body := reply.data }, [])

end ScriptedResponder.Http
