import ScriptedResponder.Base64
import ScriptedResponder.Event
import ScriptedResponder.Json.Parts

/-!
Events in structured form: one JSON structure that holds the attributes beside the data, which is
either a value of its own or octets in base64. The form of the envelope is settled first; then its
defects are reported in a fixed order, the version before the data and the data before the other
attributes.
-/

set_option autoImplicit false

namespace ScriptedResponder

structure Envelope where
  id : Option String
  type : Option String
  source : Option String
  specVersion : Option String
  dataContentType : Option String
  data : Option Json.Value
  dataBase64 : Option String
  deriving DecidableEq, Repr

namespace Envelope

def fieldNames : List String :=
  ["id", "type", "source", "specversion", "datacontenttype", "data", "data_base64"]

def spelled? (value : Json.Value) : Option Json.Value :=
  value.verbatim?.map fun _ => value

/-- The envelope that a value spells; its list form must name every field. -/
def ofValue? (value : Json.Value) : Option Envelope := do
  let fields ← value.fields? fieldNames fieldNames.length
  let id ← Json.optional? Json.Value.string? (fields.lookup "id")
  let type ← Json.optional? Json.Value.string? (fields.lookup "type")
  let source ← Json.optional? Json.Value.string? (fields.lookup "source")
  let specVersion ← Json.optional? Json.Value.string? (fields.lookup "specversion")
  let dataContentType ← Json.optional? Json.Value.string? (fields.lookup "datacontenttype")
  let data ← Json.optional? spelled? (fields.lookup "data")
  let dataBase64 ← Json.optional? Json.Value.string? (fields.lookup "data_base64")
  return { id, type, source, specVersion, dataContentType, data, dataBase64 }

def occursIn (part : List Char) : List Char → Bool
  | [] => part.isEmpty
  | character :: rest => part.isPrefixOf (character :: rest) || occursIn part rest

def holdsJson : Option String → Bool
  | none => true
  | some contentType => occursIn "json".toList contentType.toList

/-- The octets of a data value: for content that is not JSON, a string literal carries its text;
everything else is passed on as it was spelled. -/
def dataOctets (contentType : Option String) (value : Json.Value) : Bytes :=
  if holdsJson contentType then value.text
  else
    match value.string? with
    | none => value.text
    | some text => Bytes.ofText text

def dataOf (envelope : Envelope) : Except EventError Bytes :=
  match envelope.data, envelope.dataBase64 with
  | some _, some _ => .error (.invalidStructured .dataTwice)
  | some value, none => .ok (dataOctets envelope.dataContentType value)
  | none, some symbols =>
      match Base64.decode? (Bytes.ofText symbols) with
      | none => .error (.invalidStructured .invalidBase64)
      | some octets => .ok octets
  | none, none => .ok []

def required (name : String) : Option String → Except EventError String
  | none => .error (.missingAttribute name)
  | some text => if text = "" then .error (.missingAttribute name) else .ok text

def toEvent (envelope : Envelope) : Except EventError Event := do
  let specVersion ←
    match envelope.specVersion with
    | none => .error (.missingAttribute "specversion")
    | some version => .ok version
  Event.checkVersion specVersion
  let data ← envelope.dataOf
  let id ← required "id" envelope.id
  let type ← required "type" envelope.type
  let source ← required "source" envelope.source
  return { id, type, source, specVersion, dataContentType := envelope.dataContentType, data }

def ofBody? (body : Bytes) : Option Envelope := (Json.value? body).bind ofValue?

end Envelope

def Event.ofStructured (body : Bytes) : Except EventError Event :=
  match Envelope.ofBody? body with
  | none => .error (.invalidStructured .malformed)
  | some envelope => envelope.toEvent

end ScriptedResponder
