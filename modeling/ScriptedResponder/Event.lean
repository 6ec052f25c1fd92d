import ScriptedResponder.Bytes

/-!
Events as they pass between a sender and this responder, and the reply to one: its attributes carry
a suffix, its data is the payload given.
-/

set_option autoImplicit false

namespace ScriptedResponder

structure Event where
  id : String
  type : String
  source : String
  specVersion : String
  dataContentType : Option String
  data : Bytes
  deriving DecidableEq, Repr

inductive EnvelopeDefect
  | malformed
  | invalidBase64
  | dataTwice
  deriving DecidableEq, Repr

def EnvelopeDefect.message : EnvelopeDefect → String
  | .malformed => "o texto não é um envelope bem formado"
  | .invalidBase64 => "data_base64 não está em base64 canônico"
  | .dataTwice => "data e data_base64 são mutuamente exclusivos"

/-- Why no event could be received or sent; headers and attributes are told by name. -/
inductive EventError
  | missingAttribute (name : String)
  | invalidHeader (name : String)
  | invalidStructured (defect : EnvelopeDefect)
  | unsupportedSpecVersion (version : String)
  deriving DecidableEq, Repr

def EventError.message : EventError → String
  | .missingAttribute name => "atributo obrigatório ausente: " ++ name
  | .invalidHeader name => "header inválido: " ++ name
  | .invalidStructured defect => "evento estruturado inválido: " ++ defect.message
  | .unsupportedSpecVersion version => "specversion não suportada: " ++ version

namespace Event

def supportedVersion : String := "1.0"

def jsonContentType : String := "application/json"

def replySuffix : String := ".reply"

def checkVersion (version : String) : Except EventError Unit :=
  if version = supportedVersion then .ok () else .error (.unsupportedSpecVersion version)

def replyWith (event : Event) (payload : Bytes) : Event :=
  { id := event.id ++ replySuffix
    type := event.type ++ replySuffix
    source := event.source ++ replySuffix
    specVersion := supportedVersion
    dataContentType := some jsonContentType
    data := payload }

end Event

end ScriptedResponder
