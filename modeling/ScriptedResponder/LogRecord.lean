import ScriptedResponder.Action
import ScriptedResponder.Condition
import ScriptedResponder.Event
import ScriptedResponder.Instruction

/-!
What the responder reports about itself. A record is the fact reported; its level, its message and
its fields are read off it, so that two records of one kind never differ in wording.
-/

set_option autoImplicit false

namespace ScriptedResponder

inductive LogLevel
  | debug
  | info
  | warn
  deriving DecidableEq, Repr

def LogLevel.name : LogLevel → String
  | .debug => "DEBUG"
  | .info => "INFO"
  | .warn => "WARN"

inductive LogValue
  | text (value : String)
  | number (value : Nat)
  | truth (value : Bool)
  deriving DecidableEq, Repr

inductive LogRecord
  | undecodable (eventId : String) (error : DecodeError)
  | received (eventId : String) (count instructions : Nat)
  | conditionFailed (eventId : String) (error : ConditionError)
  | actionFailed (eventId action : String) (error : ActionError)
  | countsDiscarded (eventId : String)
  | executed (eventId : String) (action : Action) (outcome : Outcome) (replied : Bool)
  | nothingApplied (eventId : String)
  | invalidEvent (error : EventError)
  | receivedOverHttp (eventId eventType : String)
  | replyNotEncodable (eventId : String) (error : EventError)
  | staleRemoved (removed : Nat)
  | sweepingEnded
  deriving DecidableEq, Repr

namespace LogRecord

def level : LogRecord → LogLevel
  | .undecodable .. | .conditionFailed .. | .actionFailed .. | .executed .. | .nothingApplied .. =>
      .info
  | .received .. | .countsDiscarded .. | .receivedOverHttp .. | .staleRemoved .. |
    .sweepingEnded => .debug
  | .invalidEvent .. | .replyNotEncodable .. => .warn

def message : LogRecord → String
  | .undecodable .. => "erro ao decodificar instruções de resposta"
  | .received .. => "evento recebido"
  | .conditionFailed .. => "erro ao avaliar condição"
  | .actionFailed .. => "erro ao executar ação"
  | .countsDiscarded .. => "contagens descartadas"
  | .executed .. => "ação executada"
  | .nothingApplied .. => "fallback"
  | .invalidEvent .. => "evento inválido recebido"
  | .receivedOverHttp .. => "evento recebido via HTTP"
  | .replyNotEncodable .. => "evento de resposta não pode ser codificado"
  | .staleRemoved .. => "contagens expiradas removidas"
  | .sweepingEnded => "varredura de contagens encerrada"

def fields : LogRecord → List (String × LogValue)
  | .undecodable eventId error =>
      [("event_id", .text eventId), ("result", .text Outcome.nack.name),
        ("error", .text error.message)]
  | .received eventId count instructions =>
      [("event_id", .text eventId), ("count", .number count),
        ("instructions", .number instructions)]
  | .conditionFailed eventId error =>
      [("event_id", .text eventId), ("result", .text Outcome.nack.name),
        ("error", .text error.message)]
  | .actionFailed eventId action error =>
      [("event_id", .text eventId), ("action", .text action), ("result", .text Outcome.nack.name),
        ("error", .text error.message)]
  | .countsDiscarded eventId =>
      [("event_id", .text eventId), ("action", .text Action.reset.name)]
  | .executed eventId action outcome replied =>
      [("event_id", .text eventId), ("action", .text action.name), ("result", .text outcome.name),
        ("reply", .truth replied)]
  | .nothingApplied eventId =>
      [("event_id", .text eventId), ("result", .text Outcome.ack.name)]
  | .invalidEvent error => [("error", .text error.message)]
  | .receivedOverHttp eventId eventType =>
      [("event_id", .text eventId), ("event_type", .text eventType)]
  | .replyNotEncodable eventId error =>
      [("event_id", .text eventId), ("error", .text error.message)]
  | .staleRemoved removed => [("removed", .number removed)]
  | .sweepingEnded => []

end LogRecord

end ScriptedResponder
