import ScriptedResponder.Phrase

/-!
Actions and the outcome of a delivery. Every action but the delayed acknowledgement stands alone;
that one takes an unsigned number of seconds.
-/

set_option autoImplicit false

namespace ScriptedResponder

inductive Outcome
  | ack
  | nack
  deriving DecidableEq, Repr

def Outcome.name : Outcome → String
  | .ack => "ack"
  | .nack => "nack"

inductive ActionError
  | unknown (verb : String)
  | unexpectedParameter (verb : String)
  | missingParameter (verb : String)
  | notAnInteger (verb : String)
  | missingReply (verb : String)
  deriving DecidableEq, Repr

def ActionError.message : ActionError → String
  | .unknown verb => "ação desconhecida: " ++ verb
  | .unexpectedParameter verb => "parâmetro inesperado para a ação '" ++ verb ++ "'"
  | .missingParameter verb => "ação '" ++ verb ++ "' requer um parâmetro"
  | .notAnInteger verb => "ação '" ++ verb ++ "' requer um parâmetro inteiro não negativo"
  | .missingReply verb => "instrução sem payload de resposta para a ação '" ++ verb ++ "'"

def ActionError.ofParameter (verb : String) : ParameterError → ActionError
  | .missing => .missingParameter verb
  | .notAnInteger => .notAnInteger verb
  | .unexpected => .unexpectedParameter verb

inductive Action
  | ack
  | nack
  | delayAck (seconds : Nat)
  | ackWithEvent
  | nackWithEvent
  | reset
  deriving DecidableEq, Repr

namespace Action

def name : Action → String
  | .ack => "ack"
  | .nack => "nack"
  | .delayAck _ => "delay-ack"
  | .ackWithEvent => "ack+event"
  | .nackWithEvent => "nack+event"
  | .reset => "reset"

def plain : List Action := [.ack, .nack, .ackWithEvent, .nackWithEvent, .reset]

def finished (phrase : Phrase) (action : Action) : Except ActionError Action :=
  match phrase.finish with
  | .error defect => .error (.ofParameter phrase.verb defect)
  | .ok _ => .ok action

/-- Read a phrase as an action; an unknown verb is reported before its parameters are looked at. -/
def ofPhrase (phrase : Phrase) : Except ActionError Action :=
  if phrase.verb = "delay-ack" then
    match phrase.takeUnsigned with
    | (.error defect, _) => .error (.ofParameter phrase.verb defect)
    | (.ok seconds, rest) => finished rest (.delayAck seconds)
  else
    match plain.find? (fun action => action.name = phrase.verb) with
    | none => .error (.unknown phrase.verb)
    | some action => finished phrase action

def ofText (text : String) : Except ActionError Action :=
  ofPhrase (Phrase.ofText text)

end Action

end ScriptedResponder
