import ScriptedResponder.Phrase
import ScriptedResponder.Text.Quoted

/-!
Conditions on the number of earlier deliveries of an event. The empty text and `always` hold
always; the two comparisons are strict and take one signed parameter.
-/

set_option autoImplicit false

namespace ScriptedResponder

inductive ConditionError
  | unknown (verb : String)
  | unexpectedParameter (verb : String)
  | missingParameter (verb : String)
  | notAnInteger (verb : String)
  deriving DecidableEq, Repr

def ConditionError.message : ConditionError → String
  | .unknown verb => "condição desconhecida: " ++ Text.quoted verb
  | .unexpectedParameter verb => "parâmetro inesperado para a condição '" ++ verb ++ "'"
  | .missingParameter verb => "condição '" ++ verb ++ "' requer um parâmetro"
  | .notAnInteger verb => "condição '" ++ verb ++ "' requer um parâmetro inteiro"

def ConditionError.ofParameter (verb : String) : ParameterError → ConditionError
  | .missing => .missingParameter verb
  | .notAnInteger => .notAnInteger verb
  | .unexpected => .unexpectedParameter verb

inductive Condition
  | always
  | retriesBelow (bound : Int)
  | retriesAbove (bound : Int)
  deriving DecidableEq, Repr

namespace Condition

def ofBound (condition : Int → Condition) (phrase : Phrase) : Except ConditionError Condition :=
  match phrase.takeSigned with
  | (.error defect, _) => .error (.ofParameter phrase.verb defect)
  | (.ok bound, rest) =>
      match rest.finish with
      | .error defect => .error (.ofParameter phrase.verb defect)
      | .ok _ => .ok (condition bound)

def ofPhrase (phrase : Phrase) : Except ConditionError Condition :=
  if phrase.verb = "" ∨ phrase.verb = "always" then
    match phrase.finish with
    | .error defect => .error (.ofParameter phrase.verb defect)
    | .ok _ => .ok .always
  else if phrase.verb = "retrycount_lt" then ofBound .retriesBelow phrase
  else if phrase.verb = "retrycount_gt" then ofBound .retriesAbove phrase
  else .error (.unknown phrase.verb)

def ofText (text : String) : Except ConditionError Condition :=
  ofPhrase (Phrase.ofText text)

/-- Whether the condition is true of a number of earlier deliveries. -/
def holds (retries : Int) : Condition → Bool
  | .always => true
  | .retriesBelow bound => retries < bound
  | .retriesAbove bound => bound < retries

end Condition

end ScriptedResponder
