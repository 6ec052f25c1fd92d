import ScriptedResponder.Numeral
import ScriptedResponder.Text.Blank

/-!
A phrase is a verb followed by parameters, each after a colon; every colon separates, so there is
always a verb, possibly empty. Parameters are taken from the front one at a time. A parameter that
does not read as the number asked for is used up all the same.
-/

set_option autoImplicit false

namespace ScriptedResponder

inductive ParameterError
  | missing
  | notAnInteger
  | unexpected
  deriving DecidableEq, Repr

structure Phrase where
  verb : String
  parameters : List String
  deriving DecidableEq, Repr

namespace Phrase

def extendPieces (character : Char) (pieces : List Char × List (List Char)) :
    List Char × List (List Char) :=
  if character = ':' then ([], pieces.1 :: pieces.2) else (character :: pieces.1, pieces.2)

/-- The text before the first colon, and the texts between and after the colons. -/
def pieces (text : List Char) : List Char × List (List Char) :=
  text.foldr extendPieces ([], [])

def ofText (text : String) : Phrase :=
  { verb := String.ofList (pieces text.toList).1
    parameters := (pieces text.toList).2.map String.ofList }

/-- Take the next parameter and read it, without the blanks around it. -/
def takeNumber {Number : Type} (read : List Char → Option Number) (phrase : Phrase) :
    Except ParameterError Number × Phrase :=
  match phrase.parameters with
  | [] => (.error .missing, phrase)
  | parameter :: others =>
      ((match read (Text.trim parameter.toList) with
        | none => .error .notAnInteger
        | some number => .ok number), { phrase with parameters := others })

def takeSigned (phrase : Phrase) : Except ParameterError Int × Phrase :=
  phrase.takeNumber Numeral.signed?

def takeUnsigned (phrase : Phrase) : Except ParameterError Nat × Phrase :=
  phrase.takeNumber Numeral.unsigned?

def hasRemaining (phrase : Phrase) : Bool := !phrase.parameters.isEmpty

def finish (phrase : Phrase) : Except ParameterError Unit :=
  if phrase.hasRemaining then .error .unexpected else .ok ()

end Phrase

end ScriptedResponder
