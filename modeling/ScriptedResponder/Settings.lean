import ScriptedResponder.Numeral
import ScriptedResponder.Period

/-!
The settings of the server and the values they admit. Times are whole seconds from one up to the
longest period; a sweep interval that is not given is a multiple of the time to live.
-/

set_option autoImplicit false

namespace ScriptedResponder

inductive LogFormat
  | text
  | json
  deriving DecidableEq, Repr

structure Settings where
  host : String
  port : Nat
  storageTtl : Nat
  sweepInterval : Option Nat
  logFormat : LogFormat
  deriving DecidableEq, Repr

inductive SecondsError
  | zero
  | tooLong
  | invalid (text : String)
  deriving DecidableEq, Repr

def SecondsError.message : SecondsError → String
  | .zero => "o valor deve ser maior que zero"
  | .tooLong => "o valor deve ser no máximo " ++ toString Period.longestSeconds ++ " segundos"
  | .invalid text => "valor inválido: '" ++ text ++ "'. Use um número inteiro de segundos"

namespace Settings

def default : Settings :=
  { host := "127.0.0.1"
    port := 8080
    storageTtl := 30
    sweepInterval := none
    logFormat := .text }

def sweepFactor : Nat := 3

def greatestPort : Nat := 65535

def seconds? (text : String) : Except SecondsError Nat :=
  match Numeral.unsigned? text.toList with
  | none => .error (.invalid text)
  | some number =>
      if number = 0 then .error .zero
      else if Period.longestSeconds < number then .error .tooLong
      else .ok number

def port? (text : String) : Option Nat :=
  match Numeral.signed? text.toList with
  | none => none
  | some number =>
      if 0 ≤ number ∧ number ≤ Int.ofNat greatestPort then some number.toNat else none

def logFormat? (text : String) : Option LogFormat :=
  if text = "text" then some .text
  else if text = "json" then some .json
  else none

structure SweepOverflow where
  ttl : Nat
  deriving DecidableEq, Repr

def SweepOverflow.message (overflow : SweepOverflow) : String :=
  "intervalo de varredura padrão transborda para TTL " ++ Period.text overflow.ttl

/-- The time between sweeps: the seconds asked for, or a multiple of the time to live. -/
def sweepPeriod (ttl : Nat) : Option Nat → Except SweepOverflow Nat
  | some seconds => .ok (Period.ofSeconds seconds)
  | none =>
      if Period.fits (ttl * sweepFactor) then .ok (ttl * sweepFactor) else .error { ttl }

def sweep (settings : Settings) : Except SweepOverflow Nat :=
  sweepPeriod (Period.ofSeconds settings.storageTtl) settings.sweepInterval

end Settings

end ScriptedResponder
