import ScriptedResponder.Settings.CommandLine
import ScriptedResponder.Timeline

/-!
Starting the server. The command line is settled first, then the sweep interval; the last thing
that can fail is listening on the host and port. Whether an address can be listened on is for the
surroundings to say.
-/

set_option autoImplicit false

namespace ScriptedResponder

inductive Startup
  | help
  | refused (refusal : Refusal)
  | overflowed (overflow : Settings.SweepOverflow)
  | unbound (settings : Settings)
  | running (settings : Settings) (sweep : Nat)
  deriving DecidableEq, Repr

namespace Startup

def exitStatus : Startup → Option Nat
  | .help => some 0
  | .refused _ => some 2
  | .overflowed _ => some 1
  | .unbound _ => some 1
  | .running .. => none

def attempt (canListen : String → Nat → Bool) (arguments : List String)
    (environment : String → Option String) : Startup :=
  match CommandLine.settings arguments environment with
  | .error .helpRequested => .help
  | .error refusal => .refused refusal
  | .ok settings =>
      match settings.sweep with
      | .error overflow => .overflowed overflow
      | .ok sweep =>
          if canListen settings.host settings.port then .running settings sweep
          else .unbound settings

/-- The server before its first request: an empty store, and a sweeper that waits for its first
round. -/
def launch (clock : Nat) (settings : Settings) (sweep : Nat) : Timeline :=
  { Timeline.start (Period.ofSeconds settings.storageTtl) with clock }.startSweeper "sweeper" sweep

/-- A decimal octet of an address: up to three digits, without a leading zero. -/
def isAddressOctet (text : List Char) : Bool :=
  match text with
  | ['0'] => true
  | '0' :: _ => false
  | digits => digits.length ≤ 3 && (Numeral.digits? 255 digits).isSome

def dottedParts (text : List Char) : List (List Char) :=
  text.foldr
    (fun character parts =>
      match parts with
      | [] => [[character]]
      | first :: others =>
          if character = '.' then [] :: first :: others else (character :: first) :: others)
    [[]]

def isDottedAddress (host : String) : Bool :=
  let parts := dottedParts host.toList
  parts.length = 4 && parts.all isAddressOctet

end Startup

end ScriptedResponder
