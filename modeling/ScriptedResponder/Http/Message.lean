import ScriptedResponder.Bytes

/-!
Requests and responses. Header names are compared without regard to ASCII case, and reading a name
takes the first value given for it. A value may be sent when it has no control octet but the tab;
it is readable as text only when, besides, it is ASCII.
-/

set_option autoImplicit false

namespace ScriptedResponder.Http

abbrev Headers := List (String × Bytes)

structure Request where
  method : String
  path : String
  headers : Headers
  body : Bytes
  deriving DecidableEq, Repr

structure Response where
  status : Nat
  headers : Headers
  body : Bytes
  deriving DecidableEq, Repr

def Response.bare (status : Nat) : Response := { status, headers := [], body := [] }

def Response.explained (status : Nat) (text : String) : Response :=
  { status
    headers := [("content-type", Bytes.ofText "text/plain; charset=utf-8")]
    body := Bytes.ofText text }

/-- The first value given for a name, which is in lower case. -/
def Headers.first? (headers : Headers) (name : String) : Option Bytes :=
  (headers.find? fun header => header.1.toLower = name).map Prod.snd

def tab : UInt8 := 0x09

def isReadable (byte : UInt8) : Bool := byte = tab || (0x20 ≤ byte && byte ≤ 0x7e)

def isSendable (byte : UInt8) : Bool := byte = tab || (0x20 ≤ byte && byte ≠ 0x7f)

def readable? (value : Bytes) : Option String :=
  if value.all isReadable then Bytes.text? value else none

def sendable? (text : String) : Option Bytes :=
  if (Bytes.ofText text).all isSendable then some (Bytes.ofText text) else none

end ScriptedResponder.Http
