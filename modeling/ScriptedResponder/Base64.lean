import ScriptedResponder.Bytes

/-!
Base64 with the standard alphabet. Three octets are written as four symbols; one or two octets at
the end leave unused bits, which are zero, and are padded to four symbols. Reading accepts no other
spelling of any octets: missing or misplaced padding, foreign symbols and unused bits that are set
are all refused.
-/

set_option autoImplicit false

namespace ScriptedResponder.Base64

def symbol (number : Nat) : UInt8 :=
  if number < 26 then UInt8.ofNat (65 + number)
  else if number < 52 then UInt8.ofNat (71 + number)
  else if number < 62 then UInt8.ofNat (number - 4)
  else if number = 62 then Bytes.ofAscii '+'
  else Bytes.ofAscii '/'

def number? (symbol : UInt8) : Option Nat :=
  let code := symbol.toNat
  if 65 ≤ code ∧ code ≤ 90 then some (code - 65)
  else if 97 ≤ code ∧ code ≤ 122 then some (code - 71)
  else if 48 ≤ code ∧ code ≤ 57 then some (code + 4)
  else if symbol = Bytes.ofAscii '+' then some 62
  else if symbol = Bytes.ofAscii '/' then some 63
  else none

def padding : UInt8 := Bytes.ofAscii '='

def group (first second third : UInt8) : Bytes :=
  [symbol (first.toNat / 4), symbol (first.toNat % 4 * 16 + second.toNat / 16),
    symbol (second.toNat % 16 * 4 + third.toNat / 64), symbol (third.toNat % 64)]

def encode : Bytes → Bytes
  | [] => []
  | [first] =>
      [symbol (first.toNat / 4), symbol (first.toNat % 4 * 16), padding, padding]
  | [first, second] =>
      [symbol (first.toNat / 4), symbol (first.toNat % 4 * 16 + second.toNat / 16),
        symbol (second.toNat % 16 * 4), padding]
  | first :: second :: third :: rest => group first second third ++ encode rest

def octets (first second third fourth : Nat) : Bytes :=
  [UInt8.ofNat (first * 4 + second / 16), UInt8.ofNat (second % 16 * 16 + third / 4),
    UInt8.ofNat (third % 4 * 64 + fourth)]

/-- Read the last group, which may be padded but leaves no bit over. -/
def lastGroup? (first second third fourth : UInt8) : Option Bytes :=
  match number? first, number? second with
  | some high, some low =>
      if third = padding then
        if fourth = padding ∧ low % 16 = 0 then some [UInt8.ofNat (high * 4 + low / 16)] else none
      else
        match number? third with
        | none => none
        | some middle =>
            if fourth = padding then
              if middle % 4 = 0 then some ((octets high low middle 0).take 2) else none
            else (number? fourth).map (octets high low middle)
  | _, _ => none

def innerGroup? (first second third fourth : UInt8) : Option Bytes :=
  match number? first, number? second, number? third, number? fourth with
  | some high, some low, some middle, some last => some (octets high low middle last)
  | _, _, _, _ => none

def decodeFrom (decoded : Bytes) : Bytes → Option Bytes
  | [] => some decoded.reverse
  | [first, second, third, fourth] =>
      (lastGroup? first second third fourth).map fun last => decoded.reverse ++ last
  | first :: second :: third :: fourth :: rest =>
      match innerGroup? first second third fourth with
      | none => none
      | some inner => decodeFrom (inner.reverse ++ decoded) rest
  | _ => none

def decode? (symbols : Bytes) : Option Bytes := decodeFrom [] symbols

end ScriptedResponder.Base64
