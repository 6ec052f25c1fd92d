import ScriptedResponder.Json.Lexer

/-!
What a string literal denotes. Short escapes and code units are resolved, a high surrogate must be
followed at once by a low one, and the result must be UTF-8 as a whole; literals that fail either
test denote nothing.
-/

set_option autoImplicit false

namespace ScriptedResponder.Json

def escapedByte (letter : UInt8) : UInt8 :=
  if letter = Bytes.ofAscii 'b' then 0x08
  else if letter = Bytes.ofAscii 'f' then 0x0c
  else if letter = Bytes.ofAscii 'n' then 0x0a
  else if letter = Bytes.ofAscii 'r' then 0x0d
  else if letter = Bytes.ofAscii 't' then 0x09
  else letter

def codeUnit (first second third fourth : UInt8) : Nat :=
  [first, second, third, fourth].foldl
    (fun total digit => 16 * total + (Bytes.hexValue? digit).getD 0) 0

def isHighSurrogate (unit : Nat) : Bool := 0xd800 ≤ unit && unit ≤ 0xdbff

def isLowSurrogate (unit : Nat) : Bool := 0xdc00 ≤ unit && unit ≤ 0xdfff

def surrogatePair (high low : Nat) : Char :=
  Char.ofNat (0x10000 + (high - 0xd800) * 0x400 + (low - 0xdc00))

/-- The octets that the pieces denote, after those already decoded, which are held in reverse. -/
def decodePieces (decoded : Bytes) : List Piece → Option Bytes
  | [] => some decoded.reverse
  | .plain byte :: rest => decodePieces (byte :: decoded) rest
  | .escape letter :: rest => decodePieces (escapedByte letter :: decoded) rest
  | .unit first second third fourth :: rest =>
      let unit := codeUnit first second third fourth
      if isLowSurrogate unit then none
      else if isHighSurrogate unit then
        match rest with
        | .unit first second third fourth :: rest =>
            let low := codeUnit first second third fourth
            if isLowSurrogate low then
              decodePieces ((String.utf8EncodeChar (surrogatePair unit low)).reverse ++ decoded)
                rest
            else none
        | _ => none
      else decodePieces ((String.utf8EncodeChar (Char.ofNat unit)).reverse ++ decoded) rest

def decodedText? (pieces : List Piece) : Option String :=
  (decodePieces [] pieces).bind Bytes.text?

end ScriptedResponder.Json
