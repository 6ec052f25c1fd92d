import ScriptedResponder.Bytes

/-!
The lexical units of JSON text, kept exactly as they were spelled: every unit gives its octets
back, so a value can be passed on verbatim. A string literal is a sequence of pieces; nothing here
asks whether its escapes denote characters or its octets are UTF-8.
-/

set_option autoImplicit false

namespace ScriptedResponder.Json

inductive Piece
  | plain (byte : UInt8)
  | escape (letter : UInt8)
  | unit (first second third fourth : UInt8)
  deriving DecidableEq, Repr

def Piece.text : Piece → Bytes
  | .plain byte => [byte]
  | .escape letter => [Bytes.ofAscii '\\', letter]
  | .unit first second third fourth =>
      [Bytes.ofAscii '\\', Bytes.ofAscii 'u', first, second, third, fourth]

inductive Token
  | openList
  | closeList
  | openRecord
  | closeRecord
  | comma
  | colon
  | null
  | truth (value : Bool)
  | number (text : Bytes)
  | string (pieces : List Piece)
  deriving DecidableEq, Repr

def Token.text : Token → Bytes
  | .openList => [Bytes.ofAscii '[']
  | .closeList => [Bytes.ofAscii ']']
  | .openRecord => [Bytes.ofAscii '\x7b']
  | .closeRecord => [Bytes.ofAscii '\x7d']
  | .comma => [Bytes.ofAscii ',']
  | .colon => [Bytes.ofAscii ':']
  | .null => "null".toList.map Bytes.ofAscii
  | .truth true => "true".toList.map Bytes.ofAscii
  | .truth false => "false".toList.map Bytes.ofAscii
  | .number text => text
  | .string pieces =>
      Bytes.ofAscii '"' :: (pieces.flatMap Piece.text ++ [Bytes.ofAscii '"'])

structure Lexeme where
  blank : Bytes
  token : Token
  deriving DecidableEq, Repr

def Lexeme.text (lexeme : Lexeme) : Bytes := lexeme.blank ++ lexeme.token.text

end ScriptedResponder.Json
