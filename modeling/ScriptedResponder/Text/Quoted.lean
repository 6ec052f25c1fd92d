import ScriptedResponder.Text.Printable

/-!
Quoted text for diagnostics: double quotes around it, a backslash before a quote or a backslash,
short escapes for NUL, tab, line feed and carriage return, and a braced lower-case hexadecimal code
point for every other character that does not print on its own.
-/

set_option autoImplicit false

namespace ScriptedResponder.Text

def codePointEscape (character : Char) : List Char :=
  ['\\', 'u', '\x7b'] ++ Nat.toDigits 16 character.toNat ++ ['\x7d']

def quotedCharacter (character : Char) : List Char :=
  if character = '\x00' then ['\\', '0']
  else if character = '\t' then ['\\', 't']
  else if character = '\n' then ['\\', 'n']
  else if character = '\r' then ['\\', 'r']
  else if character = '"' then ['\\', '"']
  else if character = '\\' then ['\\', '\\']
  else if isPrintable character then [character]
  else codePointEscape character

def quoted (text : String) : String :=
  String.ofList ('"' :: text.toList.flatMap quotedCharacter ++ ['"'])

end ScriptedResponder.Text
