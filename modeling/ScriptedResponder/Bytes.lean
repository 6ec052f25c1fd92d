/-!
Octet strings. Bodies, header values and payloads are lists of octets, and text enters and leaves
them as UTF-8. `text?_ofText` and `ofText_of_text?` say that the passage loses nothing: text survives
being written and read back, and octets that read as text are that text written.
-/

set_option autoImplicit false

namespace ScriptedResponder

abbrev Bytes := List UInt8

namespace Bytes

def ofText (text : String) : Bytes := text.toByteArray.data.toList

def text? (bytes : Bytes) : Option String := String.fromUTF8? ⟨bytes.toArray⟩

def ofAscii (character : Char) : UInt8 := character.val.toUInt8

def isDigit (byte : UInt8) : Bool := ofAscii '0' ≤ byte && byte ≤ ofAscii '9'

def hexValue? (byte : UInt8) : Option Nat :=
  if isDigit byte then some (byte.toNat - 48)
  else if ofAscii 'a' ≤ byte && byte ≤ ofAscii 'f' then some (byte.toNat - 87)
  else if ofAscii 'A' ≤ byte && byte ≤ ofAscii 'F' then some (byte.toNat - 55)
  else none

theorem text?_ofText (text : String) : text? (ofText text) = some text := by
  simp only [text?, ofText, String.fromUTF8?, Array.toArray_toList]
  exact dif_pos text.isValidUTF8

theorem ofText_injective {text other : String} (same : ofText text = ofText other) :
    text = other := by
  have read := text?_ofText text
  rw [same, text?_ofText other] at read
  exact (Option.some.inj read).symm

theorem ofText_of_text? {bytes : Bytes} {text : String} (read : text? bytes = some text) :
    ofText text = bytes := by
  unfold text? String.fromUTF8? at read
  split at read
  case isTrue valid =>
    obtain rfl := Option.some.inj read
    simp [ofText, String.fromUTF8]
  case isFalse invalid => cases read

end Bytes

end ScriptedResponder
