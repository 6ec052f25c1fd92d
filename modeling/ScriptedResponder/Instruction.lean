import ScriptedResponder.Json.Parts

/-!
Instructions and the lists of them that events carry. The body of an event is either blank, which
is the empty list, or one JSON list whose elements are the instructions in order. Each names a
condition, an action and perhaps a reply, which is kept exactly as it was spelled.
-/

set_option autoImplicit false

namespace ScriptedResponder

inductive DecodeError
  | invalidJson
  | notAnArray
  deriving DecidableEq, Repr

def DecodeError.message : DecodeError → String
  | .invalidJson => "JSON inválido: o texto não é uma lista de instruções bem formada"
  | .notAnArray => "esperado array de instruções"

structure Instruction where
  condition : String
  action : String
  reply : Option Bytes
  deriving DecidableEq, Repr

namespace Instruction

def fieldNames : List String := ["condition", "action", "reply"]

def textField? (fields : Json.Fields) (name : String) : Option String :=
  match fields.lookup name with
  | none => some ""
  | some value => value.string?

def ofValue? (value : Json.Value) : Option Instruction := do
  let fields ← value.fields? fieldNames 0
  let condition ← textField? fields "condition"
  let action ← textField? fields "action"
  let reply ← Json.optional? Json.Value.verbatim? (fields.lookup "reply")
  return { condition, action, reply }

def list? (body : Bytes) : Option (List Instruction) := do
  let value ← Json.value? body
  let elements ← value.elements?
  elements.mapM ofValue?

/-- The blanks that may stand alone in a body: those of JSON, and the form feed. -/
def isPadding (byte : UInt8) : Bool := Json.isBlank byte || byte = 0x0c

/-- Read the body of an event; its first octet that is not blank decides how. -/
def ofBody (body : Bytes) : Except DecodeError (List Instruction) :=
  match body.find? fun byte => !isPadding byte with
  | none => .ok []
  | some byte =>
      if byte = Bytes.ofAscii '[' then
        match list? body with
        | none => .error .invalidJson
        | some instructions => .ok instructions
      else .error .notAnArray

end Instruction

end ScriptedResponder
