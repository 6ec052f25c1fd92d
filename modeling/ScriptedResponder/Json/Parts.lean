import ScriptedResponder.Json.Decoded
import ScriptedResponder.Json.Nesting

/-!
Values one level deep. A text is split into the elements of a list or the members of a record,
each a value that is only known to be grammatical; a closed set of field names then picks from
them. What a field must hold beyond that is asked of its value alone, so parts that nobody reads
may hold any grammatical value at all.
-/

set_option autoImplicit false

namespace ScriptedResponder.Json

def value? (input : Bytes) : Option Value :=
  match lexemes? input with
  | none => none
  | some lexemes =>
      match takeValue? lexemes with
      | some (value, []) => some value
      | _ => none

/-! ### Lists and records -/

def elementsFrom (taken : List Value) (input : List Lexeme) : Option (List Value) :=
  match _taking : takeValue? input with
  | none => none
  | some (_, []) => none
  | some (value, separator :: rest) =>
      match separator.token, rest with
      | .closeList, [] => some (value :: taken).reverse
      | .comma, rest => elementsFrom (value :: taken) rest
      | _, _ => none
  termination_by input.length
  decreasing_by
    have shorter := takeValue?_length _taking
    simp only [List.length_cons] at shorter
    omega

def Value.elements? (value : Value) : Option (List Value) :=
  if value.first = .openList then
    match value.following with
    | [⟨_, .closeList⟩] => some []
    | following => elementsFrom [] following
  else none

abbrev Member := List Piece × Value

def membersFrom (taken : List Member) (input : List Lexeme) : Option (List Member) :=
  match input with
  | ⟨_, .string name⟩ :: ⟨_, .colon⟩ :: input =>
      match _taking : takeValue? input with
      | none => none
      | some (_, []) => none
      | some (value, separator :: rest) =>
          match separator.token, rest with
          | .closeRecord, [] => some ((name, value) :: taken).reverse
          | .comma, rest => membersFrom ((name, value) :: taken) rest
          | _, _ => none
  | _ => none
  termination_by input.length
  decreasing_by
    have shorter := takeValue?_length _taking
    simp only [List.length_cons] at shorter ⊢
    omega

def Value.members? (value : Value) : Option (List Member) :=
  if value.first = .openRecord then
    match value.following with
    | [⟨_, .closeRecord⟩] => some []
    | following => membersFrom [] following
  else none

/-! ### What a field may hold -/

def Value.string? (value : Value) : Option String :=
  match value.first with
  | .string pieces => decodedText? pieces
  | _ => none

def Value.verbatim? (value : Value) : Option Bytes :=
  (Bytes.text? value.text).map fun _ => value.text

def optional? {Content : Type} (read : Value → Option Content) :
    Option Value → Option (Option Content)
  | none => some none
  | some value => if value.first = .null then some none else (read value).map some

/-! ### Fields -/

abbrev Fields := List (String × Value)

/-- Collect the named fields of a record. Every name must denote a text; a member of another name
is passed over, and a named field given twice is refused. -/
def collectFields (names : List String) (found : Fields) : List Member → Option Fields
  | [] => some found
  | (pieces, value) :: rest =>
      match decodedText? pieces with
      | none => none
      | some name =>
          if names.contains name then
            if found.any fun field => field.1 = name then none
            else collectFields names (found ++ [(name, value)]) rest
          else collectFields names found rest

/-- The fields of a value that spells a structure: a record, or a list of the fields in order, of
which there may not be more than names nor fewer than required. -/
def Value.fields? (names : List String) (required : Nat) (value : Value) : Option Fields :=
  match value.first with
  | .openRecord => value.members?.bind (collectFields names [])
  | .openList =>
      match value.elements? with
      | none => none
      | some elements =>
          if required ≤ elements.length ∧ elements.length ≤ names.length then
            some (names.zip elements)
          else none
  | _ => none

end ScriptedResponder.Json
