import ScriptedResponder.Json.Lexeme

/-!
Which lexemes form one value. Brackets are kept on an explicit stack, so values nest to any depth;
each token advances a finite control by one step. `takeValue?_append` says that the value taken is
the front of the input, less the blanks before it.
-/

set_option autoImplicit false

namespace ScriptedResponder.Json

/-- The lexemes of one value; the blanks before its first token are not part of it. -/
structure Value where
  first : Token
  following : List Lexeme
  deriving DecidableEq, Repr

def Value.text (value : Value) : Bytes :=
  value.first.text ++ value.following.flatMap Lexeme.text

inductive Bracket
  | list
  | record
  deriving DecidableEq, Repr

inductive Expectation
  | value
  | valueOrClose
  | name
  | nameOrClose
  | colon
  | separator
  deriving DecidableEq, Repr

/-- What one token does: nothing legal, open or continue something, or end the whole value. -/
inductive Advance
  | refuse
  | proceed (expected : Expectation) (opened : List Bracket)
  | finish
  deriving DecidableEq, Repr

def Advance.afterValue : List Bracket → Advance
  | [] => .finish
  | opened => .proceed .separator opened

def Advance.closeList : List Bracket → Advance
  | .list :: outer => .afterValue outer
  | _ => .refuse

def Advance.closeRecord : List Bracket → Advance
  | .record :: outer => .afterValue outer
  | _ => .refuse

def Advance.startValue (opened : List Bracket) : Token → Advance
  | .openList => .proceed .valueOrClose (.list :: opened)
  | .openRecord => .proceed .nameOrClose (.record :: opened)
  | .null | .truth _ | .number _ | .string _ => .afterValue opened
  | .closeList | .closeRecord | .comma | .colon => .refuse

def Advance.separate (opened : List Bracket) : Token → Advance
  | .comma =>
      match opened with
      | [] => .refuse
      | .list :: _ => .proceed .value opened
      | .record :: _ => .proceed .name opened
  | .closeList => .closeList opened
  | .closeRecord => .closeRecord opened
  | _ => .refuse

def Advance.step (opened : List Bracket) (token : Token) : Expectation → Advance
  | .value => .startValue opened token
  | .valueOrClose => if token = .closeList then .closeList opened else .startValue opened token
  | .name =>
      match token with
      | .string _ => .proceed .colon opened
      | _ => .refuse
  | .nameOrClose =>
      match token with
      | .string _ => .proceed .colon opened
      | .closeRecord => .closeRecord opened
      | _ => .refuse
  | .colon => if token = .colon then .proceed .value opened else .refuse
  | .separator => .separate opened token

def takeNested (expected : Expectation) (opened : List Bracket) (taken : List Lexeme) :
    List Lexeme → Option (List Lexeme × List Lexeme)
  | [] => none
  | lexeme :: rest =>
      match Advance.step opened lexeme.token expected with
      | .refuse => none
      | .finish => some ((lexeme :: taken).reverse, rest)
      | .proceed expected opened => takeNested expected opened (lexeme :: taken) rest

def takeValue? (input : List Lexeme) : Option (Value × List Lexeme) :=
  match takeNested .value [] [] input with
  | some (first :: following, rest) => some (⟨first.token, following⟩, rest)
  | _ => none

theorem takeNested_append {expected : Expectation} {opened : List Bracket}
    {taken found input rest : List Lexeme}
    (read : takeNested expected opened taken input = some (found, rest)) :
    ∃ more, more ≠ [] ∧ found = taken.reverse ++ more ∧ more ++ rest = input := by
  fun_induction takeNested expected opened taken input with
  | case1 => cases read
  | case2 => cases read
  | case3 expected opened taken lexeme following finished =>
      obtain ⟨rfl, rfl⟩ := Prod.mk.inj (Option.some.inj read)
      exact ⟨[lexeme], by simp, by simp, rfl⟩
  | case4 expected opened taken lexeme following next outer proceeded ih =>
      obtain ⟨more, _, rfl, same⟩ := ih read
      exact ⟨lexeme :: more, by simp, by simp, by simp [same]⟩

theorem takeValue?_append {input rest : List Lexeme} {value : Value}
    (read : takeValue? input = some (value, rest)) :
    ∃ blank, ⟨blank, value.first⟩ :: value.following ++ rest = input := by
  unfold takeValue? at read
  split at read
  case h_2 => cases read
  case h_1 first following remaining nested =>
    obtain ⟨rfl, rfl⟩ := Prod.mk.inj (Option.some.inj read)
    obtain ⟨more, _, found, same⟩ := takeNested_append nested
    simp only [List.reverse_nil, List.nil_append] at found
    exact ⟨first.blank, by rw [← same, ← found]⟩

theorem takeValue?_length {input rest : List Lexeme} {value : Value}
    (read : takeValue? input = some (value, rest)) : rest.length < input.length := by
  obtain ⟨blank, same⟩ := takeValue?_append read
  have counted := congrArg List.length same
  simp only [List.length_append, List.length_cons] at counted
  omega

end ScriptedResponder.Json
