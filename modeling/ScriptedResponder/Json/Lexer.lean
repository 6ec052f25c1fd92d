import ScriptedResponder.Json.Lexeme

/-!
From octets to lexemes. Each reader takes one unit from the front of its input and leaves the rest;
`Token.length_lt_of_take?` says that a token is never empty, which is why reading all of them ends.
Blanks are the four of JSON; those after the last token are dropped.
-/

set_option autoImplicit false

namespace ScriptedResponder.Json

def isBlank (byte : UInt8) : Bool :=
  byte = Bytes.ofAscii ' ' || byte = Bytes.ofAscii '\t' ||
    byte = Bytes.ofAscii '\n' || byte = Bytes.ofAscii '\r'

/-! ### String literals -/

def isEscapeLetter (byte : UInt8) : Bool :=
  ("\"\\/bfnrt".toList.map Bytes.ofAscii).contains byte

def isHexDigit (byte : UInt8) : Bool := (Bytes.hexValue? byte).isSome

/-- Take the pieces of a string literal and its closing quote. Octets below 0x20 must be escaped;
those from 0x80 on are not looked at. -/
def takePieces (taken : List Piece) : Bytes → Option (List Piece × Bytes)
  | [] => none
  | byte :: rest =>
      if byte = Bytes.ofAscii '"' then some (taken.reverse, rest)
      else if byte = Bytes.ofAscii '\\' then
        match rest with
        | [] => none
        | letter :: rest =>
            if letter = Bytes.ofAscii 'u' then
              match rest with
              | first :: second :: third :: fourth :: rest =>
                  if isHexDigit first && isHexDigit second && isHexDigit third &&
                      isHexDigit fourth then
                    takePieces (.unit first second third fourth :: taken) rest
                  else none
              | _ => none
            else if isEscapeLetter letter then takePieces (.escape letter :: taken) rest
            else none
      else if byte < 0x20 then none
      else takePieces (.plain byte :: taken) rest

/-! ### Numbers -/

def takeDigits (input : Bytes) : Bytes × Bytes :=
  (input.takeWhile Bytes.isDigit, input.dropWhile Bytes.isDigit)

def takeMinus : Bytes → Bytes × Bytes
  | [] => ([], [])
  | byte :: rest =>
      if byte = Bytes.ofAscii '-' then ([byte], rest) else ([], byte :: rest)

def takeSign : Bytes → Bytes × Bytes
  | [] => ([], [])
  | byte :: rest =>
      if byte = Bytes.ofAscii '+' ∨ byte = Bytes.ofAscii '-' then ([byte], rest)
      else ([], byte :: rest)

def takeWhole (input : Bytes) : Option (Bytes × Bytes) :=
  match takeDigits input with
  | ([], _) => none
  | (first :: second :: more, rest) =>
      if first = Bytes.ofAscii '0' then none else some (first :: second :: more, rest)
  | (digits, rest) => some (digits, rest)

def takeFraction : Bytes → Option (Bytes × Bytes)
  | [] => some ([], [])
  | byte :: rest =>
      if byte = Bytes.ofAscii '.' then
        match takeDigits rest with
        | ([], _) => none
        | (digits, rest) => some (byte :: digits, rest)
      else some ([], byte :: rest)

def takeExponent : Bytes → Option (Bytes × Bytes)
  | [] => some ([], [])
  | byte :: rest =>
      if byte = Bytes.ofAscii 'e' ∨ byte = Bytes.ofAscii 'E' then
        match takeDigits (takeSign rest).2 with
        | ([], _) => none
        | (digits, remaining) => some (byte :: ((takeSign rest).1 ++ digits), remaining)
      else some ([], byte :: rest)

/-! ### Tokens -/

def punctuation? (byte : UInt8) : Option Token :=
  [.openList, .closeList, .openRecord, .closeRecord, .comma, .colon].find?
    fun token => token.text = [byte]

def Token.takePunctuation : Bytes → Option (Token × Bytes)
  | [] => none
  | byte :: rest => (punctuation? byte).map fun token => (token, rest)

def Token.takeWord (input : Bytes) : Option (Token × Bytes) :=
  ([.null, .truth true, .truth false].find? fun token : Token => token.text.isPrefixOf input).map
    fun token => (token, input.drop token.text.length)

def Token.takeString : Bytes → Option (Token × Bytes)
  | [] => none
  | byte :: rest =>
      if byte = Bytes.ofAscii '"' then
        (takePieces [] rest).map fun result => (.string result.1, result.2)
      else none

def Token.takeNumber (input : Bytes) : Option (Token × Bytes) :=
  match takeWhole (takeMinus input).2 with
  | none => none
  | some (whole, afterWhole) =>
      match takeFraction afterWhole with
      | none => none
      | some (fraction, afterFraction) =>
          match takeExponent afterFraction with
          | none => none
          | some (exponent, rest) =>
              some (.number ((takeMinus input).1 ++ whole ++ fraction ++ exponent), rest)

/-- Take the token at the front; no two of the four kinds start alike. -/
def Token.take? (input : Bytes) : Option (Token × Bytes) :=
  match takePunctuation input with
  | some result => some result
  | none =>
      match takeString input with
      | some result => some result
      | none =>
          match takeWord input with
          | some result => some result
          | none => takeNumber input

/-! ### Nothing is lost -/

theorem takePieces_append {taken pieces : List Piece} {input rest : Bytes}
    (read : takePieces taken input = some (pieces, rest)) :
    ∃ more, pieces = taken.reverse ++ more ∧
      more.flatMap Piece.text ++ Bytes.ofAscii '"' :: rest = input := by
  fun_induction takePieces taken input with
  | case1 => cases read
  | case2 taken rest =>
      obtain ⟨rfl, rfl⟩ := Prod.mk.inj (Option.some.inj read)
      exact ⟨[], by simp, rfl⟩
  | case4 taken first second third fourth input _ _ ih =>
      obtain ⟨more, rfl, same⟩ := ih read
      exact ⟨.unit first second third fourth :: more, by simp, by simp [Piece.text, same]⟩
  | case7 taken letter input _ _ _ ih =>
      obtain ⟨more, rfl, same⟩ := ih read
      exact ⟨.escape letter :: more, by simp, by simp [Piece.text, same]⟩
  | case10 taken byte input _ _ _ ih =>
      obtain ⟨more, rfl, same⟩ := ih read
      exact ⟨.plain byte :: more, by simp, by simp [Piece.text, same]⟩
  | _ => cases read

theorem takeDigits_append (input : Bytes) :
    (takeDigits input).1 ++ (takeDigits input).2 = input :=
  List.takeWhile_append_dropWhile

theorem takeMinus_append (input : Bytes) : (takeMinus input).1 ++ (takeMinus input).2 = input := by
  fun_cases takeMinus input <;> rfl

theorem takeSign_append (input : Bytes) : (takeSign input).1 ++ (takeSign input).2 = input := by
  fun_cases takeSign input <;> rfl

theorem takeWhole_append {input whole rest : Bytes} (read : takeWhole input = some (whole, rest)) :
    whole ++ rest = input ∧ whole ≠ [] := by
  have parts := takeDigits_append input
  fun_cases takeWhole input with
  | case3 => simp_all [takeWhole]; grind
  | _ => simp_all [takeWhole]

theorem takeFraction_append {input fraction rest : Bytes}
    (read : takeFraction input = some (fraction, rest)) : fraction ++ rest = input := by
  fun_cases takeFraction input with
  | case3 following digits remaining absent same =>
      have parts := takeDigits_append following
      simp_all [takeFraction]
      grind
  | _ => simp_all [takeFraction]

theorem takeExponent_append {input exponent rest : Bytes}
    (read : takeExponent input = some (exponent, rest)) : exponent ++ rest = input := by
  fun_cases takeExponent input with
  | case3 byte following marked digits remaining absent same =>
      have sign := takeSign_append following
      have parts := takeDigits_append (takeSign following).2
      simp_all [takeExponent]
      grind
  | _ => simp_all [takeExponent]

theorem Token.takeNumber_append {input rest : Bytes} {token : Token}
    (read : Token.takeNumber input = some (token, rest)) :
    token.text ++ rest = input ∧ token.text ≠ [] := by
  have sign := takeMinus_append input
  fun_cases Token.takeNumber input with
  | case4 whole afterWhole wholeRead fraction afterFraction fractionRead exponent remaining
      exponentRead =>
      have wholeParts := takeWhole_append wholeRead
      have fractionParts := takeFraction_append fractionRead
      have exponentParts := takeExponent_append exponentRead
      simp_all [Token.takeNumber]
      obtain ⟨rfl, rfl⟩ := read
      simp_all [Token.text]
  | _ => simp_all [Token.takeNumber]

theorem Token.text_ne_nil_of_word {token : Token}
    (word : token ∈ [.null, .truth true, .truth false]) : token.text ≠ [] := by
  simp only [List.mem_cons, List.not_mem_nil, or_false] at word
  rcases word with rfl | rfl | rfl <;> decide

theorem Token.takePunctuation_append {input rest : Bytes} {token : Token}
    (read : Token.takePunctuation input = some (token, rest)) :
    token.text ++ rest = input ∧ token.text ≠ [] := by
  cases input with
  | nil => cases read
  | cons byte following =>
      simp only [Token.takePunctuation, Option.map_eq_some_iff] at read
      obtain ⟨mark, found, same⟩ := read
      obtain ⟨rfl, rfl⟩ := Prod.mk.inj same
      have spelled := List.find?_some found
      simp only [decide_eq_true_eq] at spelled
      simp [spelled]

theorem Token.takeString_append {input rest : Bytes} {token : Token}
    (read : Token.takeString input = some (token, rest)) :
    token.text ++ rest = input ∧ token.text ≠ [] := by
  cases input with
  | nil => cases read
  | cons byte following =>
      simp only [Token.takeString, Option.ite_none_right_eq_some, Option.map_eq_some_iff] at read
      obtain ⟨opened, ⟨pieces, remaining⟩, taken, same⟩ := read
      obtain ⟨rfl, rfl⟩ := Prod.mk.inj same
      obtain ⟨more, rfl, whole⟩ := takePieces_append taken
      simp [Token.text, opened, ← whole]

theorem Token.takeWord_append {input rest : Bytes} {token : Token}
    (read : Token.takeWord input = some (token, rest)) :
    token.text ++ rest = input ∧ token.text ≠ [] := by
  simp only [Token.takeWord, Option.map_eq_some_iff] at read
  obtain ⟨word, found, same⟩ := read
  obtain ⟨rfl, rfl⟩ := Prod.mk.inj same
  have front := List.find?_some found
  rw [List.isPrefixOf_iff_prefix] at front
  obtain ⟨following, rfl⟩ := front
  exact ⟨by simp, Token.text_ne_nil_of_word (List.mem_of_find?_eq_some found)⟩

theorem Token.text_append_of_take? {input rest : Bytes} {token : Token}
    (read : Token.take? input = some (token, rest)) :
    token.text ++ rest = input ∧ token.text ≠ [] := by
  unfold Token.take? at read
  split at read
  next punctuated => exact Token.takePunctuation_append (punctuated.trans read)
  next =>
    split at read
    next quoted => exact Token.takeString_append (quoted.trans read)
    next =>
      split at read
      next worded => exact Token.takeWord_append (worded.trans read)
      next => exact Token.takeNumber_append read

theorem Token.length_lt_of_take? {input rest : Bytes} {token : Token}
    (read : Token.take? input = some (token, rest)) : rest.length < input.length := by
  obtain ⟨whole, present⟩ := Token.text_append_of_take? read
  have counted := congrArg List.length whole
  have positive := List.length_pos_iff.mpr present
  simp only [List.length_append] at counted
  omega

/-! ### All of it -/

def lexemesFrom (taken : List Lexeme) (input : Bytes) : Option (List Lexeme) :=
  if input.dropWhile isBlank = [] then some taken.reverse
  else
    match _taking : Token.take? (input.dropWhile isBlank) with
    | none => none
    | some (token, rest) => lexemesFrom (⟨input.takeWhile isBlank, token⟩ :: taken) rest
  termination_by input.length
  decreasing_by
    have shorter := Token.length_lt_of_take? _taking
    have dropped := (List.dropWhile_suffix (p := isBlank) (l := input)).length_le
    omega

def lexemes? (input : Bytes) : Option (List Lexeme) := lexemesFrom [] input

theorem lexemesFrom_append {taken found : List Lexeme} {input : Bytes}
    (read : lexemesFrom taken input = some found) :
    ∃ more blank, found = taken.reverse ++ more ∧ blank.all isBlank = true ∧
      more.flatMap Lexeme.text ++ blank = input := by
  fun_induction lexemesFrom taken input with
  | case1 taken input ended =>
      have parts := List.takeWhile_append_dropWhile (p := isBlank) (l := input)
      refine ⟨[], input, by simpa using (Option.some.inj read).symm, ?_, rfl⟩
      rw [← parts, ended, List.append_nil]
      exact List.all_takeWhile
  | case2 => cases read
  | case3 taken input present token rest taking ih =>
      obtain ⟨more, blank, rfl, blanks, same⟩ := ih read
      obtain ⟨whole, _⟩ := Token.text_append_of_take? taking
      refine ⟨⟨input.takeWhile isBlank, token⟩ :: more, blank, by simp, blanks, ?_⟩
      have parts := List.takeWhile_append_dropWhile (p := isBlank) (l := input)
      simp only [List.flatMap_cons, Lexeme.text, List.append_assoc, same]
      rw [whole]
      exact parts

end ScriptedResponder.Json
