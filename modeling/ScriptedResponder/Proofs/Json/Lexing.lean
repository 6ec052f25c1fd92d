import Mathlib.Data.List.Chain
import Mathlib.Data.List.TakeWhile
import ScriptedResponder.Proofs.Json.Grammar

/-!
What the lexer takes. Every lexeme it finds is legal, and legal lexemes are found again in their own
text, unless two numbers stand side by side: then nothing tells where the first one ends.
-/

set_option autoImplicit false

namespace ScriptedResponder.Json

/-! ### String literals -/

theorem legal_of_takePieces {taken pieces : List Piece} {input rest : Bytes}
    (read : takePieces taken input = some (pieces, rest))
    (legal : ∀ piece ∈ taken, piece.IsLegal) : ∀ piece ∈ pieces, piece.IsLegal := by
  fun_induction takePieces taken input with
  | case2 taken rest =>
      obtain ⟨rfl, rfl⟩ := Prod.mk.inj (Option.some.inj read)
      exact fun piece member => legal piece (List.mem_reverse.mp member)
  | case4 taken first second third fourth input digits _ ih =>
      simp only [Bool.and_eq_true] at digits
      refine ih read (List.forall_mem_cons.mpr ⟨?_, legal⟩)
      exact ⟨digits.1.1.1, digits.1.1.2, digits.1.2, digits.2⟩
  | case7 taken letter input _ escaping _ ih =>
      refine ih read (List.forall_mem_cons.mpr ⟨?_, legal⟩)
      exact List.contains_iff_mem.mp escaping
  | case10 taken byte input unquoted unescaped printable ih =>
      refine ih read (List.forall_mem_cons.mpr ⟨?_, legal⟩)
      exact ⟨UInt8.not_lt.mp printable, unquoted, unescaped⟩
  | _ => cases read

theorem takePieces_quote (taken : List Piece) (rest : Bytes) :
    takePieces taken (Bytes.ofAscii '"' :: rest) = some (taken.reverse, rest) := by
  rw [takePieces.eq_def]
  simp

theorem takePieces_text {piece : Piece} (legal : piece.IsLegal) (taken : List Piece)
    (rest : Bytes) : takePieces taken (piece.text ++ rest) = takePieces (piece :: taken) rest := by
  have apart : Bytes.ofAscii '\\' ≠ Bytes.ofAscii '"' := by decide
  rw [takePieces.eq_def]
  cases piece with
  | plain byte =>
      obtain ⟨printable, unquoted, unescaped⟩ := legal
      simp [Piece.text, unquoted, unescaped, UInt8.not_lt.mpr printable]
  | escape letter =>
      have named : isEscapeLetter letter = true := List.contains_iff_mem.mpr legal
      have notUnit : letter ≠ Bytes.ofAscii 'u' := by
        rintro rfl
        exact absurd named (by decide)
      simp [Piece.text, apart, notUnit, named]
  | unit first second third fourth =>
      obtain ⟨firstHex, secondHex, thirdHex, fourthHex⟩ := legal
      simp [Piece.text, apart, firstHex, secondHex, thirdHex, fourthHex]

theorem takePieces_of {pieces : List Piece} (legal : ∀ piece ∈ pieces, piece.IsLegal)
    (taken : List Piece) (rest : Bytes) :
    takePieces taken (pieces.flatMap Piece.text ++ Bytes.ofAscii '"' :: rest) =
      some (taken.reverse ++ pieces, rest) := by
  induction pieces generalizing taken with
  | nil => simpa using takePieces_quote taken rest
  | cons piece pieces ih =>
      obtain ⟨own, others⟩ := List.forall_mem_cons.mp legal
      rw [List.flatMap_cons, List.append_assoc, takePieces_text own, ih others]
      simp

/-! ### Numbers -/

/-- A text that no number in front of it goes on into. -/
def EndsNumber (rest : Bytes) : Prop :=
  ∀ byte following, rest = byte :: following →
    Bytes.isDigit byte = false ∧ byte ≠ Bytes.ofAscii '.' ∧ byte ≠ Bytes.ofAscii 'e' ∧
      byte ≠ Bytes.ofAscii 'E'

theorem takeDigits_of {digits rest : Bytes} (run : IsDigits digits)
    (ended : ∀ byte following, rest = byte :: following → Bytes.isDigit byte = false) :
    takeDigits (digits ++ rest) = (digits, rest) := by
  unfold takeDigits
  rw [List.takeWhile_append_of_pos run.2, List.dropWhile_append_of_pos run.2]
  cases rest with
  | nil => simp
  | cons byte following => simp [ended byte following rfl]

theorem isDigits_takeDigits {input : Bytes} (present : (takeDigits input).1 ≠ []) :
    IsDigits (takeDigits input).1 :=
  ⟨present, List.all_eq_true.mp List.all_takeWhile⟩

theorem takeWhole_of {whole rest : Bytes} (shape : IsWhole whole)
    (ended : ∀ byte following, rest = byte :: following → Bytes.isDigit byte = false) :
    takeWhole (whole ++ rest) = some (whole, rest) := by
  unfold takeWhole
  rw [takeDigits_of shape.1 ended]
  match whole, shape with
  | [], shape => exact absurd rfl shape.1.1
  | [_], _ => rfl
  | first :: second :: more, shape =>
      have leading : first ≠ Bytes.ofAscii '0' := by
        intro zero
        have alone := shape.2 (by simp [zero])
        simp at alone
      simp [leading]

theorem takeFraction_of {fraction rest : Bytes} (shape : IsFraction fraction)
    (ended : ∀ byte following, rest = byte :: following →
      Bytes.isDigit byte = false ∧ byte ≠ Bytes.ofAscii '.') :
    takeFraction (fraction ++ rest) = some (fraction, rest) := by
  rcases shape with rfl | ⟨digits, run, rfl⟩
  · cases rest with
    | nil => rfl
    | cons byte following => simp [takeFraction, (ended byte following rfl).2]
  · have taken := takeDigits_of run fun byte following same => (ended byte following same).1
    obtain ⟨first, more, rfl, _⟩ := run.starts
    simp only [List.cons_append] at taken
    simp [takeFraction, taken]

theorem takeExponent_of {exponent rest : Bytes} (shape : IsExponent exponent)
    (ended : EndsNumber rest) : takeExponent (exponent ++ rest) = some (exponent, rest) := by
  rcases shape with rfl | ⟨mark, sign, digits, marked, signed, run, rfl⟩
  · cases rest with
    | nil => rfl
    | cons byte following =>
        obtain ⟨_, _, lower, upper⟩ := ended byte following rfl
        simp [takeExponent, lower, upper]
  · have taken := takeDigits_of run fun byte following same => (ended byte following same).1
    have split : takeSign (sign ++ (digits ++ rest)) = (sign, digits ++ rest) := by
      rcases signed with rfl | rfl | rfl
      · obtain ⟨first, more, rfl, digit⟩ := run.starts
        have plus : first ≠ Bytes.ofAscii '+' := by rintro rfl; exact absurd digit (by decide)
        have minus : first ≠ Bytes.ofAscii '-' := by rintro rfl; exact absurd digit (by decide)
        simp [takeSign, plus, minus]
      · rfl
      · rfl
    obtain ⟨first, more, rfl, _⟩ := run.starts
    simp only [List.cons_append] at taken split
    simp [takeExponent, marked, split, taken]

theorem takeNumber_of {text rest : Bytes} (number : IsNumber text) (ended : EndsNumber rest) :
    Token.takeNumber (text ++ rest) = some (.number text, rest) := by
  obtain ⟨minus, whole, fraction, exponent, signed, wholeShape, fractionShape, exponentShape, rfl⟩ :=
    number
  have takenExponent := takeExponent_of exponentShape ended
  -- What follows the fraction starts neither with a digit nor with a point.
  have afterFraction : ∀ byte following, exponent ++ rest = byte :: following →
      Bytes.isDigit byte = false ∧ byte ≠ Bytes.ofAscii '.' := by
    intro byte following same
    rcases exponentShape with rfl | ⟨mark, sign, digits, marked, _, _, rfl⟩
    · obtain ⟨digit, point, _⟩ := ended byte following same
      exact ⟨digit, point⟩
    · obtain ⟨rfl, _⟩ := List.cons.inj same
      rcases marked with rfl | rfl <;> exact ⟨by decide, by decide⟩
  have takenFraction := takeFraction_of fractionShape afterFraction
  have afterWhole : ∀ byte following, fraction ++ (exponent ++ rest) = byte :: following →
      Bytes.isDigit byte = false := by
    intro byte following same
    rcases fractionShape with rfl | ⟨digits, _, rfl⟩
    · exact (afterFraction byte following same).1
    · obtain ⟨rfl, _⟩ := List.cons.inj same
      decide
  have takenWhole := takeWhole_of wholeShape afterWhole
  have takenMinus : takeMinus (minus ++ (whole ++ (fraction ++ (exponent ++ rest)))) =
      (minus, whole ++ (fraction ++ (exponent ++ rest))) := by
    rcases signed with rfl | rfl
    · obtain ⟨first, more, rfl, digit⟩ := wholeShape.1.starts
      have unsigned : first ≠ Bytes.ofAscii '-' := by rintro rfl; exact absurd digit (by decide)
      simp [takeMinus, unsigned]
    · rfl
  simp only [List.append_assoc] at takenMinus ⊢
  simp only [Token.takeNumber, takenMinus, takenWhole, takenFraction, takenExponent,
    List.append_assoc]

theorem isWhole_of_takeWhole {input whole rest : Bytes}
    (read : takeWhole input = some (whole, rest)) : IsWhole whole := by
  have run : (takeDigits input).1 ≠ [] → IsDigits (takeDigits input).1 := isDigits_takeDigits
  unfold takeWhole at read
  split at read
  case h_1 => cases read
  case h_2 first second more remaining taken =>
    split at read
    case isTrue => cases read
    case isFalse leading =>
      obtain ⟨rfl, rfl⟩ := Prod.mk.inj (Option.some.inj read)
      rw [taken] at run
      exact ⟨run (by simp), fun zero => absurd (Option.some.inj zero) leading⟩
  case h_3 digits remaining present single taken =>
    obtain ⟨rfl, rfl⟩ := Prod.mk.inj (Option.some.inj read)
    rw [taken] at run
    match digits, present, single, run with
    | [], present, _, _ => exact absurd rfl present
    | [only], _, _, run =>
        refine ⟨run (by simp), fun zero => ?_⟩
        rw [Option.some.inj zero]
    | first :: second :: more, _, single, _ => exact absurd rfl (single first second more)

theorem isFraction_of_takeFraction {input fraction rest : Bytes}
    (read : takeFraction input = some (fraction, rest)) : IsFraction fraction := by
  cases input with
  | nil =>
      obtain ⟨rfl, rfl⟩ := Prod.mk.inj (Option.some.inj read)
      exact Or.inl rfl
  | cons byte following =>
      have run : (takeDigits following).1 ≠ [] → IsDigits (takeDigits following).1 :=
        isDigits_takeDigits
      by_cases point : byte = Bytes.ofAscii '.'
      · simp only [takeFraction, if_pos point] at read
        split at read
        case h_1 => cases read
        case h_2 digits remaining present taken =>
          obtain ⟨rfl, rfl⟩ := Prod.mk.inj (Option.some.inj read)
          rw [taken] at run
          exact Or.inr ⟨digits, run fun absent => present absent, by rw [point]⟩
      · simp only [takeFraction, if_neg point] at read
        obtain ⟨rfl, rfl⟩ := Prod.mk.inj (Option.some.inj read)
        exact Or.inl rfl

theorem isExponent_of_takeExponent {input exponent rest : Bytes}
    (read : takeExponent input = some (exponent, rest)) : IsExponent exponent := by
  cases input with
  | nil =>
      obtain ⟨rfl, rfl⟩ := Prod.mk.inj (Option.some.inj read)
      exact Or.inl rfl
  | cons byte following =>
      have run : (takeDigits (takeSign following).2).1 ≠ [] →
          IsDigits (takeDigits (takeSign following).2).1 := isDigits_takeDigits
      have signed : (takeSign following).1 = [] ∨ (takeSign following).1 = [Bytes.ofAscii '+'] ∨
          (takeSign following).1 = [Bytes.ofAscii '-'] := by
        fun_cases takeSign following <;> simp_all [takeSign]
      by_cases marked : byte = Bytes.ofAscii 'e' ∨ byte = Bytes.ofAscii 'E'
      · simp only [takeExponent, if_pos marked] at read
        split at read
        case h_1 => cases read
        case h_2 digits remaining present taken =>
          obtain ⟨rfl, rfl⟩ := Prod.mk.inj (Option.some.inj read)
          rw [taken] at run
          exact Or.inr ⟨byte, (takeSign following).1, digits, marked, signed,
            run fun absent => present absent, rfl⟩
      · simp only [takeExponent, if_neg marked] at read
        obtain ⟨rfl, rfl⟩ := Prod.mk.inj (Option.some.inj read)
        exact Or.inl rfl

theorem isNumber_of_takeNumber {input rest : Bytes} {token : Token}
    (read : Token.takeNumber input = some (token, rest)) :
    ∃ text, token = .number text ∧ IsNumber text := by
  have signed : (takeMinus input).1 = [] ∨ (takeMinus input).1 = [Bytes.ofAscii '-'] := by
    fun_cases takeMinus input <;> simp_all
  unfold Token.takeNumber at read
  split at read
  case h_1 => cases read
  case h_2 whole afterWhole takenWhole =>
    split at read
    case h_1 => cases read
    case h_2 fraction afterFraction takenFraction =>
      split at read
      case h_1 => cases read
      case h_2 exponent remaining takenExponent =>
        obtain ⟨rfl, rfl⟩ := Prod.mk.inj (Option.some.inj read)
        exact ⟨_, rfl, (takeMinus input).1, whole, fraction, exponent, signed,
          isWhole_of_takeWhole takenWhole, isFraction_of_takeFraction takenFraction,
          isExponent_of_takeExponent takenExponent, rfl⟩

/-! ### Tokens -/

def Token.IsLegal : Token → Prop
  | .number text => IsNumber text
  | .string pieces => ∀ piece ∈ pieces, piece.IsLegal
  | _ => True

def Token.isNumber : Token → Bool
  | .number _ => true
  | _ => false

theorem Token.legal_of_take? {input rest : Bytes} {token : Token}
    (read : Token.take? input = some (token, rest)) : token.IsLegal := by
  unfold Token.take? at read
  split at read
  case h_1 result punctuated =>
    obtain rfl := Option.some.inj read
    cases input with
    | nil => cases punctuated
    | cons byte following =>
        obtain ⟨mark, found, same⟩ := Option.map_eq_some_iff.mp punctuated
        obtain ⟨rfl, rfl⟩ := Prod.mk.inj same
        have listed := List.mem_of_find?_eq_some found
        simp only [List.mem_cons, List.not_mem_nil, or_false] at listed
        rcases listed with rfl | rfl | rfl | rfl | rfl | rfl <;> trivial
  case h_2 =>
    split at read
    case h_1 result quoted =>
      obtain rfl := Option.some.inj read
      cases input with
      | nil => cases quoted
      | cons byte following =>
          simp only [Token.takeString, Option.ite_none_right_eq_some,
            Option.map_eq_some_iff] at quoted
          obtain ⟨_, ⟨pieces, remaining⟩, taken, same⟩ := quoted
          obtain ⟨rfl, rfl⟩ := Prod.mk.inj same
          exact legal_of_takePieces taken fun _ member => by cases member
    case h_2 =>
      split at read
      case h_1 result worded =>
        obtain rfl := Option.some.inj read
        obtain ⟨word, found, same⟩ := Option.map_eq_some_iff.mp worded
        obtain ⟨rfl, rfl⟩ := Prod.mk.inj same
        have listed := List.mem_of_find?_eq_some found
        simp only [List.mem_cons, List.not_mem_nil, or_false] at listed
        rcases listed with rfl | rfl | rfl <;> trivial
      case h_2 =>
        obtain ⟨text, rfl, number⟩ := isNumber_of_takeNumber read
        exact number

theorem Token.take?_eq_takeNumber {first : UInt8} (rest : Bytes)
    (start : first = Bytes.ofAscii '-' ∨ Bytes.isDigit first = true) :
    Token.take? (first :: rest) = Token.takeNumber (first :: rest) := by
  rcases start with rfl | digit
  · rfl
  · have apart : ∀ other : Char, Bytes.isDigit (Bytes.ofAscii other) = false →
        Bytes.ofAscii other ≠ first := by
      rintro other none rfl
      rw [digit] at none
      cases none
    have mark : punctuation? first = none := by
      simp only [punctuation?, List.find?_eq_none, List.mem_cons, List.not_mem_nil, or_false]
      rintro token (rfl | rfl | rfl | rfl | rfl | rfl) <;>
        simpa [Token.text] using apart _ (by decide)
    have quote : first ≠ Bytes.ofAscii '"' := (apart '"' (by decide)).symm
    have word : Token.takeWord (first :: rest) = none := by
      simp [Token.takeWord, Token.text, apart 'n' (by decide), apart 't' (by decide),
        apart 'f' (by decide)]
    simp only [Token.take?, Token.takePunctuation, mark, Option.map_none, Token.takeString, quote,
      if_false, word]

theorem Token.take?_of {token : Token} (legal : token.IsLegal) {rest : Bytes}
    (ended : token.isNumber = true → EndsNumber rest) :
    Token.take? (token.text ++ rest) = some (token, rest) := by
  cases token with
  | openList | closeList | openRecord | closeRecord | comma | colon | null => rfl
  | truth value => cases value <;> rfl
  | number text =>
      have taken := takeNumber_of legal (ended rfl)
      obtain ⟨first, more, rfl, start⟩ := legal.starts
      exact (Token.take?_eq_takeNumber (more ++ rest) start).trans taken
  | string pieces =>
      have taken := takePieces_of legal [] rest
      have text : (Token.string pieces).text ++ rest = Bytes.ofAscii '"' ::
          (pieces.flatMap Piece.text ++ Bytes.ofAscii '"' :: rest) := by
        simp [Token.text]
      have mark : punctuation? (Bytes.ofAscii '"') = none := by decide
      rw [text]
      simp [Token.take?, Token.takePunctuation, mark, Token.takeString, taken]

/-- A legal token starts with an octet that is neither blank nor, unless it is a number, able to go
on with a number. -/
theorem Token.IsLegal.starts {token : Token} (legal : token.IsLegal) :
    ∃ first rest, token.text = first :: rest ∧ isBlank first = false ∧
      (token.isNumber = false → Bytes.isDigit first = false ∧ first ≠ Bytes.ofAscii '.' ∧
        first ≠ Bytes.ofAscii 'e' ∧ first ≠ Bytes.ofAscii 'E') := by
  cases token with
  | openList | closeList | openRecord | closeRecord | comma | colon | null =>
      exact ⟨_, _, rfl, by decide, fun _ => by decide⟩
  | truth value => cases value <;> exact ⟨_, _, rfl, by decide, fun _ => by decide⟩
  | number text =>
      obtain ⟨⟨first, rest, same, solid⟩, _⟩ := IsNumber.unpadded legal
      exact ⟨first, rest, same, solid, fun other => by cases other⟩
  | string pieces => exact ⟨_, _, rfl, by decide, fun _ => by decide⟩

/-! ### Lexemes -/

structure Lexeme.IsLegal (lexeme : Lexeme) : Prop where
  blanks : Blanks lexeme.blank
  token : lexeme.token.IsLegal

/-- No two numbers stand side by side. -/
def Apart (lexemes : List Lexeme) : Prop :=
  lexemes.IsChain fun left right => left.token.isNumber = true → right.token.isNumber = false

theorem legal_of_lexemesFrom {taken found : List Lexeme} {input : Bytes}
    (read : lexemesFrom taken input = some found) (legal : ∀ lexeme ∈ taken, lexeme.IsLegal) :
    ∀ lexeme ∈ found, lexeme.IsLegal := by
  fun_induction lexemesFrom taken input with
  | case1 taken input ended =>
      obtain rfl := Option.some.inj read
      exact fun lexeme member => legal lexeme (List.mem_reverse.mp member)
  | case2 => cases read
  | case3 taken input present token rest taking ih =>
      refine ih read (List.forall_mem_cons.mpr ⟨?_, legal⟩)
      exact ⟨blanks_takeWhile input, Token.legal_of_take? taking⟩

theorem lexemesFrom_blank {blank : Bytes} (blanks : Blanks blank) (taken : List Lexeme) :
    lexemesFrom taken blank = some taken.reverse := by
  have ended : blank.dropWhile isBlank = [] := List.dropWhile_eq_nil_iff.mpr blanks
  rw [lexemesFrom, if_pos ended]

theorem lexemesFrom_lexeme {lexeme : Lexeme} (legal : lexeme.IsLegal) {rest : Bytes}
    (ended : lexeme.token.isNumber = true → EndsNumber rest) (taken : List Lexeme) :
    lexemesFrom taken (lexeme.text ++ rest) = lexemesFrom (lexeme :: taken) rest := by
  obtain ⟨first, more, start, solid, _⟩ := legal.token.starts
  have opened : lexeme.text ++ rest = lexeme.blank ++ (lexeme.token.text ++ rest) := by
    simp [Lexeme.text]
  have dropped : (lexeme.text ++ rest).dropWhile isBlank = lexeme.token.text ++ rest := by
    rw [opened, legal.blanks.dropWhile_append, start]
    simp [solid]
  have blank : (lexeme.text ++ rest).takeWhile isBlank = lexeme.blank := by
    rw [opened, legal.blanks.takeWhile_append, start]
    simp [solid]
  have taking := Token.take?_of legal.token ended
  rw [lexemesFrom, dropped, blank, if_neg (by simp [start])]
  split
  case h_1 refused =>
    rw [taking] at refused
    cases refused
  case h_2 token remaining read =>
    rw [taking] at read
    obtain ⟨rfl, rfl⟩ := Prod.mk.inj (Option.some.inj read)
    rfl

theorem endsNumber_blank {blank : Bytes} (blanks : Blanks blank) : EndsNumber blank := by
  rintro byte following rfl
  have stands := blanks byte List.mem_cons_self
  simp only [isBlank, Bool.or_eq_true, decide_eq_true_eq] at stands
  rcases stands with ((rfl | rfl) | rfl) | rfl <;> decide

theorem endsNumber_lexeme {lexeme : Lexeme} (legal : lexeme.IsLegal)
    (other : lexeme.token.isNumber = false) (rest : Bytes) : EndsNumber (lexeme.text ++ rest) := by
  obtain ⟨first, more, start, _, ends⟩ := legal.token.starts
  intro byte following same
  cases blank : lexeme.blank with
  | nil =>
      simp only [Lexeme.text, blank, start, List.nil_append, List.cons_append] at same
      obtain ⟨rfl, _⟩ := List.cons.inj same
      exact ends other
  | cons leading blanks =>
      simp only [Lexeme.text, blank, List.cons_append] at same
      obtain ⟨rfl, _⟩ := List.cons.inj same
      exact endsNumber_blank legal.blanks leading blanks blank

theorem lexemesFrom_of {lexemes : List Lexeme} (legal : ∀ lexeme ∈ lexemes, lexeme.IsLegal)
    (apart : Apart lexemes) {blank : Bytes} (blanks : Blanks blank) (taken : List Lexeme) :
    lexemesFrom taken (lexemes.flatMap Lexeme.text ++ blank) = some (taken.reverse ++ lexemes) := by
  induction lexemes generalizing taken with
  | nil => simpa using lexemesFrom_blank blanks taken
  | cons lexeme lexemes ih =>
      obtain ⟨own, others⟩ := List.forall_mem_cons.mp legal
      have ended : lexeme.token.isNumber = true →
          EndsNumber (lexemes.flatMap Lexeme.text ++ blank) := by
        intro number
        cases lexemes with
        | nil => exact endsNumber_blank blanks
        | cons next later =>
            have other := (List.isChain_cons_cons.mp apart).1 number
            simpa using endsNumber_lexeme (others next List.mem_cons_self) other
              (later.flatMap Lexeme.text ++ blank)
      rw [List.flatMap_cons, List.append_assoc, lexemesFrom_lexeme own ended,
        ih others apart.tail]
      simp

/-- The lexemes of a text are legal, and their text is all of it but blanks at the end. -/
theorem lexemes?_sound {input : Bytes} {lexemes : List Lexeme}
    (read : lexemes? input = some lexemes) :
    (∀ lexeme ∈ lexemes, lexeme.IsLegal) ∧
      ∃ blank, Blanks blank ∧ input = lexemes.flatMap Lexeme.text ++ blank := by
  refine ⟨legal_of_lexemesFrom read (by simp), ?_⟩
  obtain ⟨more, blank, rfl, blanks, same⟩ := lexemesFrom_append read
  exact ⟨blank, List.all_eq_true.mp blanks, by simpa using same.symm⟩

end ScriptedResponder.Json
