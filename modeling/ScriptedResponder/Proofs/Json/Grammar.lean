import ScriptedResponder.Json.Lexer

/-!
The grammar of JSON, said of octets and without a reader. Blanks may stand around the parts of a
list or a record and nowhere else; a value has none at its ends. A part of a container can be
exchanged for another of its kind, which leaves everything around it as it was.
-/

set_option autoImplicit false

namespace ScriptedResponder.Json

/-! ### Tokens -/

def Blanks (text : Bytes) : Prop := ∀ byte ∈ text, isBlank byte = true

def IsDigits (text : Bytes) : Prop := text ≠ [] ∧ ∀ byte ∈ text, Bytes.isDigit byte = true

def IsWhole (text : Bytes) : Prop :=
  IsDigits text ∧ (text.head? = some (Bytes.ofAscii '0') → text = [Bytes.ofAscii '0'])

def IsFraction (text : Bytes) : Prop :=
  text = [] ∨ ∃ digits, IsDigits digits ∧ text = Bytes.ofAscii '.' :: digits

def IsExponent (text : Bytes) : Prop :=
  text = [] ∨ ∃ mark sign digits, (mark = Bytes.ofAscii 'e' ∨ mark = Bytes.ofAscii 'E') ∧
    (sign = [] ∨ sign = [Bytes.ofAscii '+'] ∨ sign = [Bytes.ofAscii '-']) ∧ IsDigits digits ∧
    text = mark :: (sign ++ digits)

def IsNumber (text : Bytes) : Prop :=
  ∃ minus whole fraction exponent, (minus = [] ∨ minus = [Bytes.ofAscii '-']) ∧ IsWhole whole ∧
    IsFraction fraction ∧ IsExponent exponent ∧ text = minus ++ whole ++ fraction ++ exponent

/-- Octets below 0x20, the quote and the backslash cannot stand for themselves; eight letters make
short escapes, and four hexadecimal digits any code unit. -/
def Piece.IsLegal : Piece → Prop
  | .plain byte => 0x20 ≤ byte ∧ byte ≠ Bytes.ofAscii '"' ∧ byte ≠ Bytes.ofAscii '\\'
  | .escape letter => letter ∈ "\"\\/bfnrt".toList.map Bytes.ofAscii
  | .unit first second third fourth =>
      isHexDigit first = true ∧ isHexDigit second = true ∧ isHexDigit third = true ∧
        isHexDigit fourth = true

def literal (pieces : List Piece) : Bytes :=
  Bytes.ofAscii '"' :: (pieces.flatMap Piece.text ++ [Bytes.ofAscii '"'])

/-! ### Containers -/

inductive Separated {Part : Type} (Spelled : Part → Bytes → Prop) : List Part → Bytes → Prop
  | last {part : Part} {text : Bytes} (spelled : Spelled part text) :
      Separated Spelled [part] text
  | more {part : Part} {text : Bytes} {parts : List Part} {rest : Bytes}
      (spelled : Spelled part text) (others : Separated Spelled parts rest) :
      Separated Spelled (part :: parts) (text ++ Bytes.ofAscii ',' :: rest)

/-- Parts between brackets; where there are none, blanks may stand instead. -/
inductive Enclosed {Part : Type} (Spelled : Part → Bytes → Prop) (opening closing : Char) :
    List Part → Bytes → Prop
  | empty {blank : Bytes} (blanks : Blanks blank) :
      Enclosed Spelled opening closing []
        (Bytes.ofAscii opening :: (blank ++ [Bytes.ofAscii closing]))
  | filled {parts : List Part} {text : Bytes} (separated : Separated Spelled parts text) :
      Enclosed Spelled opening closing parts
        (Bytes.ofAscii opening :: (text ++ [Bytes.ofAscii closing]))

def IsElement (element text : Bytes) : Prop :=
  ∃ before after, Blanks before ∧ Blanks after ∧ text = before ++ element ++ after

def IsMember (member : List Piece × Bytes) (text : Bytes) : Prop :=
  ∃ before between value, Blanks before ∧ (∀ piece ∈ member.1, piece.IsLegal) ∧ Blanks between ∧
    IsElement member.2 value ∧
    text = before ++ literal member.1 ++ between ++ Bytes.ofAscii ':' :: value

def IsList : List Bytes → Bytes → Prop := Enclosed IsElement '[' ']'

def IsRecord : List (List Piece × Bytes) → Bytes → Prop := Enclosed IsMember '\x7b' '\x7d'

inductive IsValue : Bytes → Prop
  | word {token : Token} (word : token ∈ [Token.null, .truth true, .truth false]) :
      IsValue token.text
  | number {text : Bytes} (number : IsNumber text) : IsValue text
  | string {pieces : List Piece} (legal : ∀ piece ∈ pieces, piece.IsLegal) :
      IsValue (literal pieces)
  | list {elements : List Bytes} {text : Bytes} (enclosed : IsList elements text)
      (values : ∀ element ∈ elements, IsValue element) : IsValue text
  | record {members : List (List Piece × Bytes)} {text : Bytes} (enclosed : IsRecord members text)
      (values : ∀ member ∈ members, IsValue member.2) : IsValue text

/-- A JSON text: a value in UTF-8, without the blanks that may stand around it. -/
def IsText (text : Bytes) : Prop := IsValue text ∧ (Bytes.text? text).isSome = true

/-! ### Blanks -/

theorem blanks_nil : Blanks [] := fun _ member => by cases member

theorem blanks_takeWhile (text : Bytes) : Blanks (text.takeWhile isBlank) :=
  List.all_eq_true.mp List.all_takeWhile

theorem Blanks.dropWhile_append {blank : Bytes} (blanks : Blanks blank) (rest : Bytes) :
    (blank ++ rest).dropWhile isBlank = rest.dropWhile isBlank :=
  List.dropWhile_append_of_pos blanks

theorem Blanks.takeWhile_append {blank : Bytes} (blanks : Blanks blank) (rest : Bytes) :
    (blank ++ rest).takeWhile isBlank = blank ++ rest.takeWhile isBlank :=
  List.takeWhile_append_of_pos blanks

/-! ### The ends of a value -/

def Unpadded (text : Bytes) : Prop :=
  (∃ first rest, text = first :: rest ∧ isBlank first = false) ∧
    ∃ rest last, text = rest ++ [last] ∧ isBlank last = false

theorem unpadded_brackets {first last : UInt8} (inside : Bytes) (opens : isBlank first = false)
    (closes : isBlank last = false) : Unpadded (first :: (inside ++ [last])) :=
  ⟨⟨first, inside ++ [last], rfl, opens⟩, first :: inside, last, rfl, closes⟩

theorem not_isBlank_of_isDigit {byte : UInt8} (digit : Bytes.isDigit byte = true) :
    isBlank byte = false := by
  cases blank : isBlank byte with
  | false => rfl
  | true =>
      simp only [isBlank, Bool.or_eq_true, decide_eq_true_eq] at blank
      rcases blank with ((rfl | rfl) | rfl) | rfl <;> exact absurd digit (by decide)

theorem IsDigits.ends {digits : Bytes} (run : IsDigits digits) :
    ∃ rest last, digits = rest ++ [last] ∧ isBlank last = false := by
  refine ⟨digits.dropLast, digits.getLast run.1, (List.dropLast_concat_getLast run.1).symm, ?_⟩
  exact not_isBlank_of_isDigit (run.2 _ (List.getLast_mem run.1))

theorem IsDigits.starts {digits : Bytes} (run : IsDigits digits) :
    ∃ first rest, digits = first :: rest ∧ Bytes.isDigit first = true := by
  obtain ⟨first, rest, rfl⟩ := List.exists_cons_of_ne_nil run.1
  exact ⟨first, rest, rfl, run.2 first List.mem_cons_self⟩

theorem IsNumber.starts {text : Bytes} (number : IsNumber text) :
    ∃ first rest, text = first :: rest ∧
      (first = Bytes.ofAscii '-' ∨ Bytes.isDigit first = true) := by
  obtain ⟨minus, whole, fraction, exponent, signed, digits, _, _, rfl⟩ := number
  obtain ⟨first, rest, rfl, digit⟩ := digits.1.starts
  rcases signed with rfl | rfl
  · exact ⟨first, rest ++ fraction ++ exponent, by simp, Or.inr digit⟩
  · exact ⟨Bytes.ofAscii '-', first :: rest ++ fraction ++ exponent, by simp, Or.inl rfl⟩

theorem IsNumber.ends {text : Bytes} (number : IsNumber text) :
    ∃ rest last, text = rest ++ [last] ∧ isBlank last = false := by
  obtain ⟨minus, whole, fraction, exponent, _, digits, fractional, exponential, rfl⟩ := number
  rcases exponential with rfl | ⟨mark, sign, power, _, _, run, rfl⟩
  · rcases fractional with rfl | ⟨places, run, rfl⟩
    · obtain ⟨rest, last, rfl, solid⟩ := digits.1.ends
      exact ⟨minus ++ rest, last, by simp, solid⟩
    · obtain ⟨rest, last, rfl, solid⟩ := run.ends
      exact ⟨minus ++ whole ++ Bytes.ofAscii '.' :: rest, last, by simp, solid⟩
  · obtain ⟨rest, last, rfl, solid⟩ := run.ends
    exact ⟨minus ++ whole ++ fraction ++ mark :: (sign ++ rest), last, by simp, solid⟩

theorem IsNumber.unpadded {text : Bytes} (number : IsNumber text) : Unpadded text := by
  obtain ⟨first, rest, same, start⟩ := number.starts
  refine ⟨⟨first, rest, same, ?_⟩, number.ends⟩
  rcases start with rfl | digit
  · decide
  · exact not_isBlank_of_isDigit digit

theorem Enclosed.unpadded {Part : Type} {Spelled : Part → Bytes → Prop} {opening closing : Char}
    {parts : List Part} {text : Bytes} (enclosed : Enclosed Spelled opening closing parts text)
    (opens : isBlank (Bytes.ofAscii opening) = false)
    (closes : isBlank (Bytes.ofAscii closing) = false) : Unpadded text := by
  cases enclosed with
  | empty => exact unpadded_brackets _ opens closes
  | filled => exact unpadded_brackets _ opens closes

theorem IsValue.unpadded {text : Bytes} (value : IsValue text) : Unpadded text := by
  cases value with
  | word word =>
      simp only [List.mem_cons, List.not_mem_nil, or_false] at word
      rcases word with rfl | rfl | rfl
      · exact unpadded_brackets ("ul".toList.map Bytes.ofAscii) (by decide) (by decide)
      · exact unpadded_brackets ("ru".toList.map Bytes.ofAscii) (by decide) (by decide)
      · exact unpadded_brackets ("als".toList.map Bytes.ofAscii) (by decide) (by decide)
  | number number => exact number.unpadded
  | string legal => exact unpadded_brackets _ (by decide) (by decide)
  | list enclosed _ => exact enclosed.unpadded (by decide) (by decide)
  | record enclosed _ => exact enclosed.unpadded (by decide) (by decide)

theorem isList_joined (first : Bytes) (others : List Bytes) :
    IsList (first :: others) (Bytes.ofAscii '[' ::
      (first ++ others.flatMap (fun other => Bytes.ofAscii ',' :: other) ++ [Bytes.ofAscii ']'])) := by
  have itself : ∀ element, IsElement element element :=
    fun element => ⟨[], [], blanks_nil, blanks_nil, by simp⟩
  refine .filled ?_
  induction others generalizing first with
  | nil => simpa using Separated.last (itself first)
  | cons second others ih => simpa using Separated.more (itself first) (ih second)

/-! ### Exchanging a part -/

variable {Part : Type} {Spelled : Part → Bytes → Prop}

theorem Separated.exchange {earlier later : List Part} {part : Part} {text : Bytes}
    (separated : Separated Spelled (earlier ++ part :: later) text) :
    ∃ front own back, text = front ++ own ++ back ∧ Spelled part own ∧
      ∀ other spelling, Spelled other spelling →
        Separated Spelled (earlier ++ other :: later) (front ++ spelling ++ back) := by
  induction earlier generalizing text with
  | nil =>
      cases separated with
      | last spelled =>
          refine ⟨[], text, [], by simp, spelled, ?_⟩
          intro other spelling otherSpelled
          simpa using Separated.last otherSpelled
      | @more _ own _ rest spelled others =>
          refine ⟨[], own, Bytes.ofAscii ',' :: rest, by simp, spelled, ?_⟩
          intro other spelling otherSpelled
          simpa using Separated.more otherSpelled others
  | cons first earlier ih =>
      generalize parts : first :: earlier ++ part :: later = all at separated
      cases separated with
      | last spelled => simp at parts
      | @more _ own _ rest spelled others =>
          obtain ⟨rfl, rfl⟩ := List.cons.inj parts
          obtain ⟨front, middle, back, rfl, itself, exchanged⟩ := ih others
          refine ⟨own ++ Bytes.ofAscii ',' :: front, middle, back, by simp, itself, ?_⟩
          intro other spelling otherSpelled
          have followed := Separated.more spelled (exchanged other spelling otherSpelled)
          simpa using followed

theorem Enclosed.exchange {opening closing : Char} {earlier later : List Part} {part : Part}
    {text : Bytes} (enclosed : Enclosed Spelled opening closing (earlier ++ part :: later) text) :
    ∃ front own back, front ≠ [] ∧ text = front ++ own ++ back ∧ Spelled part own ∧
      ∀ other spelling, Spelled other spelling →
        Enclosed Spelled opening closing (earlier ++ other :: later) (front ++ spelling ++ back) := by
  generalize parts : earlier ++ part :: later = all at enclosed
  cases enclosed with
  | empty => simp at parts
  | filled separated =>
      subst parts
      obtain ⟨front, own, back, rfl, itself, exchanged⟩ := separated.exchange
      refine ⟨Bytes.ofAscii opening :: front, own, back ++ [Bytes.ofAscii closing], by simp,
        by simp, itself, ?_⟩
      intro other spelling otherSpelled
      have filled : Enclosed Spelled opening closing _ _ :=
        .filled (exchanged other spelling otherSpelled)
      simpa using filled

theorem Enclosed.exists_text {opening closing : Char} {parts : List Part} {text : Bytes}
    (enclosed : Enclosed Spelled opening closing parts text) {part : Part}
    (member : part ∈ parts) : ∃ own, Spelled part own := by
  obtain ⟨earlier, later, rfl⟩ := List.append_of_mem member
  obtain ⟨_, own, _, _, _, spelled, _⟩ := enclosed.exchange
  exact ⟨own, spelled⟩

end ScriptedResponder.Json
