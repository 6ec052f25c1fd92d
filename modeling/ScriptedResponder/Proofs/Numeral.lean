import Mathlib.Data.Nat.Digits.Defs
import ScriptedResponder.Numeral

/-!
What a numeral writes. The value of a run of digits is the number it is in base ten, and a text is
an unsigned numeral exactly when it is such a run after at most one plus sign and its number fits;
a signed numeral may have a minus sign instead. Every number has a numeral, with any number of zeros
in front.
-/

set_option autoImplicit false

namespace ScriptedResponder.Numeral

/-- A nonempty run of ASCII digits that is a number in base ten; zeros may stand in front. -/
def IsRun (digits : List Char) (number : Nat) : Prop :=
  digits ≠ [] ∧ (∀ digit ∈ digits, isDigit digit = true) ∧
    Nat.ofDigits 10 (digits.reverse.map digitValue) = number

/-- A run of digits after at most one plus sign. -/
def Writes (text : List Char) (number : Nat) : Prop :=
  IsRun text number ∨ ∃ digits, text = '+' :: digits ∧ IsRun digits number

theorem value_eq_ofDigits (digits : List Char) :
    value digits = Nat.ofDigits 10 (digits.reverse.map digitValue) := by
  rw [value, List.foldl_eq_foldr_reverse, Nat.ofDigits_eq_foldr, List.foldr_map]
  congr 1
  funext digit total
  exact Nat.add_comm _ _

theorem digits?_eq_some_iff_isRun {limit : Nat} {text : List Char} {number : Nat} :
    digits? limit text = some number ↔ IsRun text number ∧ number ≤ limit := by
  rw [digits?_eq_some_iff, List.all_eq_true, value_eq_ofDigits, IsRun, and_assoc, and_assoc,
    and_assoc]

theorem writes_plus {digits : List Char} {number : Nat} :
    Writes ('+' :: digits) number ↔ IsRun digits number := by
  constructor
  · rintro (⟨_, allDigits, _⟩ | ⟨_, same, run⟩)
    · exact absurd (allDigits '+' List.mem_cons_self) (by decide)
    · cases same
      exact run
  · intro run
    exact .inr ⟨digits, rfl, run⟩

theorem unsigned?_eq_some_iff {text : List Char} {number : Nat} :
    unsigned? text = some number ↔ Writes text number ∧ number ≤ unsignedLimit := by
  unfold unsigned?
  split
  · rw [digits?_eq_some_iff_isRun, writes_plus]
  · rename_i unsigned
    have unmarked : Writes text number ↔ IsRun text number :=
      or_iff_left fun ⟨digits, marked, _⟩ => unsigned digits marked
    rw [digits?_eq_some_iff_isRun, unmarked]

/-! ### Signed numerals -/

/-- A run of digits that stands for a number, or, after a minus sign, for its negative; a plus sign
changes nothing. -/
inductive WritesSigned : List Char → Int → Prop
  | positive {text : List Char} {magnitude : Nat} (written : Writes text magnitude) :
      WritesSigned text magnitude
  | negative {digits : List Char} {magnitude : Nat} (run : IsRun digits magnitude) :
      WritesSigned ('-' :: digits) (-magnitude)

def IsUnsigned (text : List Char) (number : Nat) : Prop :=
  Writes text number ∧ number ≤ 18446744073709551615

def IsSigned (text : List Char) (number : Int) : Prop :=
  WritesSigned text number ∧ -9223372036854775808 ≤ number ∧ number ≤ 9223372036854775807

theorem unsigned?_eq_some_iff_isUnsigned {text : List Char} {number : Nat} :
    unsigned? text = some number ↔ IsUnsigned text number :=
  unsigned?_eq_some_iff

theorem writesSigned_plus {digits : List Char} {number : Int} :
    WritesSigned ('+' :: digits) number ↔ ∃ magnitude, IsRun digits magnitude ∧ number = magnitude := by
  constructor
  · intro written
    cases written with
    | positive written => exact ⟨_, writes_plus.mp written, rfl⟩
  · rintro ⟨magnitude, run, rfl⟩
    exact .positive (writes_plus.mpr run)

theorem writesSigned_minus {digits : List Char} {number : Int} :
    WritesSigned ('-' :: digits) number ↔
      ∃ magnitude : Nat, IsRun digits magnitude ∧ number = -magnitude := by
  constructor
  · intro written
    cases written with
    | positive written =>
        obtain ⟨_, allDigits, _⟩ | ⟨_, marked, _⟩ := written
        · exact absurd (allDigits '-' List.mem_cons_self) (by decide)
        · cases marked
    | negative run => exact ⟨_, run, rfl⟩
  · rintro ⟨magnitude, run, rfl⟩
    exact .negative run

theorem writesSigned_unmarked {text : List Char} {number : Int}
    (notPlus : ∀ digits, text ≠ '+' :: digits) (notMinus : ∀ digits, text ≠ '-' :: digits) :
    WritesSigned text number ↔ ∃ magnitude, IsRun text magnitude ∧ number = magnitude := by
  constructor
  · intro written
    cases written with
    | positive written =>
        obtain run | ⟨digits, marked, _⟩ := written
        · exact ⟨_, run, rfl⟩
        · exact absurd marked (notPlus digits)
    | negative run => exact absurd rfl (notMinus _)
  · rintro ⟨magnitude, run, rfl⟩
    exact .positive (.inl run)

theorem map_digits?_eq_some_iff {limit : Nat} {text : List Char} {number : Int}
    (signed : Nat → Int) :
    (digits? limit text).map signed = some number ↔
      ∃ magnitude, IsRun text magnitude ∧ number = signed magnitude ∧ magnitude ≤ limit := by
  simp only [Option.map_eq_some_iff, digits?_eq_some_iff_isRun]
  refine exists_congr fun magnitude => ?_
  rw [and_assoc, and_comm (a := magnitude ≤ limit), eq_comm]

theorem signed?_eq_some_iff {text : List Char} {number : Int} :
    signed? text = some number ↔ IsSigned text number := by
  have greatest : signedLimit = 9223372036854775807 := rfl
  -- Whatever the sign, the run fits its limit exactly when the number fits the word.
  have bounded : ∀ {limit : Nat} {run : Nat → Prop} {signed : Nat → Int},
      (∀ magnitude, magnitude ≤ limit ↔ -9223372036854775808 ≤ signed magnitude ∧
        signed magnitude ≤ 9223372036854775807) →
      ((∃ magnitude, run magnitude ∧ number = signed magnitude ∧ magnitude ≤ limit) ↔
        (∃ magnitude, run magnitude ∧ number = signed magnitude) ∧
          -9223372036854775808 ≤ number ∧ number ≤ 9223372036854775807) := by
    intro limit run signed fits
    rw [← exists_and_right]
    refine exists_congr fun magnitude => ?_
    rw [and_assoc]
    refine and_congr_right fun _ => and_congr_right ?_
    rintro rfl
    exact fits magnitude
  unfold signed? IsSigned
  split
  · rw [map_digits?_eq_some_iff, writesSigned_plus]
    exact bounded fun magnitude => by simp only [Int.ofNat_eq_natCast, greatest]; omega
  · rw [map_digits?_eq_some_iff, writesSigned_minus]
    exact bounded fun magnitude => by simp only [Int.ofNat_eq_natCast, greatest]; omega
  · rename_i notPlus notMinus
    rw [map_digits?_eq_some_iff, writesSigned_unmarked notPlus notMinus]
    exact bounded fun magnitude => by simp only [Int.ofNat_eq_natCast, greatest]; omega

/-! ### The characters of numerals -/

def isMark (character : Char) : Bool :=
  isDigit character || character = '+' || character = '-'

def IsMarked (text : List Char) : Prop :=
  text ≠ [] ∧ ∀ character ∈ text, isMark character = true

theorem IsRun.isMarked {digits : List Char} {number : Nat} (run : IsRun digits number) :
    IsMarked digits :=
  ⟨run.1, fun digit member => by simp [isMark, run.2.1 digit member]⟩

theorem IsMarked.cons {sign : Char} {text : List Char} (mark : isMark sign = true)
    (marked : IsMarked text) : IsMarked (sign :: text) :=
  ⟨by simp, List.forall_mem_cons.mpr ⟨mark, marked.2⟩⟩

theorem Writes.isMarked {text : List Char} {number : Nat} (written : Writes text number) :
    IsMarked text := by
  obtain run | ⟨digits, rfl, run⟩ := written
  · exact run.isMarked
  · exact run.isMarked.cons (by decide)

theorem WritesSigned.isMarked {text : List Char} {number : Int}
    (written : WritesSigned text number) : IsMarked text := by
  cases written with
  | positive written => exact written.isMarked
  | negative run => exact run.isMarked.cons (by decide)

/-! ### Writing a number -/

def written (zeros number : Nat) : List Char := List.replicate zeros '0' ++ Nat.toDigits 10 number

def writtenSigned (zeros : Nat) (number : Int) : List Char :=
  (if number < 0 then ['-'] else []) ++ written zeros number.natAbs

theorem isRun_written (zeros number : Nat) : IsRun (written zeros number) number := by
  have whole : value (written zeros number) = Nat.ofDigitChars 10 (written zeros number) 0 := rfl
  refine ⟨by simp [written, Nat.toDigits_ne_nil], ?_, ?_⟩
  · intro digit member
    obtain zero | own := List.mem_append.mp member
    · rw [List.eq_of_mem_replicate zero]
      decide
    · have digit := Nat.isDigit_of_mem_toDigits (by decide) (by decide) own
      simp only [Char.isDigit, Bool.and_eq_true, decide_eq_true_eq] at digit
      simp only [isDigit, Bool.and_eq_true, decide_eq_true_eq]
      exact digit
  · rw [← value_eq_ofDigits, whole, written, Nat.ofDigitChars_append, Nat.ofDigitChars_replicate_zero,
      Nat.mul_zero, Nat.ofDigitChars_ten_toDigits]

theorem writesSigned_writtenSigned (zeros : Nat) (number : Int) :
    WritesSigned (writtenSigned zeros number) number := by
  have run := isRun_written zeros number.natAbs
  unfold writtenSigned
  by_cases negative : number < 0
  · rw [if_pos negative]
    have same : -(number.natAbs : Int) = number := by omega
    have whole := WritesSigned.negative run
    rwa [same] at whole
  · rw [if_neg negative]
    have same : (number.natAbs : Int) = number := by omega
    have whole := WritesSigned.positive (.inl run)
    rwa [same] at whole

end ScriptedResponder.Numeral
