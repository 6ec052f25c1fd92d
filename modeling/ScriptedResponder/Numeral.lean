/-!
Decimal numerals with a limited range. A numeral is a nonempty run of ASCII digits, leading zeros
included, after at most one sign. Reading stops counting at the first value past the limit, so the
work is linear in the text however long the numeral is; `cappedValue_eq` says that the cap never
disturbs a value within the limit.
-/

set_option autoImplicit false

namespace ScriptedResponder.Numeral

/-- The ASCII digits; digits of other scripts do not count. -/
def isDigit (character : Char) : Bool := '0' ≤ character && character ≤ '9'

def digitValue (character : Char) : Nat := character.toNat - '0'.toNat

def value (digits : List Char) : Nat :=
  digits.foldl (fun total digit => 10 * total + digitValue digit) 0

def cappedValue (cap : Nat) (digits : List Char) : Nat :=
  digits.foldl (fun total digit => min cap (10 * total + digitValue digit)) 0

def digits? (limit : Nat) (text : List Char) : Option Nat :=
  if text ≠ [] ∧ text.all isDigit = true then
    let total := cappedValue (limit + 1) text
    if total ≤ limit then some total else none
  else none

def unsignedLimit : Nat := UInt64.size - 1

def signedLimit : Nat := UInt64.size / 2 - 1

def unsigned? : List Char → Option Nat
  | '+' :: digits => digits? unsignedLimit digits
  | digits => digits? unsignedLimit digits

def signed? : List Char → Option Int
  | '+' :: digits => (digits? signedLimit digits).map Int.ofNat
  | '-' :: digits => (digits? (signedLimit + 1) digits).map fun magnitude => -Int.ofNat magnitude
  | digits => (digits? signedLimit digits).map Int.ofNat

private theorem capped_fold (cap : Nat) (digits : List Char) : ∀ start : Nat,
    digits.foldl (fun total digit => min cap (10 * total + digitValue digit)) (min cap start) =
      min cap (digits.foldl (fun total digit => 10 * total + digitValue digit) start) := by
  induction digits with
  | nil => intro start; rfl
  | cons digit rest ih =>
      intro start
      have absorbed : min cap (10 * min cap start + digitValue digit) =
          min cap (10 * start + digitValue digit) := by omega
      rw [List.foldl_cons, List.foldl_cons, absorbed, ih]

theorem cappedValue_eq (cap : Nat) (digits : List Char) :
    cappedValue cap digits = min cap (value digits) := by
  simpa [cappedValue, value] using capped_fold cap digits 0

theorem digits?_eq_some_iff {limit : Nat} {text : List Char} {number : Nat} :
    digits? limit text = some number ↔
      (text ≠ [] ∧ text.all isDigit = true) ∧ value text = number ∧ number ≤ limit := by
  unfold digits?
  rw [cappedValue_eq]
  by_cases shape : text ≠ [] ∧ text.all isDigit = true
  · rw [if_pos shape]
    by_cases within : value text ≤ limit
    · have uncapped : min (limit + 1) (value text) = value text := by omega
      rw [uncapped, if_pos within]
      constructor
      · intro read; exact ⟨shape, Option.some.inj read, Option.some.inj read ▸ within⟩
      · rintro ⟨_, same, _⟩; rw [same]
    · have capped : min (limit + 1) (value text) = limit + 1 := by omega
      rw [capped, if_neg (by omega)]
      constructor
      · intro impossible; cases impossible
      · rintro ⟨_, same, bounded⟩; omega
  · rw [if_neg shape]
    constructor
    · intro impossible; cases impossible
    · rintro ⟨formed, _⟩; exact absurd formed shape

end ScriptedResponder.Numeral
