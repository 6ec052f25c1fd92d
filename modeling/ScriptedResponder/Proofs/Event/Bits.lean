import Mathlib.Algebra.Group.Nat.Defs
import ScriptedResponder.Proofs.Event.Base64

/-!
Base64 by its bits. The symbols of some octets are numbered by the alphabet, and the bits of their
numbers, one after another, are the bits of the octets, filled up with zeros; padding then makes the
symbols groups of four. Octets have one such spelling, and it is the one that is written.
-/

set_option autoImplicit false

namespace ScriptedResponder.Base64

/-! ### The format -/

def alphabet : Bytes :=
  Bytes.ofText "ABCDEFGHIJKLMNOPQRSTUVWXYZabcdefghijklmnopqrstuvwxyz0123456789+/"

/-- The last bits of a number, so many as the width says, the most significant first. -/
def bits : Nat → Nat → List Nat
  | 0, _ => []
  | width + 1, number => number / 2 ^ width % 2 :: bits width number

/-- Symbols from the alphabet that hold the bits of the octets, and the least padding that makes them
groups of four. No more zeros are filled in than the last symbol needs. -/
inductive IsSpelling (octets : Bytes) : Bytes → Prop
  | padded {symbols : Bytes} {numbers : List Nat} {filled pads : Nat}
      (numbered : numbers.map (alphabet[·]?) = symbols.map some)
      (same : numbers.flatMap (bits 6) =
        octets.flatMap (fun octet => bits 8 octet.toNat) ++ List.replicate filled 0)
      (few : filled < 6) (grouped : (symbols.length + pads) % 4 = 0) (least : pads < 4) :
      IsSpelling octets (symbols ++ List.replicate pads padding)

/-! ### Bits -/

theorem length_bits (width number : Nat) : (bits width number).length = width := by
  induction width with
  | zero => rfl
  | succ width ih => rw [bits, List.length_cons, ih]

theorem length_flatMap_bits {Part : Type} (width : Nat) (number : Part → Nat) (parts : List Part) :
    (parts.flatMap fun part => bits width (number part)).length = width * parts.length := by
  induction parts with
  | nil => rfl
  | cons part parts ih =>
      rw [List.flatMap_cons, List.length_append, length_bits, ih, List.length_cons, Nat.mul_succ,
        Nat.add_comm]

theorem mod_eq_of_bits {width first second : Nat} (same : bits width first = bits width second) :
    first % 2 ^ width = second % 2 ^ width := by
  induction width with
  | zero => rw [Nat.pow_zero, Nat.mod_one, Nat.mod_one]
  | succ width ih =>
      obtain ⟨leading, others⟩ := List.cons.inj same
      rw [Nat.mod_pow_succ, Nat.mod_pow_succ, ih others, leading]

theorem eq_of_flatMap_bits {width : Nat} {numbers others : List Nat}
    (small : ∀ number ∈ numbers, number < 2 ^ width) (otherSmall : ∀ other ∈ others, other < 2 ^ width)
    (length : numbers.length = others.length)
    (same : numbers.flatMap (bits width) = others.flatMap (bits width)) : numbers = others := by
  induction numbers generalizing others with
  | nil => exact (List.length_eq_zero_iff.mp length.symm).symm
  | cons number numbers ih =>
      cases others with
      | nil => cases length
      | cons other others =>
          rw [List.flatMap_cons, List.flatMap_cons] at same
          obtain ⟨own, rest⟩ := List.append_inj same (by rw [length_bits, length_bits])
          obtain ⟨numberSmall, small⟩ := List.forall_mem_cons.mp small
          obtain ⟨firstSmall, otherSmall⟩ := List.forall_mem_cons.mp otherSmall
          have equal : number = other := by
            rw [← Nat.mod_eq_of_lt numberSmall, ← Nat.mod_eq_of_lt firstSmall]
            exact mod_eq_of_bits own
          rw [equal, ih small otherSmall (Nat.succ.inj length) rest]

/-! ### One spelling -/

theorem symbol_range : ∀ number ∈ List.range 64, alphabet[number]? = some (symbol number) := by
  decide

theorem getElem?_alphabet {number : Nat} (small : number < 64) :
    alphabet[number]? = some (symbol number) :=
  symbol_range number (List.mem_range.mpr small)

theorem lt_of_numbered {numbers : List Nat} {symbols : Bytes}
    (numbered : numbers.map (alphabet[·]?) = symbols.map some) : ∀ number ∈ numbers, number < 64 := by
  intro number member
  have found : alphabet[number]? ∈ symbols.map some :=
    numbered ▸ List.mem_map.mpr ⟨number, member, rfl⟩
  obtain ⟨symbol, _, same⟩ := List.mem_map.mp found
  obtain ⟨within, _⟩ := List.getElem?_eq_some_iff.mp same.symm
  have length : alphabet.length = 64 := by decide
  rwa [length] at within

theorem length_filled {numbers : List Nat} {octets : Bytes} {filled : Nat}
    (same : numbers.flatMap (bits 6) =
      octets.flatMap (fun octet => bits 8 octet.toNat) ++ List.replicate filled 0) :
    6 * numbers.length = 8 * octets.length + filled := by
  have own : (numbers.flatMap (bits 6)).length = 6 * numbers.length :=
    length_flatMap_bits 6 (fun number => number) numbers
  rw [← own, same, List.length_append, length_flatMap_bits, List.length_replicate]

theorem IsSpelling.known {octets spelling : Bytes} (spelled : IsSpelling octets spelling) :
    ∀ symbol ∈ spelling, symbol ∈ alphabet ++ [padding] := by
  cases spelled with
  | @padded symbols numbers filled pads numbered same few grouped least =>
    intro symbol member
    obtain own | pad := List.mem_append.mp member
    · have found : some symbol ∈ numbers.map (alphabet[·]?) :=
        numbered ▸ List.mem_map.mpr ⟨symbol, own, rfl⟩
      obtain ⟨number, _, same⟩ := List.mem_map.mp found
      exact List.mem_append_left _ (List.mem_of_getElem? same)
    · exact List.mem_append_right _ (List.mem_singleton.mpr (List.eq_of_mem_replicate pad))

theorem IsSpelling.eq {octets spelling other : Bytes} (spelled : IsSpelling octets spelling)
    (otherSpelled : IsSpelling octets other) : spelling = other := by
  cases spelled with
  | @padded symbols numbers filled pads numbered same few grouped least =>
  cases otherSpelled with
  | @padded others otherNumbers otherFilled otherPads otherNumbered otherSame otherFew otherGrouped
      otherLeast =>
    have length : numbers.length = symbols.length := by simpa using congrArg List.length numbered
    have otherLength : otherNumbers.length = others.length := by
      simpa using congrArg List.length otherNumbered
    have total := length_filled same
    have otherTotal := length_filled otherSame
    obtain rfl : filled = otherFilled := by omega
    obtain rfl : pads = otherPads := by omega
    obtain rfl : numbers = otherNumbers :=
      eq_of_flatMap_bits (lt_of_numbered numbered) (lt_of_numbered otherNumbered) (by omega)
        (same.trans otherSame.symm)
    have symbolsSame : symbols.map some = others.map some := numbered.symm.trans otherNumbered
    rw [(List.map_inj_right fun _ _ => Option.some.inj).mp symbolsSame]

def groupNumbers (first second third : UInt8) : List Nat :=
  [first.toNat / 4, first.toNat % 4 * 16 + second.toNat / 16,
    second.toNat % 16 * 4 + third.toNat / 64, third.toNat % 64]

theorem numbered_group (first second third : UInt8) :
    (groupNumbers first second third).map (alphabet[·]?) = (group first second third).map some := by
  obtain ⟨one, two, three, four⟩ := group_numbers first second third
  simp only [groupNumbers, group, List.map_cons, List.map_nil, getElem?_alphabet one,
    getElem?_alphabet two, getElem?_alphabet three, getElem?_alphabet four]

theorem bits_group (first second third : UInt8) :
    (groupNumbers first second third).flatMap (bits 6) =
      [first, second, third].flatMap fun octet => bits 8 octet.toNat := by
  have firstSmall := first.toNat_lt
  have secondSmall := second.toNat_lt
  have thirdSmall := third.toNat_lt
  simp only [groupNumbers, bits, List.flatMap_cons, List.flatMap_nil, List.cons_append,
    List.nil_append, List.cons.injEq, and_true]
  omega

theorem bits_two (first second : UInt8) :
    [first.toNat / 4, first.toNat % 4 * 16 + second.toNat / 16, second.toNat % 16 * 4].flatMap
        (bits 6) =
      [first, second].flatMap (fun octet => bits 8 octet.toNat) ++ List.replicate 2 0 := by
  have firstSmall := first.toNat_lt
  have secondSmall := second.toNat_lt
  simp only [bits, List.flatMap_cons, List.flatMap_nil, List.cons_append, List.nil_append,
    List.replicate, List.cons.injEq, and_true]
  omega

theorem bits_one (first : UInt8) :
    [first.toNat / 4, first.toNat % 4 * 16].flatMap (bits 6) =
      [first].flatMap (fun octet => bits 8 octet.toNat) ++ List.replicate 4 0 := by
  have firstSmall := first.toNat_lt
  simp only [bits, List.flatMap_cons, List.flatMap_nil, List.cons_append, List.nil_append,
    List.replicate, List.cons.injEq, and_true]
  omega

theorem IsSpelling.group {octets spelling : Bytes} (spelled : IsSpelling octets spelling)
    (first second third : UInt8) :
    IsSpelling (first :: second :: third :: octets) (group first second third ++ spelling) := by
  cases spelled with
  | @padded symbols numbers filled pads numbered same few grouped least =>
    rw [← List.append_assoc]
    refine @IsSpelling.padded _ _ (groupNumbers first second third ++ numbers) filled pads ?_ ?_ few
      ?_ least
    · rw [List.map_append, List.map_append, numbered_group, numbered]
    · rw [List.flatMap_append, bits_group, same, ← List.append_assoc, ← List.flatMap_append]
      rfl
    · rw [List.length_append]
      have four : (Base64.group first second third).length = 4 := rfl
      omega

theorem isSpelling_encode (octets : Bytes) : IsSpelling octets (encode octets) := by
  fun_induction encode octets with
  | case1 => exact @IsSpelling.padded [] [] [] 0 0 rfl rfl (by decide) rfl (by decide)
  | case2 first =>
      obtain ⟨one, two, _, _⟩ := group_numbers first 0 0
      simp only [UInt8.toNat_zero, Nat.zero_div, Nat.add_zero] at two
      have numbered : [first.toNat / 4, first.toNat % 4 * 16].map (alphabet[·]?) =
          [symbol (first.toNat / 4), symbol (first.toNat % 4 * 16)].map some := by
        simp only [List.map_cons, List.map_nil, getElem?_alphabet one, getElem?_alphabet two]
      exact @IsSpelling.padded _ _ _ 4 2 numbered (bits_one first) (by decide) (by simp) (by decide)
  | case3 first second =>
      obtain ⟨one, two, three, _⟩ := group_numbers first second 0
      simp only [UInt8.toNat_zero, Nat.zero_div, Nat.add_zero] at three
      have numbered : [first.toNat / 4, first.toNat % 4 * 16 + second.toNat / 16,
            second.toNat % 16 * 4].map (alphabet[·]?) =
          [symbol (first.toNat / 4), symbol (first.toNat % 4 * 16 + second.toNat / 16),
            symbol (second.toNat % 16 * 4)].map some := by
        simp only [List.map_cons, List.map_nil, getElem?_alphabet one, getElem?_alphabet two,
          getElem?_alphabet three]
      exact @IsSpelling.padded _ _ _ 2 1 numbered (bits_two first second) (by decide)
        (by simp) (by decide)
  | case4 first second third rest ih => exact ih.group first second third

/-- Octets are spelled as they are written, and in no other way. -/
theorem isSpelling_iff {octets spelling : Bytes} :
    IsSpelling octets spelling ↔ spelling = encode octets := by
  constructor
  · intro spelled
    exact spelled.eq (isSpelling_encode octets)
  · rintro rfl
    exact isSpelling_encode octets

end ScriptedResponder.Base64
