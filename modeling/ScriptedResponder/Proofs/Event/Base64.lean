import ScriptedResponder.Base64

/-!
What is written in base64 is read back. A group of four symbols gives its three octets, and the
padded groups at the end give the one or two octets that were left. Nothing else is read: octets have
one spelling, which is the one that is written.
-/

set_option autoImplicit false

namespace ScriptedResponder.Base64

theorem number?_symbol_range :
    ∀ number ∈ List.range 64, number? (symbol number) = some number ∧ symbol number ≠ padding := by
  decide

theorem number?_symbol {number : Nat} (small : number < 64) :
    number? (symbol number) = some number :=
  (number?_symbol_range number (List.mem_range.mpr small)).1

theorem symbol_ne_padding {number : Nat} (small : number < 64) : symbol number ≠ padding :=
  (number?_symbol_range number (List.mem_range.mpr small)).2

theorem octets_group (first second third : UInt8) :
    octets (first.toNat / 4) (first.toNat % 4 * 16 + second.toNat / 16)
      (second.toNat % 16 * 4 + third.toNat / 64) (third.toNat % 64) = [first, second, third] := by
  have firstSmall := first.toNat_lt
  have secondSmall := second.toNat_lt
  have thirdSmall := third.toNat_lt
  have one : first.toNat / 4 * 4 + (first.toNat % 4 * 16 + second.toNat / 16) / 16 =
      first.toNat := by omega
  have two : (first.toNat % 4 * 16 + second.toNat / 16) % 16 * 16 +
      (second.toNat % 16 * 4 + third.toNat / 64) / 4 = second.toNat := by omega
  have three : (second.toNat % 16 * 4 + third.toNat / 64) % 4 * 64 + third.toNat % 64 =
      third.toNat := by omega
  simp only [octets, one, two, three, UInt8.ofNat_toNat]

theorem group_numbers (first second third : UInt8) :
    first.toNat / 4 < 64 ∧ first.toNat % 4 * 16 + second.toNat / 16 < 64 ∧
      second.toNat % 16 * 4 + third.toNat / 64 < 64 ∧ third.toNat % 64 < 64 := by
  have firstSmall := first.toNat_lt
  have secondSmall := second.toNat_lt
  have thirdSmall := third.toNat_lt
  omega

theorem innerGroup?_group (first second third : UInt8) :
    innerGroup? (symbol (first.toNat / 4)) (symbol (first.toNat % 4 * 16 + second.toNat / 16))
      (symbol (second.toNat % 16 * 4 + third.toNat / 64)) (symbol (third.toNat % 64)) =
        some [first, second, third] := by
  obtain ⟨one, two, three, four⟩ := group_numbers first second third
  simp only [innerGroup?, number?_symbol one, number?_symbol two, number?_symbol three,
    number?_symbol four, octets_group]

theorem lastGroup?_group (first second third : UInt8) :
    lastGroup? (symbol (first.toNat / 4)) (symbol (first.toNat % 4 * 16 + second.toNat / 16))
      (symbol (second.toNat % 16 * 4 + third.toNat / 64)) (symbol (third.toNat % 64)) =
        some [first, second, third] := by
  obtain ⟨one, two, three, four⟩ := group_numbers first second third
  simp only [lastGroup?, number?_symbol one, number?_symbol two, number?_symbol three,
    number?_symbol four, symbol_ne_padding three, symbol_ne_padding four, if_false, Option.map_some,
    octets_group]

theorem lastGroup?_two (first second : UInt8) :
    lastGroup? (symbol (first.toNat / 4)) (symbol (first.toNat % 4 * 16 + second.toNat / 16))
      (symbol (second.toNat % 16 * 4)) padding = some [first, second] := by
  obtain ⟨one, two, three, _⟩ := group_numbers first second 0
  have whole := octets_group first second 0
  simp only [UInt8.toNat_zero, Nat.zero_div, Nat.zero_mod, Nat.add_zero] at three whole
  simp only [lastGroup?, number?_symbol one, number?_symbol two, number?_symbol three,
    symbol_ne_padding three, if_false, if_true, Nat.mul_mod_left, whole, List.take_succ_cons,
    List.take_zero]

theorem lastGroup?_one (first : UInt8) :
    lastGroup? (symbol (first.toNat / 4)) (symbol (first.toNat % 4 * 16)) padding padding =
      some [first] := by
  obtain ⟨one, two, _, _⟩ := group_numbers first 0 0
  have whole : first.toNat / 4 * 4 + first.toNat % 4 * 16 / 16 = first.toNat := by omega
  simp only [UInt8.toNat_zero, Nat.zero_div, Nat.add_zero] at two
  simp only [lastGroup?, number?_symbol one, number?_symbol two, if_true, Nat.mul_mod_left, and_self,
    whole, UInt8.ofNat_toNat]

theorem encode_ne_nil (first : UInt8) (rest : Bytes) : encode (first :: rest) ≠ [] := by
  cases rest with
  | nil => simp [encode]
  | cons second rest => cases rest <;> simp [encode, group]

theorem decodeFrom_encode (decoded bytes : Bytes) :
    decodeFrom decoded (encode bytes) = some (decoded.reverse ++ bytes) := by
  fun_induction encode bytes generalizing decoded with
  | case1 => simp [decodeFrom]
  | case2 first => simp [decodeFrom, lastGroup?_one]
  | case3 first second => simp [decodeFrom, lastGroup?_two]
  | case4 first second third rest ih =>
      cases rest with
      | nil => simp [encode, group, decodeFrom, lastGroup?_group]
      | cons next rest =>
          obtain ⟨head, tail, following⟩ := List.exists_cons_of_ne_nil (encode_ne_nil next rest)
          rw [following] at ih ⊢
          simp only [group, List.cons_append, List.nil_append, decodeFrom, innerGroup?_group, ih]
          simp

theorem decode?_encode (bytes : Bytes) : decode? (encode bytes) = some bytes := by
  rw [decode?, decodeFrom_encode, List.reverse_nil, List.nil_append]

/-! ### One spelling -/

theorem number?_range :
    ∀ code < 256, ∀ number ∈ number? (UInt8.ofNat code),
      number < 64 ∧ UInt8.ofNat code = symbol number := by
  decide +kernel

theorem symbol_of_number? {byte : UInt8} {number : Nat} (read : number? byte = some number) :
    number < 64 ∧ byte = symbol number := by
  have whole := number?_range byte.toNat byte.toNat_lt number
  rw [UInt8.ofNat_toNat] at whole
  exact whole read

theorem toNat_ofNat_octet {number : Nat} (small : number < 256) :
    (UInt8.ofNat number).toNat = number := by
  rw [UInt8.toNat_ofNat', Nat.mod_eq_of_lt small]

theorem group_octets {high low middle last : Nat} (highSmall : high < 64) (lowSmall : low < 64)
    (middleSmall : middle < 64) (lastSmall : last < 64) :
    ∃ first second third, octets high low middle last = [first, second, third] ∧
      first.toNat / 4 = high ∧ first.toNat % 4 * 16 + second.toNat / 16 = low ∧
      second.toNat % 16 * 4 + third.toNat / 64 = middle ∧ third.toNat % 64 = last := by
  refine ⟨_, _, _, rfl, ?_⟩
  rw [toNat_ofNat_octet (by omega), toNat_ofNat_octet (by omega), toNat_ofNat_octet (by omega)]
  omega

theorem encode_of_innerGroup? {first second third fourth : UInt8} {inner : Bytes}
    (read : innerGroup? first second third fourth = some inner) (rest : Bytes) :
    encode (inner ++ rest) = first :: second :: third :: fourth :: encode rest := by
  unfold innerGroup? at read
  split at read
  case h_2 => cases read
  case h_1 high low middle last highRead lowRead middleRead lastRead =>
    obtain rfl := Option.some.inj read
    obtain ⟨highSmall, rfl⟩ := symbol_of_number? highRead
    obtain ⟨lowSmall, rfl⟩ := symbol_of_number? lowRead
    obtain ⟨middleSmall, rfl⟩ := symbol_of_number? middleRead
    obtain ⟨lastSmall, rfl⟩ := symbol_of_number? lastRead
    obtain ⟨one, two, three, same, rfl, rfl, rfl, rfl⟩ :=
      group_octets highSmall lowSmall middleSmall lastSmall
    rw [same]
    rfl

theorem encode_one {high low : Nat} (highSmall : high < 64) (lowSmall : low < 64)
    (unused : low % 16 = 0) :
    encode [UInt8.ofNat (high * 4 + low / 16)] = [symbol high, symbol low, padding, padding] := by
  have own : (UInt8.ofNat (high * 4 + low / 16)).toNat = high * 4 + low / 16 :=
    toNat_ofNat_octet (by omega)
  have front : (high * 4 + low / 16) / 4 = high := by omega
  have back : (high * 4 + low / 16) % 4 * 16 = low := by omega
  rw [encode, own, front, back]

theorem encode_two {high low middle : Nat} (highSmall : high < 64) (lowSmall : low < 64)
    (middleSmall : middle < 64) (unused : middle % 4 = 0) :
    encode ((octets high low middle 0).take 2) =
      [symbol high, symbol low, symbol middle, padding] := by
  obtain ⟨first, second, third, same, rfl, rfl, whole, _⟩ :=
    group_octets highSmall lowSmall middleSmall (show 0 < 64 by decide)
  have back : second.toNat % 16 * 4 = middle := by
    have small := third.toNat_lt
    omega
  rw [same, List.take_succ_cons, List.take_succ_cons, List.take_zero, encode, back]

theorem encode_of_lastGroup? {first second third fourth : UInt8} {last : Bytes}
    (read : lastGroup? first second third fourth = some last) :
    encode last = [first, second, third, fourth] := by
  unfold lastGroup? at read
  split at read
  case h_2 => cases read
  case h_1 high low highRead lowRead =>
    obtain ⟨highSmall, highSame⟩ := symbol_of_number? highRead
    obtain ⟨lowSmall, lowSame⟩ := symbol_of_number? lowRead
    by_cases padded : third = padding
    · rw [if_pos padded] at read
      obtain ⟨⟨ended, unused⟩, same⟩ := Option.ite_none_right_eq_some.mp read
      obtain rfl := Option.some.inj same
      rw [encode_one highSmall lowSmall unused, highSame, lowSame, padded, ended]
    · rw [if_neg padded] at read
      cases middleRead : number? third with
      | none => simp [middleRead] at read
      | some middle =>
          simp only [middleRead] at read
          obtain ⟨middleSmall, middleSame⟩ := symbol_of_number? middleRead
          by_cases ended : fourth = padding
          · rw [if_pos ended] at read
            obtain ⟨unused, same⟩ := Option.ite_none_right_eq_some.mp read
            obtain rfl := Option.some.inj same
            rw [encode_two highSmall lowSmall middleSmall unused, highSame, lowSame, middleSame,
              ended]
          · rw [if_neg ended] at read
            obtain ⟨number, lastRead, rfl⟩ := Option.map_eq_some_iff.mp read
            have inner : innerGroup? first second third fourth =
                some (octets high low middle number) := by
              simp only [innerGroup?, highRead, lowRead, middleRead, lastRead]
            have whole := encode_of_innerGroup? inner []
            rwa [List.append_nil] at whole

theorem encode_of_decodeFrom {decoded symbols bytes : Bytes}
    (read : decodeFrom decoded symbols = some bytes) :
    ∃ more, bytes = decoded.reverse ++ more ∧ encode more = symbols := by
  fun_induction decodeFrom decoded symbols with
  | case1 decoded =>
      obtain rfl := Option.some.inj read
      exact ⟨[], by simp, rfl⟩
  | case2 decoded first second third fourth =>
      obtain ⟨last, lastRead, rfl⟩ := Option.map_eq_some_iff.mp read
      exact ⟨last, rfl, encode_of_lastGroup? lastRead⟩
  | case3 => cases read
  | case4 decoded first second third fourth rest _ inner innerRead ih =>
      obtain ⟨more, rfl, written⟩ := ih read
      refine ⟨inner ++ more, by simp, ?_⟩
      rw [encode_of_innerGroup? innerRead, written]
  | case5 => cases read

/-- Octets are read from their own spelling and from no other. -/
theorem decode?_eq_some_iff {symbols bytes : Bytes} :
    decode? symbols = some bytes ↔ symbols = encode bytes := by
  constructor
  · intro read
    obtain ⟨more, rfl, written⟩ := encode_of_decodeFrom read
    exact written.symm
  · rintro rfl
    exact decode?_encode bytes

theorem length_le_encode (bytes : Bytes) : bytes.length ≤ (encode bytes).length := by
  fun_induction encode bytes with
  | case1 => exact Nat.le_refl 0
  | case2 first => simp
  | case3 first second => simp
  | case4 first second third rest ih =>
      simp only [group, List.length_append, List.length_cons, List.length_nil]
      omega

end ScriptedResponder.Base64
