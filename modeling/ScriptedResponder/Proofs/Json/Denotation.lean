import ScriptedResponder.Json.Decoded
import ScriptedResponder.Proofs.Json.Grammar

/-!
The characters that a string literal denotes. Each is spelled in one of four ways: by its own octets,
by a short escape, by a code unit or by a pair of them. Decoding gives a text exactly when the pieces
spell its characters one after the other.
-/

set_option autoImplicit false

namespace ScriptedResponder.Json

def shortEscapes : List (Char × Char) :=
  [('"', '"'), ('\\', '\\'), ('/', '/'), ('b', '\x08'), ('f', '\x0c'), ('n', '\n'), ('r', '\r'),
    ('t', '\t')]

/-- The pieces spell these characters. Beyond the first 0x10000 code points a character has two code
units, the high one first. -/
inductive Denotes : List Piece → List Char → Prop
  | nil : Denotes [] []
  | plain {pieces : List Piece} {characters : List Char} (character : Char)
      (others : Denotes pieces characters) :
      Denotes ((String.utf8EncodeChar character).map .plain ++ pieces) (character :: characters)
  | short {letter character : Char} {pieces : List Piece} {characters : List Char}
      (listed : (letter, character) ∈ shortEscapes) (others : Denotes pieces characters) :
      Denotes (.escape (Bytes.ofAscii letter) :: pieces) (character :: characters)
  | unit {first second third fourth : UInt8} {character : Char} {pieces : List Piece}
      {characters : List Char} (same : codeUnit first second third fourth = character.toNat)
      (others : Denotes pieces characters) :
      Denotes (.unit first second third fourth :: pieces) (character :: characters)
  | pair {first second third fourth fifth sixth seventh eighth : UInt8} {character : Char}
      {pieces : List Piece} {characters : List Char} (beyond : 0x10000 ≤ character.toNat)
      (high : codeUnit first second third fourth = 0xd800 + (character.toNat - 0x10000) / 0x400)
      (low : codeUnit fifth sixth seventh eighth = 0xdc00 + (character.toNat - 0x10000) % 0x400)
      (others : Denotes pieces characters) :
      Denotes (.unit first second third fourth :: .unit fifth sixth seventh eighth :: pieces)
        (character :: characters)

def IsString (text : String) (spelling : Bytes) : Prop :=
  ∃ pieces, (∀ piece ∈ pieces, piece.IsLegal) ∧ spelling = literal pieces ∧
    Denotes pieces text.toList

/-! ### The octets of characters -/

def octets (characters : List Char) : Bytes := characters.flatMap String.utf8EncodeChar

theorem ofText_eq_octets (text : String) : Bytes.ofText text = octets text.toList := by
  rw [Bytes.ofText, ← String.utf8Encode_toList]
  simp [List.utf8Encode, octets]

theorem text?_eq_some_iff {bytes : Bytes} {text : String} :
    Bytes.text? bytes = some text ↔ bytes = octets text.toList := by
  rw [← ofText_eq_octets]
  constructor
  · exact fun read => (Bytes.ofText_of_text? read).symm
  · rintro rfl
    exact Bytes.text?_ofText text

theorem eq_of_utf8EncodeChar_append {left right : Char} {afterLeft afterRight : Bytes}
    (same : String.utf8EncodeChar left ++ afterLeft = String.utf8EncodeChar right ++ afterRight) :
    left = right ∧ afterLeft = afterRight := by
  have decodes : ∀ (character : Char) (after : Bytes),
      (String.utf8EncodeChar character ++ after).toByteArray.utf8DecodeChar? 0 =
        some character := by
    intro character after
    rw [List.toByteArray_append]
    exact ByteArray.utf8DecodeChar?_utf8EncodeChar_append
  have first := decodes left afterLeft
  rw [same, decodes right afterRight] at first
  obtain rfl := Option.some.inj first
  exact ⟨rfl, List.append_cancel_left same⟩

theorem exists_of_octets {character : Char} {more : Bytes} {characters : List Char}
    (same : String.utf8EncodeChar character ++ more = octets characters) :
    ∃ others, characters = character :: others ∧ more = octets others := by
  cases characters with
  | nil => simp [octets] at same
  | cons first others =>
      obtain ⟨rfl, rest⟩ := eq_of_utf8EncodeChar_append same
      exact ⟨others, rfl, rest⟩

/-- Only the first octet of a character can start one. -/
theorem exists_utf8EncodeChar (character : Char) :
    ∃ first others, String.utf8EncodeChar character = first :: others ∧
      first.IsUTF8FirstByte ∧ ∀ byte ∈ others, ¬ byte.IsUTF8FirstByte := by
  cases spelled : String.utf8EncodeChar character with
  | nil => exact absurd spelled String.utf8EncodeChar_ne_nil
  | cons first others =>
      have starts : ∀ (index : Nat) (inside : index < (first :: others).length),
          (first :: others)[index].IsUTF8FirstByte ↔ index = 0 := by
        rw [← spelled]
        exact fun index inside => UInt8.isUTF8FirstByte_getElem_utf8EncodeChar
      refine ⟨first, others, rfl, (starts 0 (by simp)).mpr rfl, ?_⟩
      intro byte member
      obtain ⟨index, inside, rfl⟩ := List.getElem_of_mem member
      have later := starts (index + 1) (by simpa using inside)
      simpa using later

/-! ### Decoding one character -/

theorem decodePieces_append (decoded earlier : Bytes) (pieces : List Piece) :
    decodePieces (decoded ++ earlier) pieces =
      (decodePieces decoded pieces).map (earlier.reverse ++ ·) := by
  fun_induction decodePieces decoded pieces with
  | case1 decoded => simp [decodePieces]
  | case2 decoded byte rest ih => rw [decodePieces, ← ih, List.cons_append]
  | case3 decoded letter rest ih => rw [decodePieces, ← ih, List.cons_append]
  | case4 decoded first second third fourth rest unit low =>
      rw [decodePieces.eq_def]
      simp [unit, low]
  | case5 decoded first second third fourth unit notLow high fifth sixth seventh eighth rest low
      isLow ih =>
      rw [decodePieces.eq_def, ← ih]
      simp [unit, notLow, high, low, isLow]
  | case6 decoded first second third fourth unit notLow high fifth sixth seventh eighth rest low
      isLow =>
      rw [decodePieces.eq_def]
      simp [unit, notLow, high, low, isLow]
  | case7 decoded first second third fourth rest unit notLow high alone =>
      rw [decodePieces.eq_def]
      simp [unit, notLow, high]
  | case8 decoded first second third fourth rest unit notLow notHigh ih =>
      rw [decodePieces.eq_def, ← ih]
      simp [unit, notLow, notHigh]

theorem decodePieces_eq_map (decoded : Bytes) (pieces : List Piece) :
    decodePieces decoded pieces = (decodePieces [] pieces).map (decoded.reverse ++ ·) := by
  rw [← decodePieces_append [] decoded pieces, List.nil_append]

theorem decodePieces_plain (bytes : Bytes) (pieces : List Piece) :
    decodePieces [] (bytes.map .plain ++ pieces) = (decodePieces [] pieces).map (bytes ++ ·) := by
  induction bytes with
  | nil => simp
  | cons byte bytes ih =>
      rw [List.map_cons, List.cons_append, decodePieces, decodePieces_eq_map, ih, Option.map_map]
      simp [Function.comp_def]

/-! ### Decoding one escape -/

theorem toNat_bounds (character : Char) :
    character.toNat < 0xd800 ∨ 0xdfff < character.toNat ∧ character.toNat < 0x110000 :=
  character.valid

theorem toNat_ofNat {point : Nat}
    (valid : point < 0xd800 ∨ 0xdfff < point ∧ point < 0x110000) :
    (Char.ofNat point).toNat = point := by
  rw [Char.ofNat, dif_pos valid]
  rfl

theorem isHighSurrogate_iff {unit : Nat} :
    isHighSurrogate unit = true ↔ 0xd800 ≤ unit ∧ unit ≤ 0xdbff := by
  simp [isHighSurrogate]

theorem isLowSurrogate_iff {unit : Nat} :
    isLowSurrogate unit = true ↔ 0xdc00 ≤ unit ∧ unit ≤ 0xdfff := by
  simp [isLowSurrogate]

theorem utf8EncodeChar_short {letter character : Char}
    (listed : (letter, character) ∈ shortEscapes) :
    String.utf8EncodeChar character = [escapedByte (Bytes.ofAscii letter)] := by
  simp only [shortEscapes, List.mem_cons, Prod.mk.injEq, List.not_mem_nil, or_false] at listed
  rcases listed with ⟨rfl, rfl⟩ | ⟨rfl, rfl⟩ | ⟨rfl, rfl⟩ | ⟨rfl, rfl⟩ | ⟨rfl, rfl⟩ | ⟨rfl, rfl⟩ |
    ⟨rfl, rfl⟩ | ⟨rfl, rfl⟩ <;> decide

theorem decodePieces_escape (letter : UInt8) (pieces : List Piece) :
    decodePieces [] (.escape letter :: pieces) =
      (decodePieces [] pieces).map (escapedByte letter :: ·) := by
  rw [decodePieces, decodePieces_eq_map]
  rfl

theorem decodePieces_unit {first second third fourth : UInt8}
    (single : codeUnit first second third fourth < 0xd800 ∨
      0xdfff < codeUnit first second third fourth) (pieces : List Piece) :
    decodePieces [] (.unit first second third fourth :: pieces) =
      (decodePieces [] pieces).map
        (String.utf8EncodeChar (Char.ofNat (codeUnit first second third fourth)) ++ ·) := by
  have notLow : ¬ isLowSurrogate (codeUnit first second third fourth) = true := by
    rw [isLowSurrogate_iff]
    omega
  have notHigh : ¬ isHighSurrogate (codeUnit first second third fourth) = true := by
    rw [isHighSurrogate_iff]
    omega
  rw [decodePieces.eq_def]
  simp only [if_neg notLow, if_neg notHigh]
  rw [decodePieces_eq_map, List.append_nil, List.reverse_reverse]

theorem decodePieces_pair {first second third fourth fifth sixth seventh eighth : UInt8}
    (high : isHighSurrogate (codeUnit first second third fourth) = true)
    (low : isLowSurrogate (codeUnit fifth sixth seventh eighth) = true) (pieces : List Piece) :
    decodePieces [] (.unit first second third fourth :: .unit fifth sixth seventh eighth :: pieces) =
      (decodePieces [] pieces).map
        (String.utf8EncodeChar (surrogatePair (codeUnit first second third fourth)
          (codeUnit fifth sixth seventh eighth)) ++ ·) := by
  have notLow : ¬ isLowSurrogate (codeUnit first second third fourth) = true := by
    rw [isHighSurrogate_iff] at high
    rw [isLowSurrogate_iff]
    omega
  rw [decodePieces.eq_def]
  simp only [if_neg notLow, if_pos high, if_pos low]
  rw [decodePieces_eq_map, List.append_nil, List.reverse_reverse]

/-- No other code units are decoded than these two kinds. -/
theorem single_or_pair {first second third fourth : UInt8} {pieces : List Piece} {bytes : Bytes}
    (read : decodePieces [] (.unit first second third fourth :: pieces) = some bytes) :
    (codeUnit first second third fourth < 0xd800 ∨ 0xdfff < codeUnit first second third fourth) ∨
      ∃ fifth sixth seventh eighth rest, pieces = .unit fifth sixth seventh eighth :: rest ∧
        isHighSurrogate (codeUnit first second third fourth) = true ∧
        isLowSurrogate (codeUnit fifth sixth seventh eighth) = true := by
  rw [decodePieces.eq_def] at read
  simp only at read
  by_cases low : isLowSurrogate (codeUnit first second third fourth) = true
  · rw [if_pos low] at read
    cases read
  rw [if_neg low] at read
  by_cases high : isHighSurrogate (codeUnit first second third fourth) = true
  · rw [if_pos high] at read
    cases pieces with
    | nil => cases read
    | cons piece rest =>
        cases piece with
        | plain byte => cases read
        | escape letter => cases read
        | unit fifth sixth seventh eighth =>
            by_cases paired : isLowSurrogate (codeUnit fifth sixth seventh eighth) = true
            · exact Or.inr ⟨fifth, sixth, seventh, eighth, rest, rfl, high, paired⟩
            · simp only [if_neg paired] at read
              cases read
  · rw [isLowSurrogate_iff] at low
    rw [isHighSurrogate_iff] at high
    exact Or.inl (by omega)

theorem Denotes.decodePieces {pieces : List Piece} {characters : List Char}
    (denotes : Denotes pieces characters) :
    Json.decodePieces [] pieces = some (octets characters) := by
  induction denotes with
  | nil => rfl
  | plain character _ ih =>
      rw [decodePieces_plain, ih]
      rfl
  | short listed _ ih =>
      rw [decodePieces_escape, ih]
      simp [octets, utf8EncodeChar_short listed]
  | @unit _ _ _ _ character _ _ same _ ih =>
      have bounds := toNat_bounds character
      rw [decodePieces_unit (by omega), ih, same, Char.ofNat_toNat]
      rfl
  | @pair _ _ _ _ _ _ _ _ character _ _ beyond high low _ ih =>
      have bounds := toNat_bounds character
      have joined : surrogatePair (0xd800 + (character.toNat - 0x10000) / 0x400)
          (0xdc00 + (character.toNat - 0x10000) % 0x400) = character := by
        have point : 0x10000 + (0xd800 + (character.toNat - 0x10000) / 0x400 - 0xd800) * 0x400 +
            (0xdc00 + (character.toNat - 0x10000) % 0x400 - 0xdc00) = character.toNat := by
          omega
        rw [surrogatePair, point, Char.ofNat_toNat]
      rw [decodePieces_pair, ih, high, low, joined]
      · rfl
      · rw [isHighSurrogate_iff, high]
        omega
      · rw [isLowSurrogate_iff, low]
        omega

/-! ### Reading one escape -/

theorem bounds_of_hexValue? {digit : UInt8} {value : Nat}
    (read : Bytes.hexValue? digit = some value) : value < 16 ∧ digit.toNat < 0x80 := by
  have nine : (Bytes.ofAscii '9').toNat = 57 := by decide
  have lower : (Bytes.ofAscii 'f').toNat = 102 := by decide
  have upper : (Bytes.ofAscii 'F').toNat = 70 := by decide
  unfold Bytes.hexValue? at read
  split at read
  case isTrue decimal =>
    obtain rfl := Option.some.inj read
    simp only [Bytes.isDigit, Bool.and_eq_true, decide_eq_true_eq, UInt8.le_iff_toNat_le,
      nine] at decimal
    omega
  case isFalse =>
    split at read
    case isTrue small =>
      obtain rfl := Option.some.inj read
      simp only [Bool.and_eq_true, decide_eq_true_eq, UInt8.le_iff_toNat_le, lower] at small
      omega
    case isFalse =>
      split at read
      case isTrue capital =>
        obtain rfl := Option.some.inj read
        simp only [Bool.and_eq_true, decide_eq_true_eq, UInt8.le_iff_toNat_le, upper] at capital
        omega
      case isFalse => cases read

theorem hexValue_lt (digit : UInt8) : (Bytes.hexValue? digit).getD 0 < 16 := by
  cases read : Bytes.hexValue? digit with
  | none => simp
  | some value => exact (bounds_of_hexValue? read).1

theorem codeUnit_lt (first second third fourth : UInt8) :
    codeUnit first second third fourth < 0x10000 := by
  have one := hexValue_lt first
  have two := hexValue_lt second
  have three := hexValue_lt third
  have four := hexValue_lt fourth
  simp only [codeUnit, List.foldl_cons, List.foldl_nil]
  omega

theorem exists_character_of_escape {piece : Piece} {pieces : List Piece} {bytes : Bytes}
    (legal : piece.IsLegal) (escaped : ∀ byte, piece ≠ .plain byte)
    (read : decodePieces [] (piece :: pieces) = some bytes) :
    ∃ character remaining more, bytes = String.utf8EncodeChar character ++ more ∧
      decodePieces [] remaining = some more ∧ remaining <:+ pieces ∧
      ∀ characters, Denotes remaining characters →
        Denotes (piece :: pieces) (character :: characters) := by
  cases piece with
  | plain byte => exact absurd rfl (escaped byte)
  | escape letter =>
      rw [decodePieces_escape, Option.map_eq_some_iff] at read
      obtain ⟨more, followed, rfl⟩ := read
      obtain ⟨name, character, rfl, listed⟩ :
          ∃ name character, letter = Bytes.ofAscii name ∧ (name, character) ∈ shortEscapes := by
        simp only [Piece.IsLegal, List.mem_map] at legal
        obtain ⟨name, within, rfl⟩ := legal
        have named : name ∈ shortEscapes.map Prod.fst := by
          revert within
          simp [shortEscapes]
        obtain ⟨⟨_, character⟩, listed, rfl⟩ := List.mem_map.mp named
        exact ⟨_, character, rfl, listed⟩
      refine ⟨character, pieces, more, ?_, followed, List.suffix_refl pieces, ?_⟩
      · rw [utf8EncodeChar_short listed]
        rfl
      · exact fun characters others => .short listed others
  | unit first second third fourth =>
      have small := codeUnit_lt first second third fourth
      rcases single_or_pair read with
        single | ⟨fifth, sixth, seventh, eighth, rest, rfl, high, low⟩
      · rw [decodePieces_unit single, Option.map_eq_some_iff] at read
        obtain ⟨more, followed, rfl⟩ := read
        refine ⟨_, pieces, more, rfl, followed, List.suffix_refl pieces, ?_⟩
        exact fun characters others => .unit (toNat_ofNat (by omega)).symm others
      · rw [decodePieces_pair high low, Option.map_eq_some_iff] at read
        obtain ⟨more, followed, rfl⟩ := read
        refine ⟨_, rest, more, rfl, followed, List.suffix_cons _ rest, ?_⟩
        rw [isHighSurrogate_iff] at high
        rw [isLowSurrogate_iff] at low
        have point : (surrogatePair (codeUnit first second third fourth)
            (codeUnit fifth sixth seventh eighth)).toNat =
              0x10000 + (codeUnit first second third fourth - 0xd800) * 0x400 +
                (codeUnit fifth sixth seventh eighth - 0xdc00) :=
          toNat_ofNat (by omega)
        intro characters others
        refine .pair ?_ ?_ ?_ others <;> rw [point] <;> omega

/-- The octets of a character after its first can only be written out. -/
theorem exists_of_continued {continued after : Bytes} {pieces : List Piece}
    (legal : ∀ piece ∈ pieces, piece.IsLegal)
    (read : decodePieces [] pieces = some (continued ++ after))
    (later : ∀ byte ∈ continued, ¬ byte.IsUTF8FirstByte) :
    ∃ rest, pieces = continued.map .plain ++ rest ∧ decodePieces [] rest = some after := by
  induction continued generalizing pieces with
  | nil => exact ⟨pieces, rfl, read⟩
  | cons byte continued ih =>
      obtain ⟨notFirst, othersLater⟩ := List.forall_mem_cons.mp later
      cases pieces with
      | nil => simp [decodePieces] at read
      | cons piece pieces =>
          obtain ⟨pieceLegal, othersLegal⟩ := List.forall_mem_cons.mp legal
          -- An escape would start a character of its own here, and so would its first octet.
          by_cases plain : ∃ written, piece = .plain written
          · obtain ⟨written, rfl⟩ := plain
            rw [decodePieces, decodePieces_eq_map, Option.map_eq_some_iff] at read
            obtain ⟨more, followed, same⟩ := read
            obtain ⟨rfl, rfl⟩ := List.cons.inj same
            obtain ⟨rest, rfl, ended⟩ := ih othersLegal followed othersLater
            exact ⟨rest, rfl, ended⟩
          · obtain ⟨character, _, more, same, _⟩ :=
              exists_character_of_escape pieceLegal (by simpa using plain) read
            obtain ⟨first, others, spelled, isFirst, _⟩ := exists_utf8EncodeChar character
            rw [spelled] at same
            obtain ⟨rfl, _⟩ := List.cons.inj same
            exact absurd isFirst notFirst

theorem denotes_of_decodePieces {pieces : List Piece} {characters : List Char}
    (legal : ∀ piece ∈ pieces, piece.IsLegal)
    (read : decodePieces [] pieces = some (octets characters)) : Denotes pieces characters := by
  -- A plain piece is one octet of a character that may have up to four, so the pieces of a whole
  -- character are taken off at once, and the induction is on how many are left.
  induction size : pieces.length using Nat.strongRecOn generalizing pieces characters with
  | ind size ih =>
      cases pieces with
      | nil =>
          cases characters with
          | nil => exact .nil
          | cons first others => simp [decodePieces, octets] at read
      | cons piece pieces =>
          obtain ⟨pieceLegal, othersLegal⟩ := List.forall_mem_cons.mp legal
          simp only [List.length_cons] at size
          by_cases plain : ∃ written, piece = .plain written
          · obtain ⟨written, rfl⟩ := plain
            rw [decodePieces, decodePieces_eq_map, Option.map_eq_some_iff] at read
            obtain ⟨more, followed, same⟩ := read
            cases characters with
            | nil => simp [octets] at same
            | cons character characters =>
                obtain ⟨first, continued, spelled, _, later⟩ := exists_utf8EncodeChar character
                have parts : octets (character :: characters) =
                    first :: (continued ++ octets characters) := by
                  simp [octets, spelled]
                rw [parts] at same
                obtain ⟨rfl, rfl⟩ := List.cons.inj same
                obtain ⟨rest, rfl, ended⟩ := exists_of_continued othersLegal followed later
                have others := ih rest.length (by simp at size; omega)
                  (fun piece member => othersLegal piece (List.mem_append_right _ member))
                  ended rfl
                have whole := Denotes.plain character others
                rwa [spelled] at whole
          · obtain ⟨character, remaining, more, same, followed, suffix, whole⟩ :=
              exists_character_of_escape pieceLegal (by simpa using plain) read
            obtain ⟨others, rfl, rfl⟩ := exists_of_octets same.symm
            refine whole others (ih remaining.length ?_ ?_ followed rfl)
            · have shorter := suffix.length_le
              omega
            · exact fun piece member => othersLegal piece (suffix.mem member)

theorem decodedText?_eq_some_iff {pieces : List Piece} (legal : ∀ piece ∈ pieces, piece.IsLegal)
    {text : String} : decodedText? pieces = some text ↔ Denotes pieces text.toList := by
  rw [decodedText?, Option.bind_eq_some_iff]
  simp only [text?_eq_some_iff]
  constructor
  · rintro ⟨bytes, read, rfl⟩
    exact denotes_of_decodePieces legal read
  · intro denotes
    exact ⟨_, denotes.decodePieces, rfl⟩

/-! ### A literal of a text is a text itself -/

theorem octets_append (front back : List Char) : octets (front ++ back) = octets front ++ octets back :=
  List.flatMap_append

theorem exists_utf8EncodeChar_eq {byte : UInt8} (small : byte.toNat < 0x80) :
    ∃ character, String.utf8EncodeChar character = [byte] := by
  have point : (Char.ofNat byte.toNat).toNat = byte.toNat := toNat_ofNat (by omega)
  refine ⟨Char.ofNat byte.toNat, ?_⟩
  unfold String.utf8EncodeChar
  simp only [show (Char.ofNat byte.toNat).val.toNat = byte.toNat from point]
  rw [if_pos (by omega)]
  simp

theorem exists_octets_of_small {bytes : Bytes} (small : ∀ byte ∈ bytes, byte.toNat < 0x80) :
    ∃ characters, bytes = octets characters := by
  induction bytes with
  | nil => exact ⟨[], rfl⟩
  | cons byte bytes ih =>
      obtain ⟨own, others⟩ := List.forall_mem_cons.mp small
      obtain ⟨character, encoded⟩ := exists_utf8EncodeChar_eq own
      obtain ⟨characters, rfl⟩ := ih others
      exact ⟨character :: characters, by simp [octets, encoded]⟩

theorem toNat_lt_of_isHexDigit {byte : UInt8} (digit : isHexDigit byte = true) :
    byte.toNat < 0x80 := by
  obtain ⟨value, read⟩ := Option.isSome_iff_exists.mp digit
  exact (bounds_of_hexValue? read).2

theorem Piece.IsLegal.small {piece : Piece} (legal : piece.IsLegal)
    (escaped : ∀ byte, piece ≠ .plain byte) : ∀ byte ∈ piece.text, byte.toNat < 0x80 := by
  have mark : (Bytes.ofAscii '\\').toNat < 0x80 ∧ (Bytes.ofAscii 'u').toNat < 0x80 := by decide
  cases piece with
  | plain byte => exact absurd rfl (escaped byte)
  | escape letter =>
      have letters : ("\"\\/bfnrt".toList.map Bytes.ofAscii).all
          (fun letter => letter.toNat < 0x80) = true := by decide
      simp only [Piece.text, List.forall_mem_cons, List.not_mem_nil, false_implies, implies_true,
        and_true]
      exact ⟨mark.1, by simpa using List.all_eq_true.mp letters letter legal⟩
  | unit first second third fourth =>
      obtain ⟨one, two, three, four⟩ := legal
      simp only [Piece.text, List.forall_mem_cons, List.not_mem_nil, false_implies, implies_true,
        and_true]
      exact ⟨mark.1, mark.2, toNat_lt_of_isHexDigit one, toNat_lt_of_isHexDigit two,
        toNat_lt_of_isHexDigit three, toNat_lt_of_isHexDigit four⟩

theorem Denotes.exists_spelled {pieces : List Piece} {characters : List Char}
    (denotes : Denotes pieces characters) (legal : ∀ piece ∈ pieces, piece.IsLegal) :
    ∃ spelled, pieces.flatMap Piece.text = octets spelled := by
  have escaped : ∀ {piece : Piece} {rest : List Piece}, piece.IsLegal →
      (∀ byte, piece ≠ .plain byte) → (∃ spelled, rest.flatMap Piece.text = octets spelled) →
        ∃ spelled, (piece :: rest).flatMap Piece.text = octets spelled := by
    rintro piece rest own written ⟨others, same⟩
    obtain ⟨spelled, whole⟩ := exists_octets_of_small (own.small written)
    exact ⟨spelled ++ others, by rw [List.flatMap_cons, same, whole, octets_append]⟩
  induction denotes with
  | nil => exact ⟨[], rfl⟩
  | @plain pieces _ character _ ih =>
      obtain ⟨spelled, same⟩ := ih fun piece member => legal piece (List.mem_append_right _ member)
      refine ⟨character :: spelled, ?_⟩
      have own : ((String.utf8EncodeChar character).map Piece.plain).flatMap Piece.text =
          String.utf8EncodeChar character := by
        simp [List.flatMap_map, Piece.text]
      rw [List.flatMap_append, own, same]
      rfl
  | short _ _ ih =>
      obtain ⟨own, others⟩ := List.forall_mem_cons.mp legal
      exact escaped own (by simp) (ih others)
  | unit _ _ ih =>
      obtain ⟨own, others⟩ := List.forall_mem_cons.mp legal
      exact escaped own (by simp) (ih others)
  | pair _ _ _ _ ih =>
      obtain ⟨own, following⟩ := List.forall_mem_cons.mp legal
      obtain ⟨second, others⟩ := List.forall_mem_cons.mp following
      exact escaped own (by simp) (escaped second (by simp) (ih others))

theorem IsString.isText {text : String} {spelling : Bytes} (spelled : IsString text spelling) :
    IsText spelling := by
  obtain ⟨pieces, legal, rfl, denotes⟩ := spelled
  obtain ⟨inside, same⟩ := denotes.exists_spelled legal
  have quote : String.utf8EncodeChar '"' = [Bytes.ofAscii '"'] := by decide
  have whole : literal pieces = octets ('"' :: (inside ++ ['"'])) := by
    rw [literal, same]
    simp [octets, quote]
  refine ⟨.string legal, ?_⟩
  rw [Option.isSome_iff_exists]
  exact ⟨String.ofList ('"' :: (inside ++ ['"'])), text?_eq_some_iff.mpr (by simpa using whole)⟩

theorem denotes_octets (characters : List Char) :
    Denotes ((octets characters).map .plain) characters := by
  induction characters with
  | nil => exact .nil
  | cons character characters ih =>
      have whole := Denotes.plain character ih
      rwa [← List.map_append] at whole

def IsUnescaped (text : String) : Prop := ∀ byte ∈ Bytes.ofText text, (Piece.plain byte).IsLegal

instance (text : String) : Decidable (IsUnescaped text) :=
  @List.decidableBAll _ (fun byte => (Piece.plain byte).IsLegal)
    (fun _ => inferInstanceAs (Decidable (_ ∧ _ ∧ _))) (Bytes.ofText text)

def plainLiteral (text : String) : Bytes := literal ((Bytes.ofText text).map .plain)

theorem IsUnescaped.isString {text : String} (unescaped : IsUnescaped text) :
    IsString text (plainLiteral text) := by
  refine ⟨(Bytes.ofText text).map .plain, ?_, rfl, ?_⟩
  · intro piece member
    obtain ⟨byte, within, rfl⟩ := List.mem_map.mp member
    exact unescaped byte within
  · rw [ofText_eq_octets]
    exact denotes_octets text.toList

/-! ### The size of a literal -/

theorem short_utf8EncodeChar :
    ∀ pair ∈ shortEscapes, (String.utf8EncodeChar pair.2).length ≤ 2 := by
  decide

/-- No piece denotes more octets than it is spelled with. -/
theorem Denotes.length_octets_le {pieces : List Piece} {characters : List Char}
    (denotes : Denotes pieces characters) :
    (octets characters).length ≤ (pieces.flatMap Piece.text).length := by
  have encoded : ∀ character, (String.utf8EncodeChar character).length ≤ 4 := by
    intro character
    rw [String.length_utf8EncodeChar]
    exact character.utf8Size_le_four
  induction denotes with
  | nil => exact Nat.le_refl 0
  | plain character _ ih =>
      simp only [octets, List.flatMap_cons, List.flatMap_append, List.length_append,
        List.flatMap_map, Piece.text, List.flatMap_singleton'] at ih ⊢
      omega
  | @short letter character _ _ listed _ ih =>
      have own := short_utf8EncodeChar (letter, character) listed
      simp only [octets, List.flatMap_cons, List.length_append, Piece.text, List.length_cons,
        List.length_nil] at ih own ⊢
      omega
  | @unit _ _ _ _ character _ _ _ _ ih =>
      have own := encoded character
      simp only [octets, List.flatMap_cons, List.length_append, Piece.text, List.length_cons,
        List.length_nil] at ih ⊢
      omega
  | @pair _ _ _ _ _ _ _ _ character _ _ _ _ _ _ ih =>
      have own := encoded character
      simp only [octets, List.flatMap_cons, List.length_append, Piece.text, List.length_cons,
        List.length_nil] at ih ⊢
      omega

theorem IsString.length_ofText_lt {text : String} {spelling : Bytes}
    (spelled : IsString text spelling) : (Bytes.ofText text).length < spelling.length := by
  obtain ⟨pieces, _, rfl, denotes⟩ := spelled
  have inside := denotes.length_octets_le
  rw [ofText_eq_octets, literal]
  simp only [List.length_cons, List.length_append]
  omega

end ScriptedResponder.Json
