import ScriptedResponder.Proofs.Json.Lexing
import ScriptedResponder.Proofs.Json.Nested

/-!
What is read as a value, told by the grammar of octets. A text is read as a value exactly when it is
one with blanks around it; a value splits into elements or members exactly when its text encloses
theirs. Sound values are told apart by their texts, so that nothing is lost by keeping only these.
-/

set_option autoImplicit false

namespace ScriptedResponder.Json

/-! ### Numbers stand apart -/

theorem Advance.step_number {opened next : List Bracket} {expected awaited : Expectation}
    {text : Bytes} (proceeds : step opened (.number text) expected = .proceed awaited next) :
    awaited = .separator := by
  cases expected <;> cases opened <;>
    simp_all [step, startValue, separate, afterValue, eq_comm]

theorem apart_of_takeNested {expected : Expectation} {opened : List Bracket}
    {taken input found : List Lexeme}
    (read : takeNested expected opened taken input = some (found, [])) :
    Apart input ∧ (expected = .separator →
      ∀ lexeme ∈ input.head?, lexeme.token.isNumber = false) := by
  -- After a number the control awaits a separator, which is no number; the second half of the
  -- statement hands this on from one lexeme to the next.
  induction input generalizing expected opened taken with
  | nil => cases read
  | cons lexeme rest ih =>
      simp only [takeNested] at read
      constructor
      · cases proceeds : Advance.step opened lexeme.token expected with
        | refuse => simp [proceeds] at read
        | finish =>
            simp only [proceeds, Option.some.injEq, Prod.mk.injEq] at read
            rw [read.2]
            exact List.isChain_singleton lexeme
        | proceed awaited next =>
            simp only [proceeds] at read
            obtain ⟨apart, guarded⟩ := ih read
            refine List.isChain_cons.mpr ⟨?_, apart⟩
            intro following head number
            cases token : lexeme.token with
            | number text =>
                rw [token] at proceeds
                exact guarded (Advance.step_number proceeds) following head
            | _ => simp [token, Token.isNumber] at number
      · rintro rfl first head
        obtain rfl : lexeme = first := by simpa using head
        cases token : lexeme.token with
        | number text =>
            rw [token] at read
            cases opened <;> simp [Advance.step, Advance.separate] at read
        | _ => rfl

/-! ### Sound values -/

/-- A value whose lexemes are legal and belong to it alone. -/
structure Value.IsSound (value : Value) : Prop where
  nested : value.IsNested
  legal : ∀ lexeme ∈ value.lexemes [], lexeme.IsLegal

theorem Value.IsSound.legal_lexemes {value : Value} (sound : value.IsSound) {blank : Bytes}
    (blanks : Blanks blank) : ∀ lexeme ∈ value.lexemes blank, lexeme.IsLegal := by
  obtain ⟨own, others⟩ := List.forall_mem_cons.mp sound.legal
  exact List.forall_mem_cons.mpr ⟨⟨blanks, own.token⟩, others⟩

theorem Value.isSound_of {value : Value} (nested : value.IsNested) {blank : Bytes}
    (legal : ∀ lexeme ∈ value.lexemes blank, lexeme.IsLegal) : value.IsSound ∧ Blanks blank := by
  obtain ⟨own, others⟩ := List.forall_mem_cons.mp legal
  exact ⟨⟨nested, List.forall_mem_cons.mpr ⟨⟨blanks_nil, own.token⟩, others⟩⟩, own.blanks⟩

theorem Value.text_lexemes (blank : Bytes) (value : Value) :
    (value.lexemes blank).flatMap Lexeme.text = blank ++ value.text := by
  simp [Value.lexemes, Value.text, Lexeme.text]

theorem apart_lexemes {value : Value} (nested : value.IsNested) (blank : Bytes) :
    Apart (value.lexemes blank) := by
  have read := takeNested_lexemes nested blank [] [] []
  simp only [List.append_nil, resume] at read
  exact (apart_of_takeNested read).1

/-- A text is read as a value exactly when it is the text of that value with blanks around it. -/
theorem value?_eq_some_iff {input : Bytes} {value : Value} :
    value? input = some value ↔ value.IsSound ∧ ∃ before after, Blanks before ∧ Blanks after ∧
      input = before ++ value.text ++ after := by
  constructor
  · intro read
    unfold value? at read
    split at read
    case h_1 => cases read
    case h_2 lexemes lexed =>
      split at read
      case h_2 => cases read
      case h_1 taken taking =>
        obtain rfl := Option.some.inj read
        obtain ⟨nested, before, rfl⟩ := takeValue?_eq_some_iff.mp taking
        rw [List.append_nil] at lexed
        obtain ⟨legal, after, afterBlanks, rfl⟩ := lexemes?_sound lexed
        obtain ⟨sound, beforeBlanks⟩ := Value.isSound_of nested legal
        exact ⟨sound, before, after, beforeBlanks, afterBlanks, by rw [Value.text_lexemes]⟩
  · rintro ⟨sound, before, after, beforeBlanks, afterBlanks, rfl⟩
    have lexed : lexemes? (before ++ value.text ++ after) = some (value.lexemes before) := by
      have found := lexemesFrom_of (sound.legal_lexemes beforeBlanks)
        (apart_lexemes sound.nested before) afterBlanks []
      rw [Value.text_lexemes] at found
      exact found
    have taking := takeValue?_lexemes sound.nested before []
    rw [List.append_nil] at taking
    simp only [value?, lexed, taking]

theorem value?_text {value : Value} (sound : value.IsSound) : value? value.text = some value :=
  value?_eq_some_iff.mpr ⟨sound, [], [], blanks_nil, blanks_nil, by simp⟩

/-- Sound values with one text are one value. -/
theorem Value.IsSound.eq_of_text {value other : Value} (sound : value.IsSound)
    (otherSound : other.IsSound) (same : value.text = other.text) : value = other := by
  have read := value?_text sound
  rw [same, value?_text otherSound] at read
  exact (Option.some.inj read).symm

/-! ### Parts and their spelling -/

section

variable {Part Spelling : Type} {Opens : Part → List Lexeme → Prop} {spell : Part → Spelling}
  {Spelled : Spelling → Bytes → Prop} {Sound : Part → Prop} {closing : Token}

/-- The lexemes of legal parts, and the blanks after each, are the spellings of these parts. -/
structure Spells (Opens : Part → List Lexeme → Prop) (spell : Part → Spelling)
    (Spelled : Spelling → Bytes → Prop) (Sound : Part → Prop) : Prop where
  spelled : ∀ {part lexemes after}, Opens part lexemes →
    (∀ lexeme ∈ lexemes, lexeme.IsLegal) → Blanks after →
      Sound part ∧ Spelled (spell part) (lexemes.flatMap Lexeme.text ++ after)
  opened : ∀ {part text}, Sound part → Spelled (spell part) text →
    ∃ lexemes after, Opens part lexemes ∧ (∀ lexeme ∈ lexemes, lexeme.IsLegal) ∧ Blanks after ∧
      text = lexemes.flatMap Lexeme.text ++ after

theorem Items.separated (spells : Spells Opens spell Spelled Sound) {parts : List Part}
    {input : List Lexeme} (items : Items Opens closing parts input)
    (legal : ∀ lexeme ∈ input, lexeme.IsLegal) :
    (∀ part ∈ parts, Sound part) ∧ ∃ inside, Separated Spelled (parts.map spell) inside ∧
      input.flatMap Lexeme.text = inside ++ closing.text := by
  induction items with
  | last opens after =>
      obtain ⟨own, closes⟩ := List.forall_mem_append.mp legal
      have blanks := (closes _ List.mem_cons_self).blanks
      obtain ⟨sound, spelled⟩ := spells.spelled opens own blanks
      exact ⟨by simpa using sound, _, .last spelled, by simp [Lexeme.text]⟩
  | more opens after others ih =>
      obtain ⟨own, following⟩ := List.forall_mem_append.mp legal
      obtain ⟨comma, rest⟩ := List.forall_mem_cons.mp following
      obtain ⟨sound, spelled⟩ := spells.spelled opens own comma.blanks
      obtain ⟨otherSound, inside, separated, same⟩ := ih rest
      refine ⟨List.forall_mem_cons.mpr ⟨sound, otherSound⟩, _, .more spelled separated, ?_⟩
      simp [same, Lexeme.text, Token.text]

theorem exists_items_of_separated (spells : Spells Opens spell Spelled Sound)
    (legalClosing : closing.IsLegal) {parts : List Part} (sound : ∀ part ∈ parts, Sound part)
    {inside : Bytes} (separated : Separated Spelled (parts.map spell) inside) :
    ∃ input, Items Opens closing parts input ∧ (∀ lexeme ∈ input, lexeme.IsLegal) ∧
      input.flatMap Lexeme.text = inside ++ closing.text := by
  induction parts generalizing inside with
  | nil =>
      generalize none : List.map spell [] = spellings at separated
      cases separated <;> cases none
  | cons part parts ih =>
      obtain ⟨own, others⟩ := List.forall_mem_cons.mp sound
      generalize all : List.map spell (part :: parts) = spellings at separated
      cases separated with
      | last spelled =>
          obtain ⟨rfl, empty⟩ := List.cons.inj all
          obtain rfl := List.map_eq_nil_iff.mp empty
          obtain ⟨lexemes, after, opens, legal, blanks, rfl⟩ := spells.opened own spelled
          refine ⟨_, .last opens after, ?_, by simp [Lexeme.text]⟩
          exact List.forall_mem_append.mpr ⟨legal, by simpa using ⟨blanks, legalClosing⟩⟩
      | more spelled separated =>
          obtain ⟨rfl, rfl⟩ := List.cons.inj all
          obtain ⟨lexemes, after, opens, legal, blanks, rfl⟩ := spells.opened own spelled
          obtain ⟨rest, items, restLegal, same⟩ := ih others separated
          refine ⟨_, .more opens after items, ?_, by simp [same, Lexeme.text, Token.text]⟩
          refine List.forall_mem_append.mpr ⟨legal, List.forall_mem_cons.mpr ⟨?_, restLegal⟩⟩
          exact ⟨blanks, trivial⟩

end

theorem spells_elements : Spells OpensElement Value.text IsElement Value.IsSound where
  spelled := by
    rintro value lexemes after ⟨nested, blank, rfl⟩ legal blanks
    obtain ⟨sound, beforeBlanks⟩ := Value.isSound_of nested legal
    exact ⟨sound, blank, after, beforeBlanks, blanks, by rw [Value.text_lexemes]⟩
  opened := by
    rintro value text sound ⟨before, after, beforeBlanks, afterBlanks, rfl⟩
    exact ⟨value.lexemes before, after, ⟨sound.nested, before, rfl⟩,
      sound.legal_lexemes beforeBlanks, afterBlanks, by rw [Value.text_lexemes]⟩

def Member.spelled (member : Member) : List Piece × Bytes := (member.1, member.2.text)

def Member.IsSound (member : Member) : Prop :=
  (∀ piece ∈ member.1, piece.IsLegal) ∧ member.2.IsSound

theorem spells_members : Spells OpensMember Member.spelled IsMember Member.IsSound where
  spelled := by
    rintro ⟨name, value⟩ lexemes after ⟨nested, before, between, blank, rfl⟩ legal blanks
    obtain ⟨named, legal⟩ := List.forall_mem_cons.mp legal
    obtain ⟨colon, legal⟩ := List.forall_mem_cons.mp legal
    obtain ⟨sound, blankBlanks⟩ := Value.isSound_of nested legal
    refine ⟨⟨named.token, sound⟩, before, between, blank ++ value.text ++ after, named.blanks,
      named.token, colon.blanks, ⟨blank, after, blankBlanks, blanks, rfl⟩, ?_⟩
    rw [List.flatMap_cons, List.flatMap_cons, Value.text_lexemes]
    simp [Lexeme.text, literal, Token.text, Member.spelled]
  opened := by
    rintro ⟨name, value⟩ text ⟨legalName, sound⟩ ⟨before, between, spelling, beforeBlanks, _,
      betweenBlanks, ⟨blank, after, blankBlanks, afterBlanks, rfl⟩, rfl⟩
    refine ⟨_, after, ⟨sound.nested, before, between, blank, rfl⟩, ?_, afterBlanks, ?_⟩
    · refine List.forall_mem_cons.mpr ⟨⟨beforeBlanks, legalName⟩, ?_⟩
      refine List.forall_mem_cons.mpr ⟨⟨betweenBlanks, trivial⟩, ?_⟩
      exact sound.legal_lexemes blankBlanks
    · rw [List.flatMap_cons, List.flatMap_cons, Value.text_lexemes]
      simp [Lexeme.text, literal, Token.text, Member.spelled]

/-! ### The text of a sound value -/

theorem Value.text_mk (first : Token) (following : List Lexeme) :
    (Value.mk first following).text = first.text ++ following.flatMap Lexeme.text := rfl

section

variable {Part Spelling : Type} {Opens : Part → List Lexeme → Prop} {spell : Part → Spelling}
  {Spelled : Spelling → Bytes → Prop} {Sound : Part → Prop} (bracket : Bracket)
  {opening closing : Char}

theorem enclosed_of_contents (spells : Spells Opens spell Spelled Sound)
    (opens : bracket.opening.text = [Bytes.ofAscii opening])
    (closes : bracket.closing.text = [Bytes.ofAscii closing]) {parts : List Part}
    {following : List Lexeme} (contents : Contents Opens bracket.closing parts following)
    (legal : ∀ lexeme ∈ following, lexeme.IsLegal) :
    (∀ part ∈ parts, Sound part) ∧ Enclosed Spelled opening closing (parts.map spell)
      (Value.mk bracket.opening following).text := by
  rw [Value.text_mk, opens]
  cases contents with
  | empty blank =>
      have blanks := (legal _ List.mem_cons_self).blanks
      have empty : Enclosed Spelled opening closing [] _ := .empty blanks
      exact ⟨by simp, by simpa [Lexeme.text, closes] using empty⟩
  | filled items =>
      obtain ⟨sound, inside, separated, same⟩ := items.separated spells legal
      rw [same, closes]
      exact ⟨sound, .filled separated⟩

theorem exists_contents_of_enclosed (spells : Spells Opens spell Spelled Sound)
    (opens : bracket.opening.text = [Bytes.ofAscii opening])
    (closes : bracket.closing.text = [Bytes.ofAscii closing]) {parts : List Part}
    (sound : ∀ part ∈ parts, Sound part) {text : Bytes}
    (enclosed : Enclosed Spelled opening closing (parts.map spell) text) :
    ∃ following, Contents Opens bracket.closing parts following ∧
      (∀ lexeme ∈ following, lexeme.IsLegal) ∧ text = (Value.mk bracket.opening following).text := by
  have legalClosing : bracket.closing.IsLegal := by cases bracket <;> trivial
  simp only [Value.text_mk, opens]
  generalize all : parts.map spell = spellings at enclosed
  cases enclosed with
  | @empty blank blanks =>
      obtain rfl := List.map_eq_nil_iff.mp all
      refine ⟨[⟨blank, bracket.closing⟩], .empty blank, ?_, by simp [Lexeme.text, closes]⟩
      simpa using ⟨blanks, legalClosing⟩
  | filled separated =>
      subst all
      obtain ⟨input, items, legal, same⟩ :=
        exists_items_of_separated spells legalClosing sound separated
      exact ⟨input, .filled items, legal, by simp [same, closes]⟩

theorem isSound_of_contents {bracket : Bracket} (reads : bracket.Reads Opens) {parts : List Part}
    {following : List Lexeme} (contents : Contents Opens bracket.closing parts following)
    (legal : ∀ lexeme ∈ following, lexeme.IsLegal) :
    (Value.mk bracket.opening following).IsSound := by
  refine ⟨(isNested_container reads following).mpr ⟨parts, contents⟩, ?_⟩
  refine List.forall_mem_cons.mpr ⟨⟨blanks_nil, ?_⟩, legal⟩
  cases bracket <;> trivial

end

theorem exists_elements_of_isSound {following : List Lexeme}
    (sound : (Value.mk .openList following).IsSound) :
    ∃ elements, (Value.mk .openList following).elements? = some elements ∧
      (∀ element ∈ elements, element.IsSound ∧ element.following.length < following.length) ∧
      IsList (elements.map Value.text) (Value.mk .openList following).text := by
  obtain ⟨elements, contents⟩ := (isNested_list following).mp sound.nested
  obtain ⟨_, legal⟩ := List.forall_mem_cons.mp sound.legal
  obtain ⟨elementSound, enclosed⟩ :=
    enclosed_of_contents .list spells_elements rfl rfl contents legal
  refine ⟨elements, Value.elements?_of contents, ?_, enclosed⟩
  intro element member
  refine ⟨elementSound element member, ?_⟩
  obtain ⟨front, lexemes, back, ⟨_, blank, rfl⟩, rfl, present⟩ := contents.exists_infix member
  have positive := List.length_pos_iff.mpr present
  simp only [Value.lexemes, List.length_append, List.length_cons]
  omega

theorem exists_members_of_isSound {following : List Lexeme}
    (sound : (Value.mk .openRecord following).IsSound) :
    ∃ members, (Value.mk .openRecord following).members? = some members ∧
      (∀ member ∈ members, Member.IsSound member ∧
        member.2.following.length < following.length) ∧
      IsRecord (members.map Member.spelled) (Value.mk .openRecord following).text := by
  obtain ⟨members, contents⟩ := (isNested_record following).mp sound.nested
  obtain ⟨_, legal⟩ := List.forall_mem_cons.mp sound.legal
  obtain ⟨memberSound, enclosed⟩ :=
    enclosed_of_contents .record spells_members rfl rfl contents legal
  refine ⟨members, Value.members?_of contents, ?_, enclosed⟩
  intro member within
  refine ⟨memberSound member within, ?_⟩
  obtain ⟨front, lexemes, back, ⟨_, before, between, blank, rfl⟩, rfl, present⟩ :=
    contents.exists_infix within
  have positive := List.length_pos_iff.mpr present
  simp only [Value.lexemes, List.length_append, List.length_cons]
  omega

theorem Value.IsSound.isValue {value : Value} (sound : value.IsSound) : IsValue value.text := by
  -- By the number of lexemes: a part of a container has fewer of them than the container.
  induction size : value.following.length using Nat.strongRecOn generalizing value with
  | ind size ih =>
      obtain ⟨first, following⟩ := value
      obtain ⟨own, _⟩ := List.forall_mem_cons.mp sound.legal
      have legal := own.token
      cases first with
      | openList =>
          obtain ⟨elements, _, smaller, enclosed⟩ := exists_elements_of_isSound sound
          refine .list enclosed ?_
          intro text member
          obtain ⟨element, within, rfl⟩ := List.mem_map.mp member
          obtain ⟨elementSound, less⟩ := smaller element within
          exact ih _ (size ▸ less) elementSound rfl
      | openRecord =>
          obtain ⟨members, _, smaller, enclosed⟩ := exists_members_of_isSound sound
          refine .record enclosed ?_
          intro spelled member
          obtain ⟨⟨name, value⟩, within, rfl⟩ := List.mem_map.mp member
          obtain ⟨memberSound, less⟩ := smaller (name, value) within
          exact ih _ (size ▸ less) memberSound.2 rfl
      | closeList | closeRecord | comma | colon => exact absurd sound.nested (not_isNested rfl _)
      | null =>
          obtain rfl := (isNested_alone rfl following).mp sound.nested
          have null : IsValue Token.null.text := .word (by simp)
          exact null
      | truth value =>
          obtain rfl := (isNested_alone rfl following).mp sound.nested
          rw [Value.text_mk, List.flatMap_nil, List.append_nil]
          exact .word (by cases value <;> simp)
      | number text =>
          obtain rfl := (isNested_alone rfl following).mp sound.nested
          rw [Value.text_mk, List.flatMap_nil, List.append_nil]
          exact .number legal
      | string pieces =>
          obtain rfl := (isNested_alone rfl following).mp sound.nested
          rw [Value.text_mk, List.flatMap_nil, List.append_nil]
          exact .string legal

theorem isSound_alone {token : Token} (alone : Advance.step [] token .value = .finish)
    (legal : token.IsLegal) : (Value.mk token []).IsSound :=
  ⟨(isNested_alone alone []).mpr rfl, by simpa [Value.lexemes] using ⟨blanks_nil, legal⟩⟩

/-! ### A sound value for every text -/

theorem exists_map_eq {Part Spelling : Type} {Sound : Part → Prop} {spell : Part → Spelling}
    {spellings : List Spelling}
    (each : ∀ spelling ∈ spellings, ∃ part, Sound part ∧ spell part = spelling) :
    ∃ parts : List Part, (∀ part ∈ parts, Sound part) ∧ parts.map spell = spellings := by
  induction spellings with
  | nil => exact ⟨[], by simp, rfl⟩
  | cons spelling spellings ih =>
      obtain ⟨⟨part, sound, rfl⟩, others⟩ := List.forall_mem_cons.mp each
      obtain ⟨parts, otherSound, rfl⟩ := ih others
      exact ⟨part :: parts, List.forall_mem_cons.mpr ⟨sound, otherSound⟩, rfl⟩

theorem exists_list_of_isList {elements : List Value} (sound : ∀ element ∈ elements, element.IsSound)
    {text : Bytes} (enclosed : IsList (elements.map Value.text) text) :
    ∃ value : Value, value.IsSound ∧ value.text = text ∧ value.elements? = some elements := by
  obtain ⟨following, contents, legal, rfl⟩ :=
    exists_contents_of_enclosed .list spells_elements rfl rfl sound enclosed
  exact ⟨_, isSound_of_contents Bracket.list_reads contents legal, rfl,
    Value.elements?_of contents⟩

theorem exists_record_of_isRecord {members : List Member}
    (sound : ∀ member ∈ members, Member.IsSound member) {text : Bytes}
    (enclosed : IsRecord (members.map Member.spelled) text) :
    ∃ value : Value, value.IsSound ∧ value.text = text ∧ value.members? = some members := by
  obtain ⟨following, contents, legal, rfl⟩ :=
    exists_contents_of_enclosed .record spells_members rfl rfl sound enclosed
  exact ⟨_, isSound_of_contents Bracket.record_reads contents legal, rfl,
    Value.members?_of contents⟩

theorem exists_members_of_isRecord {members : List (List Piece × Bytes)} {text : Bytes}
    (enclosed : IsRecord members text)
    (values : ∀ member ∈ members, ∃ value : Value, value.IsSound ∧ value.text = member.2) :
    ∃ read : List Member, (∀ member ∈ read, Member.IsSound member) ∧
      read.map Member.spelled = members := by
  refine exists_map_eq fun member within => ?_
  obtain ⟨value, sound, same⟩ := values member within
  obtain ⟨_, _, _, _, _, legal, _⟩ := enclosed.exists_text within
  exact ⟨(member.1, value), ⟨legal, sound⟩, by simp [Member.spelled, same]⟩

theorem exists_value_of_isValue {text : Bytes} (isValue : IsValue text) :
    ∃ value : Value, value.IsSound ∧ value.text = text := by
  have alone : ∀ {token : Token}, Advance.step [] token .value = .finish → token.IsLegal →
      ∃ value : Value, value.IsSound ∧ value.text = token.text := by
    intro token finishes legal
    exact ⟨⟨token, []⟩, isSound_alone finishes legal, by simp [Value.text_mk]⟩
  induction isValue with
  | word word =>
      simp only [List.mem_cons, List.not_mem_nil, or_false] at word
      rcases word with rfl | rfl | rfl <;> exact alone rfl trivial
  | @number text number => exact @alone (.number text) rfl number
  | @string pieces legal => exact @alone (.string pieces) rfl legal
  | list enclosed _ ih =>
      obtain ⟨elements, sound, rfl⟩ := exists_map_eq ih
      obtain ⟨value, valueSound, same, _⟩ := exists_list_of_isList sound enclosed
      exact ⟨value, valueSound, same⟩
  | record enclosed _ ih =>
      obtain ⟨members, sound, rfl⟩ := exists_members_of_isRecord enclosed ih
      obtain ⟨value, valueSound, same, _⟩ := exists_record_of_isRecord sound enclosed
      exact ⟨value, valueSound, same⟩

/-! ### Elements and members -/

theorem Value.elements?_eq_some_iff {value : Value} (sound : value.IsSound)
    {elements : List Value} :
    value.elements? = some elements ↔
      (∀ element ∈ elements, element.IsSound) ∧ IsList (elements.map Value.text) value.text := by
  constructor
  · intro read
    obtain ⟨first, following⟩ := value
    by_cases opens : first = .openList
    · subst opens
      obtain ⟨found, same, smaller, enclosed⟩ := exists_elements_of_isSound sound
      obtain rfl : found = elements := Option.some.inj (same.symm.trans read)
      exact ⟨fun element member => (smaller element member).1, enclosed⟩
    · simp [Value.elements?, opens] at read
  · rintro ⟨elementSound, enclosed⟩
    obtain ⟨other, otherSound, same, read⟩ := exists_list_of_isList elementSound enclosed
    rwa [sound.eq_of_text otherSound same.symm]

theorem Value.members?_eq_some_iff {value : Value} (sound : value.IsSound)
    {members : List Member} :
    value.members? = some members ↔
      (∀ member ∈ members, Member.IsSound member) ∧
        IsRecord (members.map Member.spelled) value.text := by
  constructor
  · intro read
    obtain ⟨first, following⟩ := value
    by_cases opens : first = .openRecord
    · subst opens
      obtain ⟨found, same, smaller, enclosed⟩ := exists_members_of_isSound sound
      obtain rfl : found = members := Option.some.inj (same.symm.trans read)
      exact ⟨fun member within => (smaller member within).1, enclosed⟩
    · simp [Value.members?, opens] at read
  · rintro ⟨memberSound, enclosed⟩
    obtain ⟨other, otherSound, same, read⟩ := exists_record_of_isRecord memberSound enclosed
    rwa [sound.eq_of_text otherSound same.symm]

/-! ### The kinds of a value -/

theorem Value.first_of_elements? {value : Value} {elements : List Value}
    (read : value.elements? = some elements) : value.first = .openList := by
  unfold Value.elements? at read
  split at read
  case isTrue opens => exact opens
  case isFalse => cases read

theorem Value.first_of_members? {value : Value} {members : List Member}
    (read : value.members? = some members) : value.first = .openRecord := by
  unfold Value.members? at read
  split at read
  case isTrue opens => exact opens
  case isFalse => cases read

theorem Value.IsSound.first_iff {value : Value} (sound : value.IsSound) {token : Token}
    (alone : Advance.step [] token .value = .finish) :
    value.first = token ↔ token.IsLegal ∧ value.text = token.text := by
  constructor
  · rintro rfl
    obtain ⟨first, following⟩ := value
    obtain rfl := (isNested_alone alone following).mp sound.nested
    obtain ⟨own, _⟩ := List.forall_mem_cons.mp sound.legal
    exact ⟨own.token, by simp [Value.text_mk]⟩
  · rintro ⟨legal, same⟩
    rw [sound.eq_of_text (isSound_alone alone legal) (by simpa [Value.text_mk] using same)]

end ScriptedResponder.Json
