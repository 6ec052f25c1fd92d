import ScriptedResponder.Phrase
import ScriptedResponder.Proofs.Numeral

/-!
The grammar of phrases. A grammar is a table: verbs that stand alone, and verbs that take one number
in a given notation. `Grammar.Reads` says what a verb and its parameters are read as, defects
included, and `IsRead.read_eq_iff` that reading by the table gives exactly that.
-/

set_option autoImplicit false

namespace ScriptedResponder

/-! ### Blanks around a text -/

namespace Text

def IsBlanks (text : List Char) : Prop := ∀ character ∈ text, isBlank character = true

instance (text : List Char) : Decidable (IsBlanks text) :=
  @List.decidableBAll _ (fun character => isBlank character = true) (fun _ => inferInstance) text

/-- The text is the core with blanks before and after it. -/
def IsPadded (core text : List Char) : Prop :=
  ∃ before after, IsBlanks before ∧ IsBlanks after ∧ text = before ++ core ++ after

theorem isPadded_trim (text : List Char) : IsPadded (trim text) text := by
  have front := List.takeWhile_append_dropWhile (p := isBlank) (l := text)
  have back := List.takeWhile_append_dropWhile (p := isBlank)
    (l := (text.dropWhile isBlank).reverse)
  refine ⟨text.takeWhile isBlank,
    ((text.dropWhile isBlank).reverse.takeWhile isBlank).reverse, ?_, ?_, ?_⟩
  · exact List.all_eq_true.mp List.all_takeWhile
  · intro character member
    exact List.all_eq_true.mp List.all_takeWhile character (List.mem_reverse.mp member)
  · rw [trim, List.append_assoc, ← List.reverse_append, back, List.reverse_reverse, front]

theorem IsBlanks.dropWhile_append {blanks core rest : List Char} (blank : IsBlanks blanks)
    (present : core ≠ []) (solid : ∀ character ∈ core, isBlank character = false) :
    (blanks ++ core ++ rest).dropWhile isBlank = core ++ rest := by
  obtain ⟨first, others, rfl⟩ := List.exists_cons_of_ne_nil present
  have firstSolid := solid first List.mem_cons_self
  rw [List.append_assoc, List.dropWhile_append_of_pos blank, List.cons_append,
    List.dropWhile_cons_of_neg (by simp [firstSolid])]

theorem IsPadded.trim_eq {core text : List Char} (padded : IsPadded core text)
    (present : core ≠ []) (solid : ∀ character ∈ core, isBlank character = false) :
    trim text = core := by
  obtain ⟨before, after, beforeBlanks, afterBlanks, rfl⟩ := padded
  have afterReversed : IsBlanks after.reverse :=
    fun character member => afterBlanks character (List.mem_reverse.mp member)
  have back : (after.reverse ++ core.reverse ++ []).dropWhile isBlank = core.reverse ++ [] :=
    afterReversed.dropWhile_append (by simpa using present)
      (fun character member => solid character (List.mem_reverse.mp member))
  rw [List.append_nil, List.append_nil] at back
  rw [trim, beforeBlanks.dropWhile_append present solid, List.reverse_append, back,
    List.reverse_reverse]

theorem isBlank_of_isMark {character : Char} (mark : Numeral.isMark character = true) :
    isBlank character = false := by
  simp only [Numeral.isMark, Numeral.isDigit, Bool.or_eq_true, Bool.and_eq_true,
    decide_eq_true_eq] at mark
  obtain (⟨low, high⟩ | rfl) | rfl := mark
  · have atLeast : 48 ≤ character.toNat := low
    have atMost : character.toNat ≤ 57 := high
    simp only [isBlank, blankRanges, List.any_cons, List.any_nil, Bool.or_eq_false_iff,
      Bool.and_eq_false_iff, decide_eq_false_iff_not, and_true]
    omega
  · decide
  · decide

theorem IsBlanks.colonless {text : List Char} (blanks : IsBlanks text) : ':' ∉ text :=
  fun member => absurd (blanks ':' member) (by decide)

theorem number?_trim_eq_some_iff {Number : Type} {number? : List Char → Option Number}
    {writes : List Char → Number → Prop}
    (reads : ∀ text number, number? text = some number ↔ writes text number)
    (marked : ∀ text number, writes text number → Numeral.IsMarked text) {text : List Char}
    {number : Number} :
    number? (trim text) = some number ↔ ∃ numeral, IsPadded numeral text ∧ writes numeral number := by
  rw [reads]
  constructor
  · intro written
    exact ⟨_, isPadded_trim text, written⟩
  · rintro ⟨numeral, padded, written⟩
    obtain ⟨present, marks⟩ := marked numeral number written
    rwa [padded.trim_eq present fun character member => isBlank_of_isMark (marks character member)]

end Text

theorem Numeral.IsMarked.colonless {text : List Char} (marked : Numeral.IsMarked text) :
    ':' ∉ text :=
  fun member => absurd (marked.2 ':' member) (by decide)

namespace Phrase

/-! ### Verb and parameters -/

/-- The text is the verb and the parameters with colons between them, and has no other colons. -/
structure IsSplit (text verb : String) (parameters : List String) : Prop where
  joined : String.intercalate ":" (verb :: parameters) = text
  apart : ∀ piece ∈ verb :: parameters, ':' ∉ piece.toList

theorem pieces_cons (character : Char) (text : List Char) :
    pieces (character :: text) = extendPieces character (pieces text) := rfl

theorem pieces_eq_splitOn (text : List Char) :
    (pieces text).1 :: (pieces text).2 = text.splitOn ':' := by
  induction text with
  | nil => rfl
  | cons character text ih =>
      rw [pieces_cons, List.splitOn_cons_eq_if_modifyHead, ← ih, extendPieces]
      by_cases colon : character = ':'
      · rw [if_pos colon, if_pos (by simpa using colon)]
      · rw [if_neg colon, if_neg (by simpa using colon)]
        rfl

theorem colon_not_mem_pieces (text : List Char) :
    ∀ piece ∈ (pieces text).1 :: (pieces text).2, ':' ∉ piece := by
  induction text with
  | nil => simp [pieces]
  | cons character text ih =>
      obtain ⟨first, others⟩ := List.forall_mem_cons.mp ih
      rw [pieces_cons, extendPieces]
      by_cases colon : character = ':'
      · rw [if_pos colon]
        exact List.forall_mem_cons.mpr ⟨by simp, List.forall_mem_cons.mpr ⟨first, others⟩⟩
      · rw [if_neg colon]
        exact List.forall_mem_cons.mpr ⟨by simp [first, Ne.symm colon], others⟩

theorem ofText_eq_iff {text : String} {phrase : Phrase} :
    ofText text = phrase ↔ IsSplit text phrase.verb phrase.parameters := by
  constructor
  · rintro rfl
    refine ⟨String.toList_injective ?_, ?_⟩
    · have joined : [':'].intercalate (text.toList.splitOn ':') = text.toList :=
        List.intercalate_splitOn ':'
      rw [← pieces_eq_splitOn] at joined
      simpa [ofText, String.toList_intercalate, Function.comp_def] using joined
    · have apart := colon_not_mem_pieces text.toList
      simpa [ofText] using apart
  · rintro ⟨joined, apart⟩
    have whole : text.toList = [':'].intercalate
        (phrase.verb.toList :: phrase.parameters.map String.toList) := by
      simp [← joined, String.toList_intercalate]
    have split : text.toList.splitOn ':' =
        phrase.verb.toList :: phrase.parameters.map String.toList := by
      rw [whole]
      exact List.splitOn_intercalate ':' (by simpa using apart) (by simp)
    rw [← pieces_eq_splitOn] at split
    obtain ⟨verb, parameters⟩ := List.cons.inj split
    rw [ofText, verb, parameters]
    simp [Function.comp_def]

theorem isSplit_ofText (text : String) :
    IsSplit text (ofText text).verb (ofText text).parameters :=
  ofText_eq_iff.mp rfl

theorem isSplit_single {verb parameter : String} (colonless : ':' ∉ verb.toList)
    (parameterColonless : ':' ∉ parameter.toList) :
    IsSplit (verb ++ ":" ++ parameter) verb [parameter] :=
  ⟨by simp [String.intercalate_cons_cons], by simp [colonless, parameterColonless]⟩

/-! ### Grammars -/

/-- A kind of phrases: what its verbs mean and what its defects are called, each told of the verb. -/
structure Grammar (Number Result Defect : Type) where
  plain : List (String × Result)
  numbered : List (String × (Number → Result))
  writes : List Char → Number → Prop
  unknown : String → Defect
  missing : String → Defect
  notAnInteger : String → Defect
  unexpected : String → Defect

namespace Grammar

variable {Number Result Defect : Type} (grammar : Grammar Number Result Defect)

def Holds (parameter : String) (number : Number) : Prop :=
  ∃ numeral, Text.IsPadded numeral parameter.toList ∧ grammar.writes numeral number

/-- What a verb and its parameters are read as. The verb is looked at first, then the first parameter
and last whether there are more. -/
inductive Reads : String → List String → Except Defect Result → Prop
  | plain {verb : String} {result : Result} (listed : (verb, result) ∈ grammar.plain) :
      Reads verb [] (.ok result)
  | crowded {verb parameter : String} {others : List String} {result : Result}
      (listed : (verb, result) ∈ grammar.plain) :
      Reads verb (parameter :: others) (.error (grammar.unexpected verb))
  | missing {verb : String} {result : Number → Result} (listed : (verb, result) ∈ grammar.numbered) :
      Reads verb [] (.error (grammar.missing verb))
  | notAnInteger {verb parameter : String} {others : List String} {result : Number → Result}
      (listed : (verb, result) ∈ grammar.numbered)
      (refused : ∀ number, ¬ grammar.Holds parameter number) :
      Reads verb (parameter :: others) (.error (grammar.notAnInteger verb))
  | numbered {verb parameter : String} {result : Number → Result} {number : Number}
      (listed : (verb, result) ∈ grammar.numbered) (held : grammar.Holds parameter number) :
      Reads verb [parameter] (.ok (result number))
  | overfull {verb parameter second : String} {others : List String} {result : Number → Result}
      {number : Number} (listed : (verb, result) ∈ grammar.numbered)
      (held : grammar.Holds parameter number) :
      Reads verb (parameter :: second :: others) (.error (grammar.unexpected verb))
  | unknown {verb : String} {parameters : List String}
      (notPlain : ∀ result, (verb, result) ∉ grammar.plain)
      (notNumbered : ∀ result, (verb, result) ∉ grammar.numbered) :
      Reads verb parameters (.error (grammar.unknown verb))

/-! ### Tables -/

section

variable {Meaning : Type} {table : List (String × Meaning)} {verb : String} {meaning : Meaning}

theorem lookup_of_mem (once : (table.map Prod.fst).Nodup) (listed : (verb, meaning) ∈ table) :
    table.lookup verb = some meaning := by
  induction table with
  | nil => cases listed
  | cons entry table ih =>
      obtain ⟨fresh, others⟩ := List.nodup_cons.mp once
      obtain rfl | later := List.mem_cons.mp listed
      · exact List.lookup_cons_self
      · have apart : verb ≠ entry.1 := by
          rintro rfl
          exact fresh (List.mem_map.mpr ⟨_, later, rfl⟩)
        rw [List.lookup_cons, beq_false_of_ne apart]
        exact ih others later

theorem mem_of_lookup (found : table.lookup verb = some meaning) : (verb, meaning) ∈ table := by
  obtain ⟨earlier, later, rfl, _⟩ := List.lookup_eq_some_iff.mp found
  exact List.mem_append_right _ List.mem_cons_self

theorem lookup_eq_none_iff_unlisted :
    table.lookup verb = none ↔ ∀ meaning, (verb, meaning) ∉ table := by
  rw [List.lookup_eq_none_iff]
  constructor
  · intro apart meaning listed
    exact bne_iff_ne.mp (apart _ listed) rfl
  · intro unlisted entry member
    apply bne_iff_ne.mpr
    rintro rfl
    exact unlisted entry.2 member

end

/-! ### Reading by the table -/

def refusal (verb : String) : ParameterError → Defect
  | .missing => grammar.missing verb
  | .notAnInteger => grammar.notAnInteger verb
  | .unexpected => grammar.unexpected verb

def takeOnly (read : List Char → Option Number) (phrase : Phrase) :
    Except ParameterError Number :=
  match phrase.takeNumber read with
  | (.error defect, _) => .error defect
  | (.ok number, rest) =>
      match rest.finish with
      | .error defect => .error defect
      | .ok _ => .ok number

def read (number? : List Char → Option Number) (phrase : Phrase) : Except Defect Result :=
  match grammar.plain.lookup phrase.verb with
  | some result => (phrase.finish.map fun _ => result).mapError (grammar.refusal phrase.verb)
  | none =>
      match grammar.numbered.lookup phrase.verb with
      | some result => ((takeOnly number? phrase).map result).mapError (grammar.refusal phrase.verb)
      | none => .error (grammar.unknown phrase.verb)

/-- A grammar in which every verb has one meaning, with a reader of its notation. -/
structure IsRead (number? : List Char → Option Number) : Prop where
  once : (grammar.plain.map Prod.fst ++ grammar.numbered.map Prod.fst).Nodup
  reads : ∀ text number, number? text = some number ↔ grammar.writes text number
  marked : ∀ text number, grammar.writes text number → Numeral.IsMarked text

variable {grammar} {number? : List Char → Option Number}

theorem IsRead.number?_trim_eq_some_iff (isRead : grammar.IsRead number?) {parameter : String}
    {number : Number} :
    number? (Text.trim parameter.toList) = some number ↔ grammar.Holds parameter number :=
  Text.number?_trim_eq_some_iff isRead.reads isRead.marked

theorem IsRead.number?_trim_eq_none_iff (isRead : grammar.IsRead number?) {parameter : String} :
    number? (Text.trim parameter.toList) = none ↔ ∀ number, ¬ grammar.Holds parameter number := by
  simp only [Option.eq_none_iff_forall_ne_some, ne_eq, isRead.number?_trim_eq_some_iff]

theorem takeOnly_of_none {parameter : String} (refused : number? (Text.trim parameter.toList) = none)
    (verb : String) (others : List String) :
    takeOnly number? ⟨verb, parameter :: others⟩ = .error .notAnInteger := by
  simp only [takeOnly, takeNumber, refused]

theorem takeOnly_of_some {parameter : String} {number : Number}
    (read : number? (Text.trim parameter.toList) = some number) (verb : String)
    (others : List String) :
    takeOnly number? ⟨verb, parameter :: others⟩ =
      if others = [] then .ok number else .error .unexpected := by
  simp only [takeOnly, takeNumber, read, finish, hasRemaining]
  cases others with
  | nil => rfl
  | cons second others => rfl

theorem IsRead.reads_read (isRead : grammar.IsRead number?) (verb : String)
    (parameters : List String) :
    grammar.Reads verb parameters (grammar.read number? ⟨verb, parameters⟩) := by
  unfold read
  cases alone : grammar.plain.lookup verb with
  | some result =>
      have listed := mem_of_lookup alone
      cases parameters with
      | nil => exact .plain listed
      | cons parameter others => exact .crowded listed
  | none =>
      cases counted : grammar.numbered.lookup verb with
      | none =>
          exact .unknown (lookup_eq_none_iff_unlisted.mp alone)
            (lookup_eq_none_iff_unlisted.mp counted)
      | some result =>
          have listed := mem_of_lookup counted
          cases parameters with
          | nil => exact .missing listed
          | cons parameter others =>
              cases found : number? (Text.trim parameter.toList) with
              | none =>
                  simp only [takeOnly_of_none found]
                  exact .notAnInteger listed (isRead.number?_trim_eq_none_iff.mp found)
              | some number =>
                  have held := isRead.number?_trim_eq_some_iff.mp found
                  simp only [takeOnly_of_some found]
                  cases others with
                  | nil => exact .numbered listed held
                  | cons second others => exact .overfull listed held

theorem IsRead.lookup_plain (isRead : grammar.IsRead number?) {verb : String} {result : Result}
    (listed : (verb, result) ∈ grammar.plain) : grammar.plain.lookup verb = some result :=
  lookup_of_mem (List.nodup_append.mp isRead.once).1 listed

theorem IsRead.lookup_numbered (isRead : grammar.IsRead number?) {verb : String}
    {result : Number → Result} (listed : (verb, result) ∈ grammar.numbered) :
    grammar.plain.lookup verb = none ∧ grammar.numbered.lookup verb = some result := by
  obtain ⟨_, once, apart⟩ := List.nodup_append.mp isRead.once
  refine ⟨lookup_eq_none_iff_unlisted.mpr fun other alone => ?_, lookup_of_mem once listed⟩
  exact apart verb (List.mem_map.mpr ⟨_, alone, rfl⟩) verb (List.mem_map.mpr ⟨_, listed, rfl⟩) rfl

theorem IsRead.read_of_reads (isRead : grammar.IsRead number?) {verb : String}
    {parameters : List String} {result : Except Defect Result}
    (reads : grammar.Reads verb parameters result) :
    grammar.read number? ⟨verb, parameters⟩ = result := by
  unfold read
  cases reads with
  | plain listed => simp only [isRead.lookup_plain listed]; rfl
  | crowded listed => simp only [isRead.lookup_plain listed]; rfl
  | missing listed =>
      obtain ⟨alone, counted⟩ := isRead.lookup_numbered listed
      simp only [alone, counted]
      rfl
  | notAnInteger listed refused =>
      obtain ⟨alone, counted⟩ := isRead.lookup_numbered listed
      simp only [alone, counted, takeOnly_of_none (isRead.number?_trim_eq_none_iff.mpr refused)]
      rfl
  | numbered listed held =>
      obtain ⟨alone, counted⟩ := isRead.lookup_numbered listed
      simp only [alone, counted, takeOnly_of_some (isRead.number?_trim_eq_some_iff.mpr held)]
      rfl
  | overfull listed held =>
      obtain ⟨alone, counted⟩ := isRead.lookup_numbered listed
      simp only [alone, counted, takeOnly_of_some (isRead.number?_trim_eq_some_iff.mpr held)]
      rfl
  | unknown notPlain notNumbered =>
      simp only [lookup_eq_none_iff_unlisted.mpr notPlain,
        lookup_eq_none_iff_unlisted.mpr notNumbered]

theorem IsRead.read_eq_iff (isRead : grammar.IsRead number?) {phrase : Phrase}
    {result : Except Defect Result} :
    grammar.read number? phrase = result ↔ grammar.Reads phrase.verb phrase.parameters result := by
  constructor
  · rintro rfl
    exact isRead.reads_read phrase.verb phrase.parameters
  · exact isRead.read_of_reads

/-- Reading a text gives what the grammar says of the one way to split it. -/
theorem IsRead.read_ofText_eq_iff (isRead : grammar.IsRead number?) {text : String}
    {result : Except Defect Result} :
    grammar.read number? (ofText text) = result ↔
      ∃ verb parameters, IsSplit text verb parameters ∧ grammar.Reads verb parameters result := by
  rw [isRead.read_eq_iff]
  constructor
  · intro reads
    exact ⟨_, _, isSplit_ofText text, reads⟩
  · rintro ⟨verb, parameters, split, reads⟩
    have phrase : ofText text = ⟨verb, parameters⟩ := ofText_eq_iff.mpr split
    rwa [phrase]

/-! ### What is accepted -/

theorem reads_ok_iff {verb : String} {parameters : List String} {result : Result} :
    grammar.Reads verb parameters (.ok result) ↔
      ((verb, result) ∈ grammar.plain ∧ parameters = []) ∨
        ∃ make parameter number, (verb, make) ∈ grammar.numbered ∧ parameters = [parameter] ∧
          grammar.Holds parameter number ∧ result = make number := by
  constructor
  · intro reads
    cases reads with
    | plain listed => exact .inl ⟨listed, rfl⟩
    | numbered listed held => exact .inr ⟨_, _, _, listed, rfl, held, rfl⟩
  · rintro (⟨listed, rfl⟩ | ⟨make, parameter, number, listed, rfl, held, rfl⟩)
    · exact .plain listed
    · exact .numbered listed held

theorem IsRead.read_padded (isRead : grammar.IsRead number?) {verb : String}
    {result : Number → Result} (listed : (verb, result) ∈ grammar.numbered)
    (colonless : ':' ∉ verb.toList) {number : Number} {numeral : List Char}
    (written : grammar.writes numeral number) {before after : String}
    (beforeBlanks : Text.IsBlanks before.toList) (afterBlanks : Text.IsBlanks after.toList) :
    grammar.read number? (ofText (verb ++ ":" ++ (before ++ String.ofList numeral ++ after))) =
      .ok (result number) := by
  have marked := isRead.marked numeral number written
  have split : IsSplit (verb ++ ":" ++ (before ++ String.ofList numeral ++ after)) verb
      [before ++ String.ofList numeral ++ after] :=
    isSplit_single colonless
      (by simp [beforeBlanks.colonless, marked.colonless, afterBlanks.colonless])
  have held : grammar.Holds (before ++ String.ofList numeral ++ after) number :=
    ⟨numeral, ⟨before.toList, after.toList, beforeBlanks, afterBlanks, by simp⟩, written⟩
  exact isRead.read_ofText_eq_iff.mpr ⟨verb, _, split, .numbered listed held⟩

end Grammar
end Phrase

end ScriptedResponder
