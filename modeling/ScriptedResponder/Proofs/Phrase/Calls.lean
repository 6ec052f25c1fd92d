import ScriptedResponder.Proofs.Phrase.Grammar

/-!
Phrases under any calls. A call that takes a number uses up one parameter, whatever becomes of it, and
no other call changes anything; so the parameters left are told by how many calls took one
(`after_eq`), and every answer by the text and by the calls of that kind before it.
-/

set_option autoImplicit false

namespace ScriptedResponder.Phrase

/-! ### Calls and their answers -/

inductive Call
  | verb
  | signed
  | unsigned
  | finish
  | hasRemaining
  deriving DecidableEq, Repr

def Call.takes : Call → Bool
  | .signed | .unsigned => true
  | .verb | .finish | .hasRemaining => false

inductive Answer
  | verb (text : String)
  | signed (result : Except ParameterError Int)
  | unsigned (result : Except ParameterError Nat)
  | finish (result : Except ParameterError Unit)
  | hasRemaining (left : Bool)

def answer (phrase : Phrase) : Call → Answer × Phrase
  | .verb => (.verb phrase.verb, phrase)
  | .signed => (.signed phrase.takeSigned.1, phrase.takeSigned.2)
  | .unsigned => (.unsigned phrase.takeUnsigned.1, phrase.takeUnsigned.2)
  | .finish => (.finish phrase.finish, phrase)
  | .hasRemaining => (.hasRemaining phrase.hasRemaining, phrase)

def answers (phrase : Phrase) : List Call → List Answer
  | [] => []
  | call :: rest => (phrase.answer call).1 :: (phrase.answer call).2.answers rest

def after (phrase : Phrase) (calls : List Call) : Phrase :=
  calls.foldl (fun phrase call => (phrase.answer call).2) phrase

/-- What asking for a number says of the parameter there, if there is one. -/
inductive Converts {Number : Type} (writes : List Char → Number → Prop) :
    Option String → Except ParameterError Number → Prop
  | missing : Converts writes none (.error .missing)
  | notAnInteger {parameter : String}
      (refused : ∀ numeral number, Text.IsPadded numeral parameter.toList → ¬ writes numeral number) :
      Converts writes (some parameter) (.error .notAnInteger)
  | number {parameter : String} {numeral : List Char} {number : Number}
      (padded : Text.IsPadded numeral parameter.toList) (written : writes numeral number) :
      Converts writes (some parameter) (.ok number)

/-- The answer to a call on a verb and parameters of which so many have been asked for. -/
inductive IsAnswer (verb : String) (parameters : List String) (taken : Nat) : Call → Answer → Prop
  | verb : IsAnswer verb parameters taken .verb (.verb verb)
  | signed {result : Except ParameterError Int}
      (converts : Converts Numeral.IsSigned parameters[taken]? result) :
      IsAnswer verb parameters taken .signed (.signed result)
  | unsigned {result : Except ParameterError Nat}
      (converts : Converts Numeral.IsUnsigned parameters[taken]? result) :
      IsAnswer verb parameters taken .unsigned (.unsigned result)
  | unfinished (left : taken < parameters.length) :
      IsAnswer verb parameters taken .finish (.finish (.error .unexpected))
  | finished (none : parameters.length ≤ taken) :
      IsAnswer verb parameters taken .finish (.finish (.ok ()))
  | hasRemaining :
      IsAnswer verb parameters taken .hasRemaining (.hasRemaining (decide (taken < parameters.length)))

/-! ### One call -/

variable {Number : Type} {number? : List Char → Option Number} {writes : List Char → Number → Prop}

theorem takeNumber_left (read : List Char → Option Number) (phrase : Phrase) :
    (phrase.takeNumber read).2 = { phrase with parameters := phrase.parameters.drop 1 } := by
  obtain ⟨verb, parameters⟩ := phrase
  cases parameters <;> rfl

theorem takeNumber_eq_iff
    (reads : ∀ text number, number? text = some number ↔ writes text number)
    (marked : ∀ text number, writes text number → Numeral.IsMarked text) {phrase : Phrase}
    {result : Except ParameterError Number} :
    (phrase.takeNumber number?).1 = result ↔ Converts writes phrase.parameters.head? result := by
  obtain ⟨verb, parameters⟩ := phrase
  cases parameters with
  | nil =>
      constructor
      · rintro rfl
        exact .missing
      · intro converts
        cases converts
        rfl
  | cons parameter others =>
      have held : ∀ number, number? (Text.trim parameter.toList) = some number ↔
          ∃ numeral, Text.IsPadded numeral parameter.toList ∧ writes numeral number :=
        fun number => Text.number?_trim_eq_some_iff reads marked
      constructor
      · rintro rfl
        cases found : number? (Text.trim parameter.toList) with
        | none =>
            simp only [takeNumber, found]
            refine .notAnInteger fun numeral number padded written => ?_
            rw [(held number).mpr ⟨numeral, padded, written⟩] at found
            cases found
        | some number =>
            simp only [takeNumber, found]
            obtain ⟨numeral, padded, written⟩ := (held number).mp found
            exact .number padded written
      · intro converts
        cases converts with
        | notAnInteger refused =>
            have unread : number? (Text.trim parameter.toList) = none := by
              refine Option.eq_none_iff_forall_ne_some.mpr fun number found => ?_
              obtain ⟨numeral, padded, written⟩ := (held number).mp found
              exact refused numeral number padded written
            simp only [takeNumber, unread]
        | number padded written =>
            simp only [takeNumber, (held _).mpr ⟨_, padded, written⟩]

theorem takeSigned_eq_iff {phrase : Phrase} {result : Except ParameterError Int} :
    phrase.takeSigned.1 = result ↔ Converts Numeral.IsSigned phrase.parameters.head? result :=
  takeNumber_eq_iff (fun _ _ => Numeral.signed?_eq_some_iff) fun _ _ signed => signed.1.isMarked

theorem takeUnsigned_eq_iff {phrase : Phrase} {result : Except ParameterError Nat} :
    phrase.takeUnsigned.1 = result ↔ Converts Numeral.IsUnsigned phrase.parameters.head? result :=
  takeNumber_eq_iff (fun _ _ => Numeral.unsigned?_eq_some_iff_isUnsigned)
    fun _ _ unsigned => unsigned.1.isMarked

theorem answer_left (phrase : Phrase) (call : Call) :
    (phrase.answer call).2 =
      { phrase with parameters := phrase.parameters.drop (call.takes.toNat) } := by
  cases call with
  | verb => rfl
  | signed => exact takeNumber_left _ phrase
  | unsigned => exact takeNumber_left _ phrase
  | finish => rfl
  | hasRemaining => rfl

theorem hasRemaining_drop (verb : String) (parameters : List String) (taken : Nat) :
    hasRemaining { verb, parameters := parameters.drop taken } =
      decide (taken < parameters.length) := by
  rw [Bool.eq_iff_iff, decide_eq_true_iff, hasRemaining, Bool.not_eq_true',
    List.isEmpty_eq_false_iff, ne_eq, List.drop_eq_nil_iff, Nat.not_le]

theorem finish_drop (verb : String) (parameters : List String) (taken : Nat) :
    finish { verb, parameters := parameters.drop taken } =
      if taken < parameters.length then .error .unexpected else .ok () := by
  simp only [finish, hasRemaining_drop, decide_eq_true_eq]

theorem answer_eq_iff {verb : String} {parameters : List String} {taken : Nat} {call : Call}
    {given : Answer} :
    (answer { verb, parameters := parameters.drop taken } call).1 = given ↔
      IsAnswer verb parameters taken call given := by
  have next : (parameters.drop taken).head? = parameters[taken]? := List.head?_drop
  have signed := @takeSigned_eq_iff { verb, parameters := parameters.drop taken }
  have unsigned := @takeUnsigned_eq_iff { verb, parameters := parameters.drop taken }
  simp only [next] at signed unsigned
  constructor
  · rintro rfl
    cases call with
    | verb => exact .verb
    | signed => exact .signed (signed.mp rfl)
    | unsigned => exact .unsigned (unsigned.mp rfl)
    | finish =>
        rw [answer, finish_drop]
        by_cases within : taken < parameters.length
        · rw [if_pos within]
          exact .unfinished within
        · rw [if_neg within]
          exact .finished (Nat.not_lt.mp within)
    | hasRemaining =>
        rw [answer, hasRemaining_drop]
        exact .hasRemaining
  · intro told
    cases told with
    | verb => rfl
    | signed converts => exact congrArg Answer.signed (signed.mpr converts)
    | unsigned converts => exact congrArg Answer.unsigned (unsigned.mpr converts)
    | unfinished within => rw [answer, finish_drop, if_pos within]
    | finished none => rw [answer, finish_drop, if_neg (Nat.not_lt.mpr none)]
    | hasRemaining => rw [answer, hasRemaining_drop]

/-! ### Any calls -/

/-- Only the calls that take a parameter leave their mark. -/
theorem after_eq (phrase : Phrase) (calls : List Call) :
    phrase.after calls =
      { phrase with parameters := phrase.parameters.drop (calls.countP Call.takes) } := by
  induction calls generalizing phrase with
  | nil => rfl
  | cons call calls ih =>
      have counted : (call :: calls).countP Call.takes =
          call.takes.toNat + calls.countP Call.takes := by
        rw [List.countP_cons, Nat.add_comm]
        cases call <;> rfl
      rw [after, List.foldl_cons, ← after, ih, answer_left, List.drop_drop, counted]

theorem answers_getElem? (phrase : Phrase) (calls : List Call) (index : Nat) :
    (phrase.answers calls)[index]? =
      calls[index]?.map fun call => ((phrase.after (calls.take index)).answer call).1 := by
  induction calls generalizing phrase index with
  | nil => rfl
  | cons call calls ih =>
      cases index with
      | zero => rfl
      | succ index => exact ih (phrase.answer call).2 index

theorem answers_eq_iff {phrase : Phrase} {calls : List Call} {index : Nat} {call : Call}
    (asked : calls[index]? = some call) {given : Answer} :
    (phrase.answers calls)[index]? = some given ↔
      IsAnswer phrase.verb phrase.parameters ((calls.take index).countP Call.takes) call given := by
  rw [answers_getElem?, asked, Option.map_some, Option.some.injEq, after_eq]
  exact answer_eq_iff

theorem length_answers (phrase : Phrase) (calls : List Call) :
    (phrase.answers calls).length = calls.length := by
  induction calls generalizing phrase with
  | nil => rfl
  | cons call calls ih => rw [answers, List.length_cons, ih, List.length_cons]

theorem Converts.missing_iff {found : Option String} {result : Except ParameterError Number}
    (converts : Converts writes found result) : result = .error .missing ↔ found = none := by
  cases converts with
  | missing => simp
  | notAnInteger => simp
  | number => simp

theorem IsAnswer.missing_iff {verb : String} {parameters : List String} {taken : Nat} {call : Call}
    {given : Answer} (told : IsAnswer verb parameters taken call given) (takes : call.takes = true) :
    (given = .signed (.error .missing) ∨ given = .unsigned (.error .missing)) ↔
      parameters.length ≤ taken := by
  rw [← List.getElem?_eq_none_iff]
  cases told with
  | signed converts => simp [← converts.missing_iff]
  | unsigned converts => simp [← converts.missing_iff]
  | verb => cases takes
  | unfinished => cases takes
  | finished => cases takes
  | hasRemaining => cases takes

/-! ### The calls on a text -/

theorem length_pieces (text : List Char) : (pieces text).2.length = text.count ':' := by
  induction text with
  | nil => rfl
  | cons character text ih =>
      rw [pieces_cons, extendPieces]
      by_cases colon : character = ':'
      · rw [if_pos colon, colon, List.count_cons_self, List.length_cons, ih]
      · rw [if_neg colon, List.count_cons_of_ne colon, ih]

/-- A text is split into a verb and parameters, and any calls are answered by these: the verb stays, a
call that takes a parameter gets the first not asked for before, whatever became of the others, and
nothing but such calls changes what is left. -/
theorem answers_by_split (text : String) :
    let verb := (ofText text).verb
    let parameters := (ofText text).parameters
    IsSplit text verb parameters ∧ parameters.length = text.toList.count ':' ∧
    ∀ calls : List Call,
      (ofText text).after calls =
        { verb, parameters := parameters.drop (calls.countP Call.takes) } ∧
      ((ofText text).answers calls).length = calls.length ∧
      ∀ index call, calls[index]? = some call →
        let taken := (calls.take index).countP Call.takes
        ∃ given, ((ofText text).answers calls)[index]? = some given ∧
          (∀ other, IsAnswer verb parameters taken call other ↔ other = given) ∧
          (call.takes = true →
            ((given = .signed (.error .missing) ∨ given = .unsigned (.error .missing)) ↔
              parameters.length ≤ taken)) := by
  intro verb parameters
  refine ⟨isSplit_ofText text, ?_, fun calls => ⟨after_eq _ calls, length_answers _ calls, ?_⟩⟩
  · exact (List.length_map _).trans (length_pieces text.toList)
  · intro index call asked taken
    have within : index < ((ofText text).answers calls).length := by
      rw [length_answers]
      exact (List.getElem?_eq_some_iff.mp asked).1
    have found := List.getElem?_eq_getElem within
    have told := (answers_eq_iff asked).mp found
    refine ⟨_, found, fun other => ?_, told.missing_iff⟩
    constructor
    · intro otherTold
      exact Option.some.inj (((answers_eq_iff asked).mpr otherTold).symm.trans found)
    · rintro rfl
      exact told

example : (ofText "delay-ack:x: 2 ").answers [.unsigned, .finish, .unsigned, .finish, .signed] =
    [.unsigned (.error .notAnInteger), .finish (.error .unexpected), .unsigned (.ok 2),
      .finish (.ok ()), .signed (.error .missing)] := by
  rfl

end ScriptedResponder.Phrase
