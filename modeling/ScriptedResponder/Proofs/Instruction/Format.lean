import ScriptedResponder.Instruction
import ScriptedResponder.Proofs.Json.Fields

/-!
The format of instruction lists, told by the grammar alone, and that reading a body accepts exactly
it. The reply of any one instruction can be exchanged inside a body; the same instructions are then
read, but for that reply.
-/

set_option autoImplicit false

namespace ScriptedResponder.Instruction

open Json

/-! ### The format -/

def IsTextField (fields : List (String × Bytes)) (name text : String) : Prop :=
  match fields.lookup name with
  | none => text = ""
  | some spelling => IsString text spelling

def IsReplyField (fields : List (String × Bytes)) (reply : Option Bytes) : Prop :=
  reply = (fields.lookup "reply").filter (· ≠ Token.null.text) ∧
    ∀ payload, reply = some payload → (Bytes.text? payload).isSome = true

def IsSpelledBy (instruction : Instruction) (element : Bytes) : Prop :=
  ∃ fields, IsStructure fieldNames 0 fields element ∧
    IsTextField fields "condition" instruction.condition ∧
    IsTextField fields "action" instruction.action ∧ IsReplyField fields instruction.reply

/-- A body that is one list, blanks apart, each of whose elements denotes an instruction. -/
def IsBody (instructions : List Instruction) (body : Bytes) : Prop :=
  ∃ before text after elements, Blanks before ∧ Blanks after ∧ body = before ++ text ++ after ∧
    IsList elements text ∧ List.Forall₂ IsSpelledBy instructions elements

/-! ### One instruction -/

theorem textField?_eq_some_iff {found : Fields} {fields : List (String × Bytes)} {name text : String}
    (same : Option.Rel Value.StandsFor (found.lookup name) (fields.lookup name)) :
    textField? found name = some text ↔ IsTextField fields name text := by
  unfold textField? IsTextField
  generalize found.lookup name = value, fields.lookup name = spelling at same
  cases same with
  | none => simp [eq_comm]
  | some stands =>
      obtain ⟨sound, rfl⟩ := stands
      exact Value.string?_eq_some_iff sound

theorem optional?_verbatim?_eq_some_iff {found : Fields} {fields : List (String × Bytes)}
    {reply : Option Bytes}
    (same : Option.Rel Value.StandsFor (found.lookup "reply") (fields.lookup "reply")) :
    optional? Value.verbatim? (found.lookup "reply") = some reply ↔ IsReplyField fields reply := by
  unfold optional? IsReplyField
  generalize found.lookup "reply" = value, fields.lookup "reply" = spelling at same
  cases same with
  | none =>
      constructor
      · intro same
        obtain rfl := Option.some.inj same
        simp
      · rintro ⟨rfl, _⟩
        rfl
  | @some value _ stands =>
      obtain ⟨sound, rfl⟩ := stands
      simp only [Value.first_eq_null_iff sound, Option.filter_some]
      by_cases null : value.text = Token.null.text
      · simp only [null, if_true, ne_eq, not_true_eq_false, decide_false, Bool.false_eq_true, if_false]
        constructor
        · intro same
          obtain rfl := Option.some.inj same
          simp
        · rintro ⟨rfl, _⟩
          rfl
      · simp only [null, if_false, Option.map_eq_some_iff, Value.verbatim?_eq_some_iff, ne_eq,
          not_false_eq_true, decide_true, if_true]
        constructor
        · rintro ⟨_, ⟨valid, rfl⟩, rfl⟩
          simpa using valid
        · rintro ⟨rfl, valid⟩
          exact ⟨value.text, ⟨valid _ rfl, rfl⟩, rfl⟩

theorem ofValue?_eq_some_iff {value : Value} (sound : value.IsSound) {instruction : Instruction} :
    ofValue? value = some instruction ↔ instruction.IsSpelledBy value.text := by
  simp only [ofValue?, Option.bind_eq_bind, Option.bind_eq_some_iff, Option.pure_def,
    Option.some.injEq]
  constructor
  · rintro ⟨found, read, condition, conditionRead, action, actionRead, reply, replyRead, rfl⟩
    obtain ⟨fields, spelled, stand⟩ := Value.fields?_sound sound read
    exact ⟨fields, spelled, (textField?_eq_some_iff (stand _ (by decide))).mp conditionRead,
      (textField?_eq_some_iff (stand _ (by decide))).mp actionRead,
      (optional?_verbatim?_eq_some_iff (stand _ (by decide))).mp replyRead⟩
  · rintro ⟨fields, spelled, condition, action, reply⟩
    obtain ⟨found, read, stand⟩ := Value.fields?_complete sound spelled
    exact ⟨found, read, _, (textField?_eq_some_iff (stand _ (by decide))).mpr condition,
      _, (textField?_eq_some_iff (stand _ (by decide))).mpr action,
      _, (optional?_verbatim?_eq_some_iff (stand _ (by decide))).mpr reply, rfl⟩

theorem IsSpelledBy.isValue {instruction : Instruction} {element : Bytes}
    (spelled : instruction.IsSpelledBy element) : IsValue element := by
  obtain ⟨_, structured, _⟩ := spelled
  exact structured.isValue

/-! ### The whole body -/

theorem mapM_eq_some_iff {Item Result : Type} {read : Item → Option Result} {items : List Item}
    {results : List Result} :
    items.mapM read = some results ↔
      List.Forall₂ (fun result item => read item = some result) results items := by
  induction items generalizing results with
  | nil => simp [eq_comm]
  | cons item items ih =>
      simp only [List.mapM_cons, Option.bind_eq_bind, Option.bind_eq_some_iff, Option.pure_def,
        Option.some.injEq, List.forall₂_cons_right_iff, ih]
      constructor
      · rintro ⟨result, own, others, rest, rfl⟩
        exact ⟨result, others, own, rest, rfl⟩
      · rintro ⟨result, others, own, rest, rfl⟩
        exact ⟨result, own, others, rest, rfl⟩

theorem read_iff_spelled {elements : List Value} (sound : ∀ element ∈ elements, element.IsSound)
    {instructions : List Instruction} :
    List.Forall₂ (fun instruction element => ofValue? element = some instruction) instructions
        elements ↔
      List.Forall₂ IsSpelledBy instructions (elements.map Value.text) := by
  induction elements generalizing instructions with
  | nil => simp
  | cons element elements ih =>
      obtain ⟨own, others⟩ := List.forall_mem_cons.mp sound
      simp only [List.map_cons, List.forall₂_cons_right_iff, ofValue?_eq_some_iff own, ih others]

theorem list?_eq_some_iff {body : Bytes} {instructions : List Instruction} :
    list? body = some instructions ↔ IsBody instructions body := by
  simp only [list?, Option.bind_eq_bind, Option.bind_eq_some_iff, mapM_eq_some_iff]
  constructor
  · rintro ⟨value, read, elements, split, each⟩
    obtain ⟨sound, before, after, beforeBlanks, afterBlanks, rfl⟩ := value?_eq_some_iff.mp read
    obtain ⟨elementSound, enclosed⟩ := (Value.elements?_eq_some_iff sound).mp split
    exact ⟨before, value.text, after, _, beforeBlanks, afterBlanks, rfl, enclosed,
      (read_iff_spelled elementSound).mp each⟩
  · rintro ⟨before, text, after, elements, beforeBlanks, afterBlanks, rfl, enclosed, spelled⟩
    have values : ∀ element ∈ elements, IsValue element :=
      forall_of_forall₂ spelled (fun _ _ own (_ : True) => own.isValue) fun _ _ => trivial
    obtain ⟨elements, sound, rfl⟩ :=
      exists_map_eq fun element member => exists_value_of_isValue (values element member)
    obtain ⟨value, valueSound, rfl, split⟩ := exists_list_of_isList sound enclosed
    refine ⟨value, ?_, elements, split, (read_iff_spelled sound).mpr spelled⟩
    exact value?_eq_some_iff.mpr ⟨valueSound, before, after, beforeBlanks, afterBlanks, rfl⟩

/-! ### Reading a body -/

theorem isPadding_iff {byte : UInt8} :
    isPadding byte = true ↔ byte ∈ ([0x09, 0x0a, 0x0c, 0x0d, 0x20] : Bytes) := by
  have codes : Bytes.ofAscii ' ' = 0x20 ∧ Bytes.ofAscii '\t' = 0x09 ∧ Bytes.ofAscii '\n' = 0x0a ∧
      Bytes.ofAscii '\r' = 0x0d := by decide
  obtain ⟨space, tab, feed, carriage⟩ := codes
  simp only [isPadding, isBlank, Bool.or_eq_true, decide_eq_true_eq, space, tab, feed, carriage,
    List.mem_cons, List.not_mem_nil, or_false]
  constructor
  · rintro ((((rfl | rfl) | rfl) | rfl) | rfl) <;> simp
  · rintro (rfl | rfl | rfl | rfl | rfl) <;> simp

theorem isPadding_of_isBlank {byte : UInt8} (blank : isBlank byte = true) :
    isPadding byte = true := by
  rw [isPadding, blank, Bool.true_or]

theorem IsBody.find? {instructions : List Instruction} {body : Bytes}
    (spelled : IsBody instructions body) :
    (body.find? fun byte => !isPadding byte) = some (Bytes.ofAscii '[') := by
  obtain ⟨before, text, after, elements, beforeBlanks, _, rfl, enclosed, _⟩ := spelled
  have nothing : (before.find? fun byte => !isPadding byte) = none := by
    refine List.find?_eq_none.mpr fun byte member => ?_
    simp [isPadding_of_isBlank (beforeBlanks byte member)]
  obtain ⟨rest, rfl⟩ : ∃ rest, text = Bytes.ofAscii '[' :: rest := by
    cases enclosed with
    | empty blanks => exact ⟨_, rfl⟩
    | filled separated => exact ⟨_, rfl⟩
  rw [List.append_assoc, List.find?_append, nothing, Option.none_or, List.cons_append,
    List.find?_cons_of_pos (by decide)]

theorem IsBody.ofBody {instructions : List Instruction} {body : Bytes}
    (spelled : IsBody instructions body) : ofBody body = .ok instructions := by
  simp only [Instruction.ofBody, spelled.find?, if_true, list?_eq_some_iff.mpr spelled]

theorem ofBody_eq_ok_cases {instructions : List Instruction} {body : Bytes}
    (read : ofBody body = .ok instructions) :
    ((∀ byte ∈ body, isPadding byte = true) ∧ instructions = []) ∨ IsBody instructions body := by
  unfold ofBody at read
  split at read
  case h_1 nothing =>
    refine Or.inl ⟨?_, (Except.ok.inj read).symm⟩
    simpa using List.find?_eq_none.mp nothing
  case h_2 =>
    split at read
    case isFalse => cases read
    case isTrue =>
      split at read
      case h_1 => cases read
      case h_2 found listed =>
        obtain rfl := Except.ok.inj read
        exact Or.inr (list?_eq_some_iff.mp listed)

/-- Reading a body accepts exactly two forms: one of nothing but ASCII blanks, which is the empty
list, and the list of the format. -/
theorem ofBody_eq_ok_iff {instructions : List Instruction} {body : Bytes} :
    ofBody body = .ok instructions ↔
      ((∀ byte ∈ body, byte ∈ ([0x09, 0x0a, 0x0c, 0x0d, 0x20] : Bytes)) ∧ instructions = []) ∨
        IsBody instructions body := by
  simp only [← isPadding_iff]
  constructor
  · exact ofBody_eq_ok_cases
  · rintro (⟨blank, rfl⟩ | spelled)
    · have nothing : (body.find? fun byte => !isPadding byte) = none :=
        List.find?_eq_none.mpr fun byte member => by simp [blank byte member]
      simp only [ofBody, nothing]
    · exact spelled.ofBody

/-! ### Exchanging one reply -/

theorem forall₂_exchange {Item Other : Type} {Related : Item → Other → Prop}
    {earlier later : List Item} {item : Item} {others : List Other}
    (related : List.Forall₂ Related (earlier ++ item :: later) others) :
    ∃ before own after, others = before ++ own :: after ∧ Related item own ∧
      ∀ newItem newOwn, Related newItem newOwn →
        List.Forall₂ Related (earlier ++ newItem :: later) (before ++ newOwn :: after) := by
  induction earlier generalizing others with
  | nil =>
      obtain ⟨own, after, itself, rest, rfl⟩ := List.forall₂_cons_left_iff.mp related
      exact ⟨[], own, after, rfl, itself, fun _ _ new => .cons new rest⟩
  | cons first earlier ih =>
      obtain ⟨own, after, itself, rest, rfl⟩ := List.forall₂_cons_left_iff.mp related
      obtain ⟨before, middle, after, rfl, found, exchanged⟩ := ih rest
      exact ⟨own :: before, middle, after, rfl, found,
        fun newItem newOwn new => .cons itself (exchanged newItem newOwn new)⟩

theorem IsSpelledBy.exchange {instruction : Instruction} {element payload : Bytes}
    (spelled : instruction.IsSpelledBy element) (replies : instruction.reply = some payload) :
    ∃ front back, element = front ++ payload ++ back ∧ IsText payload ∧
      payload ≠ Token.null.text ∧
      ∀ other, IsText other → other ≠ Token.null.text →
        ({ instruction with reply := some other } : Instruction).IsSpelledBy
          (front ++ other ++ back) := by
  obtain ⟨fields, structured, condition, action, reply, valid⟩ := spelled
  have whole := valid payload replies
  rw [replies, eq_comm, Option.filter_eq_some_iff] at reply
  obtain ⟨given, present⟩ := reply
  obtain ⟨front, back, _, rfl, value, exchanged⟩ := structured.exchange given
  refine ⟨front, back, rfl, ⟨value, whole⟩, by simpa using present, ?_⟩
  intro other ⟨otherValue, otherWhole⟩ otherPresent
  obtain ⟨others, otherStructured, found, unrelated⟩ := exchanged other otherValue
  refine ⟨others, otherStructured, ?_, ?_, ?_, ?_⟩
  · simpa only [IsTextField, unrelated "condition" (by decide)] using condition
  · simpa only [IsTextField, unrelated "action" (by decide)] using action
  · simp [found, Option.filter_some, otherPresent]
  · simpa using otherWhole

/-- The text in front of the reply is never empty, since it has the opening bracket. -/
theorem IsBody.exchange {earlier later : List Instruction} {instruction : Instruction}
    {body payload : Bytes} (spelled : IsBody (earlier ++ instruction :: later) body)
    (replies : instruction.reply = some payload) :
    ∃ front back, front ≠ [] ∧ body = front ++ payload ++ back ∧ IsText payload ∧
      payload ≠ Token.null.text ∧
      ∀ other, IsText other → other ≠ Token.null.text →
        IsBody (earlier ++ { instruction with reply := some other } :: later)
          (front ++ other ++ back) := by
  obtain ⟨before, text, after, elements, beforeBlanks, afterBlanks, rfl, enclosed, each⟩ := spelled
  obtain ⟨firsts, element, lasts, rfl, own, exchangedEach⟩ := forall₂_exchange each
  obtain ⟨left, right, rfl, text, present, exchangedElement⟩ := own.exchange replies
  obtain ⟨front, whole, back, nonempty, rfl, padded, exchangedList⟩ := enclosed.exchange
  obtain ⟨padding, morePadding, rfl, exchangedPadding⟩ := padded.exchange
  refine ⟨before ++ front ++ padding ++ left, right ++ morePadding ++ back ++ after,
    by simp [nonempty], by simp, text, present, ?_⟩
  intro other otherText otherPresent
  have spelling := exchangedElement other otherText otherPresent
  refine ⟨before, _, after, _, beforeBlanks, afterBlanks, ?_,
    exchangedList _ _ (exchangedPadding _), exchangedEach _ _ spelling⟩
  simp

end ScriptedResponder.Instruction
