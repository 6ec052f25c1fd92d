import ScriptedResponder.Event.Envelope
import ScriptedResponder.Proofs.Json.Fields

/-!
The form of an envelope. What a body spells under the names of the fields is all that is read of it,
whatever their order and whatever members stand between them; a field has one content, and a body of
another form is no envelope.
-/

set_option autoImplicit false

namespace ScriptedResponder.Envelope

open Json

/-! ### The form -/

def IsAbsent (fields : List (String × Bytes)) (name : String) : Prop :=
  ∀ spelling, fields.lookup name = some spelling → spelling = Token.null.text

def IsAttribute (fields : List (String × Bytes)) (name text : String) : Prop :=
  ∃ spelling, fields.lookup name = some spelling ∧ IsString text spelling

def HoldsText (fields : List (String × Bytes)) (name : String) : Option String → Prop
  | none => IsAbsent fields name
  | some text => IsAttribute fields name text

def textNames : List String :=
  ["id", "type", "source", "specversion", "datacontenttype", "data_base64"]

def HasFields (fields : List (String × Bytes)) (body : Bytes) : Prop :=
  ∃ before text after, Blanks before ∧ Blanks after ∧ body = before ++ text ++ after ∧
    IsStructure fieldNames fieldNames.length fields text

/-- A body that has the form of an envelope with these fields, whatever they say. -/
structure IsForm (fields : List (String × Bytes)) (body : Bytes) : Prop where
  spelled : HasFields fields body
  texts : ∀ name ∈ textNames, ∃ content, HoldsText fields name content
  encoded : ∀ spelling, fields.lookup "data" = some spelling →
    (Bytes.text? spelling).isSome = true

def HoldsValue (fields : List (String × Bytes)) (name : String) : Option Value → Prop
  | none => IsAbsent fields name
  | some value => value.IsSound ∧ fields.lookup name = some value.text ∧
      value.text ≠ Token.null.text ∧ (Bytes.text? value.text).isSome = true

/-! ### One content for each field -/

theorem not_isString_null (text : String) : ¬ IsString text Token.null.text := by
  rintro ⟨pieces, _, same, _⟩
  cases same

theorem eq_of_isString {text other : String} {spelling : Bytes} (string : IsString text spelling)
    (otherString : IsString other spelling) : text = other := by
  obtain ⟨value, sound, rfl⟩ := exists_value_of_isValue string.isText.1
  have read := (Value.string?_eq_some_iff sound).mpr string
  rw [(Value.string?_eq_some_iff sound).mpr otherString] at read
  exact (Option.some.inj read).symm

variable {fields : List (String × Bytes)} {name : String}

theorem IsAttribute.not_isAbsent {text : String} (given : IsAttribute fields name text) :
    ¬ IsAbsent fields name := by
  obtain ⟨spelling, found, string⟩ := given
  intro absent
  rw [absent spelling found] at string
  exact not_isString_null text string

theorem HoldsText.eq {content other : Option String} (holds : HoldsText fields name content)
    (otherHolds : HoldsText fields name other) : content = other := by
  cases content with
  | none =>
      cases other with
      | none => rfl
      | some text => exact absurd holds (IsAttribute.not_isAbsent otherHolds)
  | some text =>
      cases other with
      | none => exact absurd otherHolds (IsAttribute.not_isAbsent holds)
      | some own =>
          obtain ⟨spelling, found, string⟩ := holds
          obtain ⟨_, same, otherString⟩ := otherHolds
          obtain rfl := Option.some.inj (found.symm.trans same)
          rw [eq_of_isString string otherString]

theorem HoldsText.eq_none {content : Option String} (holds : HoldsText fields name content)
    (absent : IsAbsent fields name) : content = none :=
  holds.eq absent

theorem HoldsText.eq_some {content : Option String} (holds : HoldsText fields name content)
    {text : String} (given : IsAttribute fields name text) : content = some text :=
  holds.eq given

theorem IsAttribute.eq {text other : String} (given : IsAttribute fields name text)
    (otherGiven : IsAttribute fields name other) : text = other := by
  have holds : HoldsText fields name (some text) := given
  exact Option.some.inj (holds.eq_some otherGiven)

theorem HoldsValue.not_isAbsent {value : Value} (holds : HoldsValue fields name (some value)) :
    ¬ IsAbsent fields name :=
  fun absent => holds.2.2.1 (absent _ holds.2.1)

theorem HoldsValue.eq_none {content : Option Value} (holds : HoldsValue fields name content)
    (absent : IsAbsent fields name) : content = none := by
  cases content with
  | none => rfl
  | some value => exact absurd absent holds.not_isAbsent

theorem HoldsText.exists_some {content : Option String} (holds : HoldsText fields name content)
    (present : ¬ IsAbsent fields name) : ∃ text, content = some text := by
  cases content with
  | none => exact absurd holds present
  | some text => exact ⟨text, rfl⟩

theorem HoldsValue.exists_some {content : Option Value} (holds : HoldsValue fields name content)
    (present : ¬ IsAbsent fields name) :
    ∃ value, content = some value ∧ HoldsValue fields name (some value) := by
  cases content with
  | none => exact absurd holds present
  | some value => exact ⟨value, rfl, holds⟩

/-! ### Reading the form -/

/-- Each part of the envelope is what the field of its name holds. -/
structure Reflects (fields : List (String × Bytes)) (envelope : Envelope) : Prop where
  id : HoldsText fields "id" envelope.id
  type : HoldsText fields "type" envelope.type
  source : HoldsText fields "source" envelope.source
  specVersion : HoldsText fields "specversion" envelope.specVersion
  dataContentType : HoldsText fields "datacontenttype" envelope.dataContentType
  data : HoldsValue fields "data" envelope.data
  dataBase64 : HoldsText fields "data_base64" envelope.dataBase64

section

variable {Content : Type} (read : Value → Option Content) {found : Fields}

theorem optional?_eq_some_none_iff
    (same : Option.Rel Value.StandsFor (found.lookup name) (fields.lookup name)) :
    optional? read (found.lookup name) = some none ↔ IsAbsent fields name := by
  constructor
  · intro nothing spelling given
    rw [given] at same
    generalize found.lookup name = value at same nothing
    cases same with
    | @some value _ stands =>
        obtain ⟨sound, rfl⟩ := stands
        by_cases null : value.first = .null
        · exact (Value.first_eq_null_iff sound).mp null
        · simp [optional?, null] at nothing
  · intro absent
    unfold IsAbsent at absent
    generalize found.lookup name = value, fields.lookup name = spelling at same absent ⊢
    cases same with
    | none => rfl
    | some stands =>
        obtain ⟨sound, rfl⟩ := stands
        simp only [optional?, (Value.first_eq_null_iff sound).mpr (absent _ rfl), if_true]

theorem optional?_eq_some_some_iff
    (same : Option.Rel Value.StandsFor (found.lookup name) (fields.lookup name))
    {content : Content} :
    optional? read (found.lookup name) = some (some content) ↔
      ∃ value : Value, value.IsSound ∧ fields.lookup name = some value.text ∧
        value.text ≠ Token.null.text ∧ read value = some content := by
  generalize found.lookup name = value, fields.lookup name = spelling at same ⊢
  cases same with
  | none => simp [optional?]
  | @some value _ stands =>
      obtain ⟨sound, rfl⟩ := stands
      have null := Value.first_eq_null_iff sound
      constructor
      · intro given
        by_cases absent : value.first = .null
        · simp [optional?, absent] at given
        · refine ⟨value, sound, rfl, mt null.mpr absent, ?_⟩
          simpa [optional?, absent] using given
      · rintro ⟨other, otherSound, own, present, given⟩
        obtain rfl := sound.eq_of_text otherSound (Option.some.inj own)
        simp only [optional?, mt null.mp present, if_false, given, Option.map_some]

end

theorem optional?_string?_eq_some_iff {found : Fields}
    (same : Option.Rel Value.StandsFor (found.lookup name) (fields.lookup name))
    {content : Option String} :
    optional? Value.string? (found.lookup name) = some content ↔ HoldsText fields name content := by
  cases content with
  | none => exact optional?_eq_some_none_iff _ same
  | some text =>
      rw [optional?_eq_some_some_iff _ same]
      constructor
      · rintro ⟨value, sound, given, _, read⟩
        exact ⟨value.text, given, (Value.string?_eq_some_iff sound).mp read⟩
      · rintro ⟨spelling, given, string⟩
        obtain ⟨value, sound, rfl⟩ := exists_value_of_isValue string.isText.1
        refine ⟨value, sound, given, ?_, (Value.string?_eq_some_iff sound).mpr string⟩
        intro null
        rw [null] at string
        exact not_isString_null text string

theorem spelled?_eq_some_iff {value other : Value} :
    spelled? value = some other ↔ (Bytes.text? value.text).isSome = true ∧ value = other := by
  rw [spelled?, Option.map_eq_some_iff, exists_and_right]
  simp only [Value.verbatim?_eq_some_iff, exists_and_left, exists_eq', and_true]

theorem optional?_spelled?_eq_some_iff {found : Fields}
    (same : Option.Rel Value.StandsFor (found.lookup name) (fields.lookup name))
    {content : Option Value} :
    optional? spelled? (found.lookup name) = some content ↔ HoldsValue fields name content := by
  cases content with
  | none => exact optional?_eq_some_none_iff _ same
  | some value =>
      rw [optional?_eq_some_some_iff _ same]
      simp only [spelled?_eq_some_iff]
      constructor
      · rintro ⟨_, sound, given, present, text, rfl⟩
        exact ⟨sound, given, present, text⟩
      · rintro ⟨sound, given, present, text⟩
        exact ⟨value, sound, given, present, text, rfl⟩

theorem ofValue?_eq_some_iff {value : Value} {found : Fields} {envelope : Envelope}
    (collected : value.fields? fieldNames fieldNames.length = some found)
    (stand : Fields.StandFor fieldNames found fields) :
    ofValue? value = some envelope ↔ Reflects fields envelope := by
  have texts : ∀ name ∈ fieldNames, ∀ content,
      optional? Value.string? (found.lookup name) = some content ↔ HoldsText fields name content :=
    fun name known content => optional?_string?_eq_some_iff (stand name known)
  have values : ∀ content,
      optional? spelled? (found.lookup "data") = some content ↔ HoldsValue fields "data" content :=
    fun content => optional?_spelled?_eq_some_iff (stand "data" (by decide))
  simp only [ofValue?, collected, Option.bind_eq_bind, Option.bind_some, Option.bind_eq_some_iff,
    texts "id" (by decide), texts "type" (by decide), texts "source" (by decide),
    texts "specversion" (by decide), texts "datacontenttype" (by decide),
    texts "data_base64" (by decide), values, Option.pure_def, Option.some.injEq]
  constructor
  · rintro ⟨_, id, _, type, _, source, _, specVersion, _, contentType, _, data, _, symbols, rfl⟩
    exact ⟨id, type, source, specVersion, contentType, data, symbols⟩
  · rintro ⟨id, type, source, specVersion, contentType, data, symbols⟩
    exact ⟨_, id, _, type, _, source, _, specVersion, _, contentType, _, data, _, symbols, rfl⟩

theorem IsForm.exists_value {body : Bytes} (form : IsForm fields body) :
    ∃ content, HoldsValue fields "data" content := by
  by_cases absent : IsAbsent fields "data"
  · exact ⟨none, absent⟩
  · unfold IsAbsent at absent
    push Not at absent
    obtain ⟨spelling, given, present⟩ := absent
    obtain ⟨_, _, _, _, _, _, structured⟩ := form.spelled
    obtain ⟨_, _, _, _, isValue, _⟩ := structured.exchange given
    obtain ⟨value, sound, rfl⟩ := exists_value_of_isValue isValue
    exact ⟨some value, sound, given, present, form.encoded _ given⟩

theorem Reflects.isForm {envelope : Envelope} (reflects : Reflects fields envelope) {body : Bytes}
    (spelled : HasFields fields body) : IsForm fields body := by
  refine ⟨spelled, ?_, ?_⟩
  · simp only [textNames, List.forall_mem_cons, List.not_mem_nil, false_implies, implies_true,
      and_true]
    exact ⟨⟨_, reflects.id⟩, ⟨_, reflects.type⟩, ⟨_, reflects.source⟩, ⟨_, reflects.specVersion⟩,
      ⟨_, reflects.dataContentType⟩, ⟨_, reflects.dataBase64⟩⟩
  · intro spelling given
    obtain ⟨_, _, _, _, _, data, _⟩ := envelope
    have held := reflects.data
    cases data with
    | none =>
        rw [held spelling given]
        decide
    | some value =>
        obtain ⟨_, same, _, text⟩ := held
        rw [given] at same
        rwa [Option.some.inj same]

theorem isForm_of_ofBody? {body : Bytes} {envelope : Envelope} (read : ofBody? body = some envelope) :
    ∃ fields, IsForm fields body ∧ Reflects fields envelope := by
  obtain ⟨value, valueRead, envelopeRead⟩ := Option.bind_eq_some_iff.mp read
  obtain ⟨sound, before, after, beforeBlanks, afterBlanks, rfl⟩ := value?_eq_some_iff.mp valueRead
  obtain ⟨found, collected, _⟩ := Option.bind_eq_some_iff.mp envelopeRead
  obtain ⟨fields, structured, stand⟩ := Value.fields?_sound sound collected
  have reflects := (ofValue?_eq_some_iff collected stand).mp envelopeRead
  exact ⟨fields, reflects.isForm ⟨before, _, after, beforeBlanks, afterBlanks, rfl, structured⟩, reflects⟩

theorem IsForm.exists_envelope {body : Bytes} (form : IsForm fields body) :
    ∃ envelope, ofBody? body = some envelope ∧ Reflects fields envelope := by
  obtain ⟨data, value⟩ := form.exists_value
  have texts := form.texts
  simp only [textNames, List.forall_mem_cons, List.not_mem_nil, false_implies, implies_true,
    and_true] at texts
  obtain ⟨⟨id, idHeld⟩, ⟨type, typeHeld⟩, ⟨source, sourceHeld⟩, ⟨version, versionHeld⟩,
    ⟨contentType, contentHeld⟩, ⟨symbols, symbolsHeld⟩⟩ := texts
  have reflects : Reflects fields
      { id, type, source, specVersion := version, dataContentType := contentType, data,
        dataBase64 := symbols } :=
    ⟨idHeld, typeHeld, sourceHeld, versionHeld, contentHeld, value, symbolsHeld⟩
  obtain ⟨before, text, after, beforeBlanks, afterBlanks, rfl, structured⟩ := form.spelled
  obtain ⟨own, sound, rfl⟩ := exists_value_of_isValue structured.isValue
  have read : value? (before ++ own.text ++ after) = some own :=
    value?_eq_some_iff.mpr ⟨sound, before, after, beforeBlanks, afterBlanks, rfl⟩
  obtain ⟨found, collected, stand⟩ := Value.fields?_complete sound structured
  refine ⟨_, ?_, reflects⟩
  rw [ofBody?, read, Option.bind_some]
  exact (ofValue?_eq_some_iff collected stand).mpr reflects

end ScriptedResponder.Envelope
