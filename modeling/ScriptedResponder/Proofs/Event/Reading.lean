import ScriptedResponder.Proofs.Event.Base64
import ScriptedResponder.Proofs.Event.Envelope

/-!
Which bodies are events in structured form. A body has the form of an envelope or it has not; where
it has, the fields that it spells decide, and of several defects the first in a fixed order is
reported. The order of the fields does not matter, nor do members of other names. The data of an
event is shorter than any envelope of it.
-/

set_option autoImplicit false

namespace ScriptedResponder.Envelope

open Json

/-! ### The verdict -/

/-- The data that the two data fields give, or why they give none. A string literal is passed on as
it was spelled only where the content type has `json` in it or there is none. -/
inductive DataVerdict (fields : List (String × Bytes)) : Except EventError Bytes → Prop
  | twice (value : ¬ IsAbsent fields "data") (symbols : ¬ IsAbsent fields "data_base64") :
      DataVerdict fields (.error (.invalidStructured .dataTwice))
  | notBase64 {symbols : String} (absent : IsAbsent fields "data")
      (given : IsAttribute fields "data_base64" symbols)
      (refused : ∀ octets, Bytes.ofText symbols ≠ Base64.encode octets) :
      DataVerdict fields (.error (.invalidStructured .invalidBase64))
  | base64 {symbols : String} {octets : Bytes} (absent : IsAbsent fields "data")
      (given : IsAttribute fields "data_base64" symbols)
      (encoded : Bytes.ofText symbols = Base64.encode octets) : DataVerdict fields (.ok octets)
  | literal {contentType content : String} (given : IsAttribute fields "data" content)
      (absent : IsAbsent fields "data_base64")
      (typed : IsAttribute fields "datacontenttype" contentType)
      (other : ¬ "json".toList <:+: contentType.toList) :
      DataVerdict fields (.ok (Bytes.ofText content))
  | verbatim {spelling : Bytes} (given : fields.lookup "data" = some spelling)
      (present : spelling ≠ Token.null.text) (absent : IsAbsent fields "data_base64")
      (kept : ∀ contentType content, IsAttribute fields "datacontenttype" contentType →
        IsString content spelling → "json".toList <:+: contentType.toList) :
      DataVerdict fields (.ok spelling)
  | empty (absent : IsAbsent fields "data") (symbolsAbsent : IsAbsent fields "data_base64") :
      DataVerdict fields (.ok [])

def IsUnfilled (fields : List (String × Bytes)) (name : String) : Prop :=
  IsAbsent fields name ∨ IsAttribute fields name ""

/-- The event that the fields of an envelope give, or the first of their defects. -/
inductive Verdict (fields : List (String × Bytes)) : Except EventError Event → Prop
  | unversioned (absent : IsAbsent fields "specversion") :
      Verdict fields (.error (.missingAttribute "specversion"))
  | otherVersion {version : String} (given : IsAttribute fields "specversion" version)
      (other : version ≠ "1.0") : Verdict fields (.error (.unsupportedSpecVersion version))
  | undelivered {defect : EventError} (version : IsAttribute fields "specversion" "1.0")
      (data : DataVerdict fields (.error defect)) : Verdict fields (.error defect)
  | unnamed {octets : Bytes} {earlier later : List String} {name : String}
      (version : IsAttribute fields "specversion" "1.0") (data : DataVerdict fields (.ok octets))
      (names : ["id", "type", "source"] = earlier ++ name :: later)
      (filled : ∀ other ∈ earlier, ¬ IsUnfilled fields other) (unfilled : IsUnfilled fields name) :
      Verdict fields (.error (.missingAttribute name))
  | whole {event : Event} (version : IsAttribute fields "specversion" "1.0")
      (spoken : event.specVersion = "1.0") (data : DataVerdict fields (.ok event.data))
      (named : ∀ field ∈ [("id", event.id), ("type", event.type), ("source", event.source)],
        IsAttribute fields field.1 field.2 ∧ field.2 ≠ "")
      (typed : HoldsText fields "datacontenttype" event.dataContentType) :
      Verdict fields (.ok event)

/-! ### Judging the data -/

variable {fields : List (String × Bytes)} {name : String} {envelope : Envelope}

theorem occursIn_iff_infix {part text : List Char} :
    occursIn part text = true ↔ part <:+: text := by
  induction text with
  | nil => simp [occursIn]
  | cons character rest ih =>
      rw [occursIn, Bool.or_eq_true, List.isPrefixOf_iff_prefix, ih, List.infix_cons_iff]

theorem holdsJson_some_iff {contentType : String} :
    holdsJson (some contentType) = true ↔ "json".toList <:+: contentType.toList :=
  occursIn_iff_infix

theorem holdsJson_eq_false_iff {contentType : Option String}
    (typed : HoldsText fields "datacontenttype" contentType) :
    holdsJson contentType = false ↔
      ∃ text, IsAttribute fields "datacontenttype" text ∧ ¬ "json".toList <:+: text.toList := by
  rw [← Bool.not_eq_true]
  cases contentType with
  | none =>
      refine iff_of_false (not_not_intro rfl) ?_
      rintro ⟨text, given, _⟩
      exact given.not_isAbsent typed
  | some text =>
      rw [holdsJson_some_iff]
      constructor
      · intro other
        exact ⟨text, typed, other⟩
      · rintro ⟨own, given, other⟩
        obtain rfl := given.eq typed
        exact other

theorem dataVerdict_dataOctets {contentType : Option String} {value : Value}
    (typed : HoldsText fields "datacontenttype" contentType)
    (held : HoldsValue fields "data" (some value)) (absent : IsAbsent fields "data_base64") :
    DataVerdict fields (.ok (dataOctets contentType value)) := by
  obtain ⟨sound, given, present, _⟩ := held
  unfold dataOctets
  cases json : holdsJson contentType with
  | true =>
      refine .verbatim given present absent ?_
      intro own content ownTyped _
      by_contra other
      have otherwise := (holdsJson_eq_false_iff typed).mpr ⟨own, ownTyped, other⟩
      rw [json] at otherwise
      cases otherwise
  | false =>
      rw [if_neg Bool.false_ne_true]
      cases read : value.string? with
      | none =>
          refine .verbatim given present absent ?_
          intro _ content _ string
          rw [(Value.string?_eq_some_iff sound).mpr string] at read
          cases read
      | some content =>
          obtain ⟨own, ownTyped, other⟩ := (holdsJson_eq_false_iff typed).mp json
          have string := (Value.string?_eq_some_iff sound).mp read
          exact .literal ⟨_, given, string⟩ absent ownTyped other

theorem Reflects.dataVerdict (reflects : Reflects fields envelope) :
    DataVerdict fields envelope.dataOf := by
  obtain ⟨_, _, _, _, contentType, data, encoded⟩ := envelope
  obtain ⟨_, _, _, _, typed, held, symbolsHeld⟩ := reflects
  unfold dataOf
  cases data with
  | none =>
      cases encoded with
      | none => exact .empty held symbolsHeld
      | some symbols =>
          cases read : Base64.decode? (Bytes.ofText symbols) with
          | none =>
              simp only [read]
              refine .notBase64 held symbolsHeld ?_
              intro octets same
              rw [Base64.decode?_eq_some_iff.mpr same] at read
              cases read
          | some octets =>
              simp only [read]
              exact .base64 held symbolsHeld (Base64.decode?_eq_some_iff.mp read)
  | some value =>
      cases encoded with
      | none => exact dataVerdict_dataOctets typed held symbolsHeld
      | some symbols => exact .twice held.not_isAbsent (IsAttribute.not_isAbsent symbolsHeld)

theorem dataOctets_of_kept {contentType : Option String} {value : Value} (sound : value.IsSound)
    (typed : HoldsText fields "datacontenttype" contentType)
    (kept : ∀ contentType content, IsAttribute fields "datacontenttype" contentType →
      IsString content value.text → "json".toList <:+: contentType.toList) :
    dataOctets contentType value = value.text := by
  unfold dataOctets
  cases json : holdsJson contentType with
  | true => rfl
  | false =>
      obtain ⟨own, ownTyped, other⟩ := (holdsJson_eq_false_iff typed).mp json
      have unread : value.string? = none := by
        refine Option.eq_none_iff_forall_ne_some.mpr fun content read => ?_
        exact other (kept own content ownTyped ((Value.string?_eq_some_iff sound).mp read))
      rw [if_neg Bool.false_ne_true, unread]

theorem Reflects.dataOf_eq (reflects : Reflects fields envelope) {result : Except EventError Bytes}
    (verdict : DataVerdict fields result) : envelope.dataOf = result := by
  cases verdict with
  | twice value symbols =>
      obtain ⟨_, data, _⟩ := reflects.data.exists_some value
      obtain ⟨_, encoded⟩ := reflects.dataBase64.exists_some symbols
      simp only [dataOf, data, encoded]
  | notBase64 absent given refused =>
      have data := reflects.data.eq_none absent
      have encoded := reflects.dataBase64.eq_some given
      have unread := Option.eq_none_iff_forall_ne_some.mpr fun octets read =>
        refused octets (Base64.decode?_eq_some_iff.mp read)
      simp only [dataOf, data, encoded, unread]
  | base64 absent given written =>
      have data := reflects.data.eq_none absent
      have encoded := reflects.dataBase64.eq_some given
      simp only [dataOf, data, encoded, Base64.decode?_eq_some_iff.mpr written]
  | literal given absent typed other =>
      obtain ⟨value, data, sound, own, _⟩ := reflects.data.exists_some given.not_isAbsent
      have encoded := reflects.dataBase64.eq_none absent
      obtain ⟨spelling, found, string⟩ := given
      obtain rfl := Option.some.inj (found.symm.trans own)
      have plain := (holdsJson_eq_false_iff reflects.dataContentType).mpr ⟨_, typed, other⟩
      simp only [dataOf, data, encoded, dataOctets, plain, Bool.false_eq_true, if_false,
        (Value.string?_eq_some_iff sound).mpr string]
  | verbatim given present absent kept =>
      obtain ⟨value, data, sound, own, _⟩ :=
        reflects.data.exists_some fun missing => present (missing _ given)
      have encoded := reflects.dataBase64.eq_none absent
      obtain rfl := Option.some.inj (given.symm.trans own)
      simp only [dataOf, data, encoded, dataOctets_of_kept sound reflects.dataContentType kept]
  | empty absent symbolsAbsent =>
      have data := reflects.data.eq_none absent
      have encoded := reflects.dataBase64.eq_none symbolsAbsent
      simp only [dataOf, data, encoded]

theorem Reflects.dataOf_eq_iff (reflects : Reflects fields envelope)
    {result : Except EventError Bytes} :
    envelope.dataOf = result ↔ DataVerdict fields result := by
  constructor
  · rintro rfl
    exact reflects.dataVerdict
  · exact reflects.dataOf_eq

/-! ### Judging the whole -/

theorem HoldsText.required_eq_ok_iff {content : Option String}
    (holds : HoldsText fields name content) {text : String} :
    required name content = .ok text ↔ IsAttribute fields name text ∧ text ≠ "" := by
  constructor
  · intro given
    cases content with
    | none => cases given
    | some own =>
        by_cases empty : own = ""
        · simp [required, empty] at given
        · obtain rfl : own = text := by simpa [required, empty] using given
          exact ⟨holds, empty⟩
  · rintro ⟨given, filled⟩
    obtain rfl := holds.eq_some given
    exact if_neg filled

theorem HoldsText.required_eq_error_iff {content : Option String}
    (holds : HoldsText fields name content) {defect : EventError} :
    required name content = .error defect ↔
      IsUnfilled fields name ∧ defect = .missingAttribute name := by
  constructor
  · intro refused
    cases content with
    | none => exact ⟨.inl holds, (Except.error.inj refused).symm⟩
    | some own =>
        by_cases empty : own = ""
        · subst empty
          exact ⟨.inr holds, (Except.error.inj refused).symm⟩
        · simp [required, empty] at refused
  · rintro ⟨absent | empty, rfl⟩
    · obtain rfl := holds.eq_none absent
      rfl
    · obtain rfl := holds.eq_some empty
      rfl

theorem HoldsText.not_isUnfilled_iff {content : Option String}
    (holds : HoldsText fields name content) :
    ¬ IsUnfilled fields name ↔ ∃ text, required name content = .ok text := by
  cases given : required name content with
  | error defect =>
      have unfilled := (holds.required_eq_error_iff.mp given).1
      simp [unfilled]
  | ok text =>
      have filled : ¬ IsUnfilled fields name := fun unfilled => by
        rw [holds.required_eq_error_iff.mpr ⟨unfilled, rfl⟩] at given
        cases given
      simp [filled]

theorem toEvent_of_defect {defect : EventError} (version : envelope.specVersion = some "1.0")
    (data : envelope.dataOf = .error defect) : envelope.toEvent = .error defect := by
  have checked : Event.checkVersion "1.0" = .ok () := rfl
  simp only [toEvent, version, checked, data, bind, Except.bind]

/-- Once the version and the data are settled, the names decide. -/
theorem toEvent_of_data {octets : Bytes} (version : envelope.specVersion = some "1.0")
    (data : envelope.dataOf = .ok octets) :
    envelope.toEvent =
      required "id" envelope.id >>= fun id =>
        required "type" envelope.type >>= fun type =>
          required "source" envelope.source >>= fun source =>
            .ok { id, type, source, specVersion := "1.0",
                  dataContentType := envelope.dataContentType, data := octets } := by
  have checked : Event.checkVersion "1.0" = .ok () := rfl
  simp only [toEvent, version, checked, data, bind, Except.bind]
  rfl

theorem Reflects.verdict_of_data (reflects : Reflects fields envelope) {octets : Bytes}
    (version : envelope.specVersion = some "1.0") (judged : envelope.dataOf = .ok octets) :
    Verdict fields envelope.toEvent := by
  have spoken : IsAttribute fields "specversion" "1.0" := by
    have held := reflects.specVersion
    rwa [version] at held
  have data := reflects.dataOf_eq_iff.mp judged
  rw [toEvent_of_data version judged]
  cases id : required "id" envelope.id with
  | error defect =>
      obtain ⟨unfilled, rfl⟩ := reflects.id.required_eq_error_iff.mp id
      have names : ["id", "type", "source"] = [] ++ "id" :: ["type", "source"] := rfl
      exact .unnamed spoken data names (by simp) unfilled
  | ok idText =>
      have idFilled := reflects.id.not_isUnfilled_iff.mpr ⟨_, id⟩
      cases type : required "type" envelope.type with
      | error defect =>
          obtain ⟨unfilled, rfl⟩ := reflects.type.required_eq_error_iff.mp type
          have names : ["id", "type", "source"] = ["id"] ++ "type" :: ["source"] := rfl
          exact .unnamed spoken data names (by simp [idFilled]) unfilled
      | ok typeText =>
          have typeFilled := reflects.type.not_isUnfilled_iff.mpr ⟨_, type⟩
          cases source : required "source" envelope.source with
          | error defect =>
              obtain ⟨unfilled, rfl⟩ := reflects.source.required_eq_error_iff.mp source
              have names : ["id", "type", "source"] = ["id", "type"] ++ "source" :: [] := rfl
              exact .unnamed spoken data names (by simp [idFilled, typeFilled]) unfilled
          | ok sourceText =>
              refine .whole spoken rfl data ?_ reflects.dataContentType
              simp only [List.forall_mem_cons, List.not_mem_nil, false_implies, implies_true,
                and_true]
              exact ⟨reflects.id.required_eq_ok_iff.mp id, reflects.type.required_eq_ok_iff.mp type,
                reflects.source.required_eq_ok_iff.mp source⟩

theorem Reflects.verdict (reflects : Reflects fields envelope) : Verdict fields envelope.toEvent := by
  have spoken := reflects.specVersion
  cases version : envelope.specVersion with
  | none =>
      rw [version] at spoken
      simp only [toEvent, version]
      exact .unversioned spoken
  | some own =>
      rw [version] at spoken
      by_cases supported : own = "1.0"
      · subst supported
        cases judged : envelope.dataOf with
        | error defect =>
            rw [toEvent_of_defect version judged]
            exact .undelivered spoken (reflects.dataOf_eq_iff.mp judged)
        | ok octets => exact reflects.verdict_of_data version judged
      · have refused : Event.checkVersion own = .error (.unsupportedSpecVersion own) :=
          if_neg supported
        simp only [toEvent, version, refused, bind, Except.bind]
        exact .otherVersion spoken supported

theorem split_names {earlier later : List String}
    (names : ["id", "type", "source"] = earlier ++ name :: later) :
    (earlier = [] ∧ name = "id") ∨ (earlier = ["id"] ∧ name = "type") ∨
      (earlier = ["id", "type"] ∧ name = "source") := by
  match earlier with
  | [] => simp_all
  | [_] => simp_all
  | [_, _] => simp_all
  | _ :: _ :: _ :: _ => simp at names

theorem Reflects.toEvent_of_unnamed (reflects : Reflects fields envelope) {octets : Bytes}
    {earlier later : List String} (version : envelope.specVersion = some "1.0")
    (data : envelope.dataOf = .ok octets)
    (names : ["id", "type", "source"] = earlier ++ name :: later)
    (filled : ∀ other ∈ earlier, ¬ IsUnfilled fields other) (unfilled : IsUnfilled fields name) :
    envelope.toEvent = .error (.missingAttribute name) := by
  rw [toEvent_of_data version data]
  obtain ⟨rfl, rfl⟩ | ⟨rfl, rfl⟩ | ⟨rfl, rfl⟩ := split_names names
  · rw [reflects.id.required_eq_error_iff.mpr ⟨unfilled, rfl⟩]
    rfl
  · obtain ⟨_, id⟩ := reflects.id.not_isUnfilled_iff.mp (filled _ (by simp))
    rw [id, reflects.type.required_eq_error_iff.mpr ⟨unfilled, rfl⟩]
    rfl
  · obtain ⟨_, id⟩ := reflects.id.not_isUnfilled_iff.mp (filled _ (by simp))
    obtain ⟨_, type⟩ := reflects.type.not_isUnfilled_iff.mp (filled _ (by simp))
    rw [id, type, reflects.source.required_eq_error_iff.mpr ⟨unfilled, rfl⟩]
    rfl

theorem Reflects.toEvent_eq (reflects : Reflects fields envelope)
    {result : Except EventError Event} (verdict : Verdict fields result) : envelope.toEvent = result := by
  have spoken : ∀ {own}, IsAttribute fields "specversion" own → envelope.specVersion = some own :=
    fun given => reflects.specVersion.eq_some given
  cases verdict with
  | unversioned absent =>
      have version := reflects.specVersion.eq_none absent
      simp only [toEvent, version]
      rfl
  | @otherVersion own given other =>
      have refused : Event.checkVersion own = .error (.unsupportedSpecVersion own) := if_neg other
      simp only [toEvent, spoken given, refused, bind, Except.bind]
  | undelivered version data =>
      exact toEvent_of_defect (spoken version) (reflects.dataOf_eq data)
  | unnamed version data names filled unfilled =>
      exact reflects.toEvent_of_unnamed (spoken version) (reflects.dataOf_eq data) names filled
        unfilled
  | @whole event version own data named typed =>
      simp only [List.forall_mem_cons, List.not_mem_nil, false_implies, implies_true, and_true]
        at named
      obtain ⟨id, type, source⟩ := named
      rw [toEvent_of_data (spoken version) (reflects.dataOf_eq data),
        reflects.id.required_eq_ok_iff.mpr id, reflects.type.required_eq_ok_iff.mpr type,
        reflects.source.required_eq_ok_iff.mpr source, reflects.dataContentType.eq typed, ← own]
      rfl

theorem Reflects.toEvent_eq_iff (reflects : Reflects fields envelope)
    {result : Except EventError Event} :
    envelope.toEvent = result ↔ Verdict fields result := by
  constructor
  · rintro rfl
    exact reflects.verdict
  · exact reflects.toEvent_eq

theorem ofStructured_eq_iff_verdict {body : Bytes} (form : IsForm fields body)
    {result : Except EventError Event} :
    Event.ofStructured body = result ↔ Verdict fields result := by
  obtain ⟨envelope, read, reflects⟩ := form.exists_envelope
  rw [Event.ofStructured, read]
  exact reflects.toEvent_eq_iff

theorem ofStructured_of_not_isForm {body : Bytes} (unformed : ∀ fields, ¬ IsForm fields body) :
    Event.ofStructured body = .error (.invalidStructured .malformed) := by
  cases read : ofBody? body with
  | none => rw [Event.ofStructured, read]
  | some envelope =>
      obtain ⟨fields, form, _⟩ := isForm_of_ofBody? read
      exact absurd form (unformed fields)

/-- What a body is read as: the verdict on its fields if it has the form of an envelope, and a
malformed envelope if it has not. -/
theorem ofStructured_by_form (body : Bytes) (result : Except EventError Event) :
    Event.ofStructured body = result ↔
      (∃ fields, IsForm fields body ∧ Verdict fields result) ∨
        (∀ fields, ¬ IsForm fields body) ∧ result = .error (.invalidStructured .malformed) := by
  constructor
  · rintro rfl
    by_cases formed : ∃ fields, IsForm fields body
    · obtain ⟨fields, form⟩ := formed
      exact .inl ⟨fields, form, (ofStructured_eq_iff_verdict form).mp rfl⟩
    · have unformed := not_exists.mp formed
      exact .inr ⟨unformed, ofStructured_of_not_isForm unformed⟩
  · rintro (⟨fields, form, verdict⟩ | ⟨unformed, rfl⟩)
    · exact (ofStructured_eq_iff_verdict form).mpr verdict
    · exact ofStructured_of_not_isForm unformed

example : Event.ofStructured (Bytes.ofText "[\"\",\"note\",\"/\",\"1.0\",null,null,\"aGl=\"]") =
    .error (.invalidStructured .invalidBase64) := by
  decide +kernel

/-! ### Spellings of an event -/

/-- The data of an event in the fields of its envelope. A text that is JSON travels as it is where
the content type has `json` in it, and any text as a string literal where it has not. -/
inductive CarriesData (fields : List (String × Bytes)) (contentType : String) : Bytes → Prop
  | base64 {data : Bytes} {symbols : String} (given : IsAttribute fields "data_base64" symbols)
      (encoded : Bytes.ofText symbols = Base64.encode data) (absent : IsAbsent fields "data") :
      CarriesData fields contentType data
  | verbatim {data : Bytes} (json : "json".toList <:+: contentType.toList) (text : IsText data)
      (present : data ≠ Token.null.text) (given : fields.lookup "data" = some data)
      (absent : IsAbsent fields "data_base64") : CarriesData fields contentType data
  | literal {content : String} (other : ¬ "json".toList <:+: contentType.toList)
      (given : IsAttribute fields "data" content) (absent : IsAbsent fields "data_base64") :
      CarriesData fields contentType (Bytes.ofText content)

def IsSpelledBy (event : Event) (contentType : String) (body : Bytes) : Prop :=
  ∃ before text after fields, Blanks before ∧ Blanks after ∧ body = before ++ text ++ after ∧
    IsStructure fieldNames fieldNames.length fields text ∧
    (∀ field ∈ [("id", event.id), ("type", event.type), ("source", event.source),
      ("specversion", event.specVersion), ("datacontenttype", contentType)],
      IsAttribute fields field.1 field.2) ∧
    CarriesData fields contentType event.data

theorem CarriesData.dataVerdict {contentType : String} {data : Bytes}
    (carried : CarriesData fields contentType data)
    (typed : IsAttribute fields "datacontenttype" contentType) :
    DataVerdict fields (.ok data) := by
  cases carried with
  | base64 given encoded absent => exact .base64 absent given encoded
  | verbatim json _ present given absent =>
      refine .verbatim given present absent ?_
      intro own _ ownTyped _
      obtain rfl := ownTyped.eq typed
      exact json
  | literal other given absent => exact .literal given absent typed other

theorem CarriesData.isText {contentType : String} {data : Bytes}
    (carried : CarriesData fields contentType data) {spelling : Bytes}
    (given : fields.lookup "data" = some spelling) : (Bytes.text? spelling).isSome = true := by
  cases carried with
  | base64 _ _ absent =>
      rw [absent spelling given]
      decide
  | verbatim _ text _ own _ =>
      obtain rfl := Option.some.inj (own.symm.trans given)
      exact text.2
  | literal _ own _ =>
      obtain ⟨_, found, string⟩ := own
      obtain rfl := Option.some.inj (found.symm.trans given)
      exact string.isText.2

theorem CarriesData.exists_holdsText {contentType : String} {data : Bytes}
    (carried : CarriesData fields contentType data) :
    ∃ content, HoldsText fields "data_base64" content := by
  cases carried with
  | base64 given _ _ => exact ⟨some _, given⟩
  | verbatim _ _ _ _ absent => exact ⟨none, absent⟩
  | literal _ _ absent => exact ⟨none, absent⟩

theorem ofStructured_of_isSpelledBy {event : Event} {contentType : String} {body : Bytes}
    (version : event.specVersion = Event.supportedVersion)
    (typed : event.dataContentType = some contentType)
    (named : ∀ text ∈ [event.id, event.type, event.source], text ≠ "")
    (spelled : IsSpelledBy event contentType body) : Event.ofStructured body = .ok event := by
  obtain ⟨before, text, after, fields, beforeBlanks, afterBlanks, same, structured, attributes,
    carried⟩ := spelled
  simp only [List.forall_mem_cons, List.not_mem_nil, false_implies, implies_true, and_true]
    at attributes named
  obtain ⟨id, type, source, spoken, content⟩ := attributes
  have form : IsForm fields body := by
    refine ⟨⟨before, text, after, beforeBlanks, afterBlanks, same, structured⟩, ?_,
      fun _ => carried.isText⟩
    simp only [textNames, List.forall_mem_cons, List.not_mem_nil, false_implies, implies_true,
      and_true]
    exact ⟨⟨some _, id⟩, ⟨some _, type⟩, ⟨some _, source⟩, ⟨some _, spoken⟩, ⟨some _, content⟩,
      carried.exists_holdsText⟩
  have supported : event.specVersion = "1.0" := version
  rw [supported] at spoken
  refine (ofStructured_eq_iff_verdict form).mpr
    (.whole spoken supported (carried.dataVerdict content) ?_ ?_)
  · simp only [List.forall_mem_cons, List.not_mem_nil, false_implies, implies_true, and_true]
    exact ⟨⟨id, named.1⟩, ⟨type, named.2.1⟩, ⟨source, named.2.2⟩⟩
  · rw [typed]
    exact content

/-! ### The size of the data -/

theorem IsForm.length_pos {body : Bytes} (form : IsForm fields body) : 0 < body.length := by
  obtain ⟨before, text, after, _, _, rfl, structured⟩ := form.spelled
  obtain ⟨⟨first, rest, rfl, _⟩, _⟩ := structured.isValue.unpadded
  simp only [List.length_append, List.length_cons]
  omega

theorem IsForm.length_lt {body : Bytes} (form : IsForm fields body) {spelling : Bytes}
    (given : fields.lookup name = some spelling) : spelling.length < body.length := by
  obtain ⟨before, text, after, _, _, rfl, structured⟩ := form.spelled
  obtain ⟨front, back, present, rfl, _⟩ := structured.exchange given
  have opened := List.length_pos_iff.mpr present
  simp only [List.length_append]
  omega

theorem IsForm.length_lt_of_isAttribute {body : Bytes} (form : IsForm fields body) {text : String}
    (given : IsAttribute fields name text) : (Bytes.ofText text).length < body.length := by
  obtain ⟨spelling, found, string⟩ := given
  exact Nat.lt_trans string.length_ofText_lt (form.length_lt found)

theorem IsForm.length_data_lt {body octets : Bytes} (form : IsForm fields body)
    (verdict : DataVerdict fields (.ok octets)) : octets.length < body.length := by
  cases verdict with
  | base64 _ given encoded =>
      have written := form.length_lt_of_isAttribute given
      rw [encoded] at written
      exact Nat.lt_of_le_of_lt (Base64.length_le_encode octets) written
  | literal given _ _ _ => exact form.length_lt_of_isAttribute given
  | verbatim given _ _ _ => exact form.length_lt given
  | empty _ _ => exact form.length_pos

/-- No envelope is as short as the data of its event. -/
theorem length_data_lt_of_ofStructured {body : Bytes} {event : Event}
    (read : Event.ofStructured body = .ok event) : event.data.length < body.length := by
  by_cases formed : ∃ fields, IsForm fields body
  · obtain ⟨fields, form⟩ := formed
    cases (ofStructured_eq_iff_verdict form).mp read with
    | whole _ _ data _ _ => exact form.length_data_lt data
  · rw [ofStructured_of_not_isForm (not_exists.mp formed)] at read
    cases read

end ScriptedResponder.Envelope
