import ScriptedResponder.Proofs.Http.Carriage

/-!
Replies as they are encoded. A reply is sent in full exactly when none of its texts has an octet that
no header can hold, and the response is decoded as the reply exactly when the reply is portable: read
as an envelope, the data of an event is never an envelope of the same data, which would be longer.
-/

set_option autoImplicit false

namespace ScriptedResponder.Http

/-! ### Texts that can be sent -/

def IsSent (text : String) : Prop :=
  ∀ byte ∈ Bytes.ofText text, (byte < 0x20 → byte = 0x09) ∧ byte ≠ 0x7f

instance (text : String) : Decidable (IsSent text) :=
  @List.decidableBAll _ (fun byte => (byte < 0x20 → byte = 0x09) ∧ byte ≠ 0x7f)
    (fun _ => inferInstance) (Bytes.ofText text)

theorem isSendable_iff {byte : UInt8} :
    isSendable byte = true ↔ (byte < 0x20 → byte = 0x09) ∧ byte ≠ 0x7f := by
  simp only [isSendable, Bool.or_eq_true, Bool.and_eq_true, decide_eq_true_eq]
  constructor
  · rintro (rfl | ⟨visible, apart⟩)
    · decide
    · exact ⟨fun control => absurd control (UInt8.not_lt.mpr visible), apart⟩
  · rintro ⟨tabbed, apart⟩
    by_cases control : byte < 0x20
    · exact .inl (tabbed control)
    · exact .inr ⟨UInt8.not_lt.mp control, apart⟩

theorem sendable?_eq_some_iff {text : String} {value : Bytes} :
    sendable? text = some value ↔ IsSent text ∧ value = Bytes.ofText text := by
  simp only [sendable?, Option.ite_none_right_eq_some, List.all_eq_true, isSendable_iff, IsSent,
    Option.some.injEq]
  exact and_congr_right fun _ => eq_comm

theorem IsPlain.isSent {text : String} (plain : IsPlain text) : IsSent text := by
  intro byte member
  obtain rfl | ⟨visible, small⟩ := plain byte member
  · decide
  · refine ⟨fun control => absurd control (UInt8.not_lt.mpr visible), ?_⟩
    rintro rfl
    exact absurd small (by decide)

example : IsSent "ação" ∧ ¬ IsPlain "ação" := by decide

theorem sentHeader_eq_ok_iff {name text : String} {header : String × Bytes} :
    sentHeader name text = .ok header ↔ IsSent text ∧ header = (name, Bytes.ofText text) := by
  unfold sentHeader
  cases sent : sendable? text with
  | none =>
      have refused : ¬ IsSent text := fun own => by
        rw [sendable?_eq_some_iff.mpr ⟨own, rfl⟩] at sent
        cases sent
      simp [refused]
  | some value =>
      obtain ⟨own, rfl⟩ := sendable?_eq_some_iff.mp sent
      simp [own, eq_comm]

/-! ### Encoding -/

/-- An event none of whose texts has an octet that no header can hold. -/
def CanBeSent (event : Event) : Prop :=
  ∀ text ∈ [event.specVersion, event.id, event.type, event.source] ++ event.dataContentType.toList,
    IsSent text

def eventHeaders (event : Event) (contentType : String) : Headers :=
  (attributeTexts event ++ [("content-type", contentType)]).map (Prod.map id Bytes.ofText)

def sentResponse (event : Event) (outcome : Outcome) : Response where
  status :=
    match outcome with
    | .ack => 200
    | .nack => 500
  headers := eventHeaders event (event.dataContentType.getD defaultContentType)
  body := event.data

theorem canBeSent_iff {event : Event} :
    CanBeSent event ↔ IsSent event.specVersion ∧ IsSent event.id ∧ IsSent event.type ∧
      IsSent event.source ∧ IsSent (event.dataContentType.getD defaultContentType) := by
  unfold CanBeSent
  cases event.dataContentType with
  | none =>
      have default : IsSent defaultContentType := by decide
      simp [default]
  | some contentType => simp

theorem binaryHeaders_eq_ok_iff {event : Event} {headers : Headers} :
    binaryHeaders event = .ok headers ↔ CanBeSent event ∧
      headers = eventHeaders event (event.dataContentType.getD defaultContentType) := by
  rw [canBeSent_iff]
  simp only [binaryHeaders, bind_eq_ok_iff, sentHeader_eq_ok_iff]
  constructor
  · rintro ⟨_, ⟨version, rfl⟩, _, ⟨id, rfl⟩, _, ⟨type, rfl⟩, _, ⟨source, rfl⟩, _, ⟨content, rfl⟩,
      same⟩
    exact ⟨⟨version, id, type, source, content⟩, (Except.ok.inj same).symm⟩
  · rintro ⟨⟨version, id, type, source, content⟩, rfl⟩
    exact ⟨_, ⟨version, rfl⟩, _, ⟨id, rfl⟩, _, ⟨type, rfl⟩, _, ⟨source, rfl⟩, _, ⟨content, rfl⟩, rfl⟩

theorem encodeAnswer_of_canBeSent {event : Event} (sent : CanBeSent event) (outcome : Outcome) :
    (encodeAnswer { reply := some event, outcome }).1 = sentResponse event outcome := by
  have headers := binaryHeaders_eq_ok_iff.mpr ⟨sent, rfl⟩
  simp only [encodeAnswer, headers]
  cases outcome <;> rfl

theorem encodeAnswer_of_not_canBeSent {event : Event} (unsent : ¬ CanBeSent event)
    (outcome : Outcome) :
    (encodeAnswer { reply := some event, outcome }).1 = .bare 500 := by
  cases headers : binaryHeaders event with
  | error defect => simp only [encodeAnswer, headers]
  | ok found => exact absurd (binaryHeaders_eq_ok_iff.mp headers).1 unsent

/-! ### Decoding what was encoded -/

theorem first?_eventHeaders (event : Event) (contentType : String) :
    ∀ header ∈ attributeTexts event ++ [("content-type", contentType)],
      (eventHeaders event contentType).first? header.1 = some (Bytes.ofText header.2) := by
  have lower : ∀ name ∈ ["ce-specversion", "ce-id", "ce-type", "ce-source", "content-type"],
      name.toLower = name := by
    decide +kernel
  simp only [List.forall_mem_cons, List.not_mem_nil, false_implies, implies_true, and_true] at lower
  obtain ⟨version, id, type, source, content⟩ := lower
  simp [attributeTexts, eventHeaders, Headers.first?, version, id, type, source, content,
    List.find?_cons]

theorem IsPortable.canBeSent {event : Event} {contentType : String}
    (portable : IsPortable event contentType) : CanBeSent event := by
  have plain := portable.plain
  simp only [List.forall_mem_cons, List.not_mem_nil, false_implies, implies_true, and_true] at plain
  obtain ⟨id, type, source, content⟩ := plain
  have version : IsPlain event.specVersion := by
    rw [portable.version]
    decide
  rw [canBeSent_iff, portable.typed]
  exact ⟨version.isSent, id.isSent, type.isSent, source.isSent, content.isSent⟩

/-- Whatever content type is announced, an event that is decoded from its own headers and data is
portable. -/
theorem isPortable_of_decodeEvent {event : Event} {contentType : String}
    (decoded : decodeEvent (eventHeaders event contentType) event.data = .ok event) :
    IsPortable event contentType := by
  unfold decodeEvent at decoded
  have given := first?_eventHeaders event contentType ("content-type", contentType) (by simp)
  split at decoded
  case h_1 => cases decoded
  case h_2 announced content =>
    by_cases structured : isStructured announced = true
    · rw [if_pos structured] at decoded
      exact absurd (Envelope.length_data_lt_of_ofStructured decoded) (Nat.lt_irrefl _)
    · rw [if_neg structured] at decoded
      obtain ⟨version, typed, _, attributes⟩ := binaryEvent_eq_ok_iff.mp decoded
      cases announced with
      | none =>
          rw [optionalHeader, given] at content
          cases read : readable? (Bytes.ofText contentType) <;> simp [read] at content
      | some text =>
          obtain ⟨same, plain⟩ := optionalHeader_eq_ok_some_iff.mp content
          obtain rfl : text = contentType :=
            (Bytes.ofText_injective (Option.some.inj (given.symm.trans same))).symm
          simp only [attributeTexts, List.forall_mem_cons, List.not_mem_nil, false_implies,
            implies_true, and_true] at attributes
          obtain ⟨_, ⟨_, id, idNamed⟩, ⟨_, type, typeNamed⟩, ⟨_, source, sourceNamed⟩⟩ := attributes
          exact
            { named := by simp [idNamed, typeNamed, sourceNamed]
              plain := by simp [id, type, source, plain]
              version
              typed
              apart := mt isStructured_iff.mpr structured }

theorem not_decodeEvent_bare {status : Nat} {event : Event} :
    decodeEvent (Response.bare status).headers (Response.bare status).body ≠ .ok event := by
  intro decoded
  cases decoded

/-- What an event is sent as is decided by its octets: in full, or not at all. It is decoded as itself
from the response exactly when it is portable. -/
theorem encodeAnswer_by_octets (event : Event) (outcome : Outcome) :
    let response := (encodeAnswer { reply := some event, outcome }).1
    (response = sentResponse event outcome ↔ CanBeSent event) ∧
      (response = .bare 500 ↔ ¬ CanBeSent event) ∧
      (decodeEvent response.headers response.body = .ok event ↔
        ∃ contentType, IsPortable event contentType) := by
  intro response
  by_cases sent : CanBeSent event
  · have full : response = sentResponse event outcome := encodeAnswer_of_canBeSent sent outcome
    rw [full]
    refine ⟨by simp [sent], by simp [sent, sentResponse, Response.bare, eventHeaders], ?_, ?_⟩
    · intro decoded
      exact ⟨_, isPortable_of_decodeEvent decoded⟩
    · rintro ⟨contentType, portable⟩
      have headers : (sentResponse event outcome).headers = eventHeaders event contentType := by
        simp only [sentResponse, portable.typed, Option.getD_some]
      rw [headers]
      exact decodeEvent_of_carries portable (.binary (first?_eventHeaders event contentType))
  · have bare : response = .bare 500 := encodeAnswer_of_not_canBeSent sent outcome
    rw [bare]
    refine ⟨by simp [sent, sentResponse, Response.bare, eventHeaders], by simp [sent], ?_, ?_⟩
    · intro decoded
      exact absurd decoded not_decodeEvent_bare
    · rintro ⟨_, portable⟩
      exact absurd portable.canBeSent sent

end ScriptedResponder.Http
