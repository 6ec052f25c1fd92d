import ScriptedResponder.Proofs.Event.Reading
import ScriptedResponder.Proofs.Except
import ScriptedResponder.Scenario

/-!
The ways to carry one event over HTTP: as headers beside its data, or as any spelling of its
envelope. All of them are decoded as the event, so a request can be replaced by another that carries
the same event, and nothing that follows differs.
-/

set_option autoImplicit false

namespace ScriptedResponder.Http

open Json (IsString IsStructure IsUnescaped IsValue Token isList_joined plainLiteral blanks_nil)

/-! ### Texts in headers -/

/-- A text of tabs and of the ASCII characters from the space to the tilde. -/
def IsPlain (text : String) : Prop :=
  ∀ byte ∈ Bytes.ofText text, byte = 0x09 ∨ (0x20 ≤ byte ∧ byte ≤ 0x7e)

instance (text : String) : Decidable (IsPlain text) :=
  @List.decidableBAll _ (fun byte => byte = 0x09 ∨ (0x20 ≤ byte ∧ byte ≤ 0x7e))
    (fun _ => inferInstance) (Bytes.ofText text)

theorem isReadable_iff {byte : UInt8} :
    isReadable byte = true ↔ byte = 0x09 ∨ (0x20 ≤ byte ∧ byte ≤ 0x7e) := by
  simp only [isReadable, Bool.or_eq_true, Bool.and_eq_true, decide_eq_true_eq]
  exact Iff.rfl

theorem readable?_eq_some_iff {value : Bytes} {text : String} :
    readable? value = some text ↔ value = Bytes.ofText text ∧ IsPlain text := by
  simp only [readable?, Option.ite_none_right_eq_some, List.all_eq_true, isReadable_iff, IsPlain]
  constructor
  · rintro ⟨plain, read⟩
    obtain rfl := Bytes.ofText_of_text? read
    exact ⟨rfl, plain⟩
  · rintro ⟨rfl, plain⟩
    exact ⟨plain, Bytes.text?_ofText text⟩

theorem optionalHeader_eq_ok_some_iff {headers : Headers} {name text : String} :
    optionalHeader headers name = .ok (some text) ↔
      headers.first? name = some (Bytes.ofText text) ∧ IsPlain text := by
  unfold optionalHeader
  cases headers.first? name with
  | none => simp
  | some value =>
      rw [Option.some.injEq, ← readable?_eq_some_iff]
      cases read : readable? value <;> simp [read]

theorem requiredHeader_eq_ok_iff {headers : Headers} {name attributeName text : String} :
    requiredHeader headers name attributeName = .ok text ↔
      headers.first? name = some (Bytes.ofText text) ∧ IsPlain text ∧ text ≠ "" := by
  rw [← and_assoc, ← optionalHeader_eq_ok_some_iff]
  unfold requiredHeader
  cases optionalHeader headers name with
  | error error => simp
  | ok found =>
      cases found with
      | none => simp
      | some own =>
          by_cases empty : own = ""
          · simp [empty, eq_comm]
          · simp only [empty, if_false, Except.ok.injEq, Option.some.injEq]
            exact ⟨fun same => ⟨same, same ▸ empty⟩, And.left⟩

theorem isStructured_iff {contentType : String} :
    isStructured (some contentType) = true ↔
      structuredContentType.toList <+: contentType.toList :=
  List.isPrefixOf_iff_prefix

/-! ### Carrying an event -/

def attributeTexts (event : Event) : List (String × String) :=
  [("ce-specversion", event.specVersion), ("ce-id", event.id), ("ce-type", event.type),
    ("ce-source", event.source)]

inductive Carries (event : Event) (contentType : String) (headers : Headers) : Bytes → Prop
  | binary
      (given : ∀ header ∈ attributeTexts event ++ [("content-type", contentType)],
        headers.first? header.1 = some (Bytes.ofText header.2)) :
      Carries event contentType headers event.data
  | structured {announced : String} {body : Bytes}
      (given : headers.first? "content-type" = some (Bytes.ofText announced))
      (plain : IsPlain announced) (opens : structuredContentType.toList <+: announced.toList)
      (spelled : Envelope.IsSpelledBy event contentType body) :
      Carries event contentType headers body

/-- An event that every carriage can hold. -/
structure IsPortable (event : Event) (contentType : String) : Prop where
  named : ∀ text ∈ [event.id, event.type, event.source], text ≠ ""
  plain : ∀ text ∈ [event.id, event.type, event.source, contentType], IsPlain text
  version : event.specVersion = Event.supportedVersion
  typed : event.dataContentType = some contentType
  apart : ¬ structuredContentType.toList <+: contentType.toList

theorem checkVersion_eq_ok_iff {version : String} {checked : Unit} :
    Event.checkVersion version = .ok checked ↔ version = Event.supportedVersion := by
  unfold Event.checkVersion
  split <;> simp [*]

theorem binaryEvent_eq_ok_iff {headers : Headers} {dataContentType : Option String} {data : Bytes}
    {event : Event} :
    binaryEvent headers dataContentType data = .ok event ↔
      event.specVersion = Event.supportedVersion ∧ event.dataContentType = dataContentType ∧
        event.data = data ∧
        ∀ header ∈ attributeTexts event, headers.first? header.1 = some (Bytes.ofText header.2) ∧
          IsPlain header.2 ∧ header.2 ≠ "" := by
  simp only [binaryEvent, bind_eq_ok_iff, requiredHeader_eq_ok_iff, checkVersion_eq_ok_iff,
    attributeTexts, List.forall_mem_cons, List.not_mem_nil, false_implies, implies_true, and_true]
  constructor
  · rintro ⟨version, versionGiven, _, rfl, id, idGiven, type, typeGiven, source, sourceGiven, same⟩
    obtain rfl := Except.ok.inj same
    exact ⟨rfl, rfl, rfl, versionGiven, idGiven, typeGiven, sourceGiven⟩
  · rintro ⟨version, rfl, rfl, versionGiven, idGiven, typeGiven, sourceGiven⟩
    exact ⟨_, versionGiven, (), version, _, idGiven, _, typeGiven, _, sourceGiven, rfl⟩

theorem decodeEvent_of_carries {event : Event} {contentType : String} {headers : Headers}
    {body : Bytes} (portable : IsPortable event contentType)
    (carried : Carries event contentType headers body) :
    decodeEvent headers body = .ok event := by
  cases carried with
  | binary given =>
      obtain ⟨attributes, typed⟩ := List.forall_mem_append.mp given
      have content : optionalHeader headers "content-type" = .ok (some contentType) :=
        optionalHeader_eq_ok_some_iff.mpr ⟨typed (_, contentType) (by simp), portable.plain _ (by simp)⟩
      simp only [decodeEvent, content, isStructured_iff, portable.apart, if_false]
      refine binaryEvent_eq_ok_iff.mpr ⟨portable.version, portable.typed, rfl, ?_⟩
      intro header member
      refine ⟨attributes header member, ?_⟩
      simp only [attributeTexts, List.mem_cons, List.not_mem_nil, or_false] at member
      rcases member with rfl | rfl | rfl | rfl
      · rw [portable.version]
        decide
      · exact ⟨portable.plain _ (by simp), portable.named _ (by simp)⟩
      · exact ⟨portable.plain _ (by simp), portable.named _ (by simp)⟩
      · exact ⟨portable.plain _ (by simp), portable.named _ (by simp)⟩
  | structured given plain opens spelled =>
      have content := optionalHeader_eq_ok_some_iff.mpr ⟨given, plain⟩
      simp only [decodeEvent, content, isStructured_iff.mpr opens, if_true]
      exact Envelope.ofStructured_of_isSpelledBy portable.version portable.typed portable.named
        spelled

theorem receive_of_decodeEvent {request : Request} {event : Event}
    (path : route request.path ≠ healthPath) (fits : request.body.length ≤ bodyLimit)
    (method : request.method = "POST")
    (decoded : decodeEvent request.headers request.body = .ok event) :
    receive request = (.accepted event, [.receivedOverHttp event.id event.type]) := by
  simp only [receive, path, Nat.not_lt.mpr fits, method, decoded, if_false, ne_eq, not_true_eq_false]

structure Posts (request : Request) (event : Event) (contentType : String) : Prop where
  path : route request.path ≠ healthPath
  fits : request.body.length ≤ bodyLimit
  method : request.method = "POST"
  carried : Carries event contentType request.headers request.body

/-- Every carriage of an event is decoded as it, and requests that carry the same event are answered
alike and leave the same timeline. -/
theorem carriages_agree {event : Event} {contentType : String}
    (portable : IsPortable event contentType) :
    (∀ headers body, Carries event contentType headers body →
      decodeEvent headers body = .ok event) ∧
    ∀ first second : Request, Posts first event contentType → Posts second event contentType →
      ∀ timeline : Timeline, timeline.exchange first = timeline.exchange second := by
  refine ⟨fun headers body => decodeEvent_of_carries portable, ?_⟩
  intro first second firstPosts secondPosts timeline
  have received : ∀ request, Posts request event contentType →
      receive request = (.accepted event, [.receivedOverHttp event.id event.type]) :=
    fun request posts => receive_of_decodeEvent posts.path posts.fits posts.method
      (decodeEvent_of_carries portable posts.carried)
  simp only [Timeline.exchange, received first firstPosts, received second secondPosts]

theorem carriages_agree_note :
    let note : Event :=
      { id := "1", type := "note", source := "/", specVersion := "1.0",
        dataContentType := some "text/plain", data := Bytes.ofText "hi" }
    let binary : Request :=
      { method := "POST", path := "/", body := note.data,
        headers := [("CE-SpecVersion", Bytes.ofText "1.0"), ("ce-id", Bytes.ofText "1"),
          ("ce-type", Bytes.ofText "note"), ("ce-source", Bytes.ofText "/"),
          ("Content-Type", Bytes.ofText "text/plain")] }
    let enveloped : Request :=
      { method := "POST", path := "/",
        headers := [("Content-Type", Bytes.ofText "application/cloudevents+json")],
        body := Bytes.ofText "[\"1\",\"note\",\"/\",\"1.0\",\"text/plain\",null,\"aGk=\"]" }
    IsPortable note "text/plain" ∧ decodeEvent enveloped.headers enveloped.body = .ok note ∧
      ∀ timeline : Timeline, timeline.exchange binary = timeline.exchange enveloped := by
  intro note binary enveloped
  have portable : IsPortable note "text/plain" :=
    { named := by decide, plain := by decide, version := rfl, typed := rfl, apart := by decide }
  have quoted : ∀ text ∈ ["1", "note", "/", "1.0", "text/plain", "aGk="],
      IsString text (plainLiteral text) := by
    have unescaped : ∀ text ∈ ["1", "note", "/", "1.0", "text/plain", "aGk="],
        IsUnescaped text := by
      decide
    exact fun text member => (unescaped text member).isString
  have structured : IsStructure Envelope.fieldNames 7 _ _ :=
    .list (isList_joined (plainLiteral "1") [plainLiteral "note", plainLiteral "/",
      plainLiteral "1.0", plainLiteral "text/plain", Token.null.text, plainLiteral "aGk="])
      (by
        have null : IsValue Token.null.text := .word (by decide)
        simp only [List.forall_mem_cons, List.not_mem_nil, false_implies, implies_true, and_true]
        exact ⟨(quoted "1" (by decide)).isText.1, (quoted "note" (by decide)).isText.1,
          (quoted "/" (by decide)).isText.1, (quoted "1.0" (by decide)).isText.1,
          (quoted "text/plain" (by decide)).isText.1, null, (quoted "aGk=" (by decide)).isText.1⟩)
      (by decide) (by decide)
  have carried : Carries note "text/plain" enveloped.headers enveloped.body := by
    have announced : enveloped.headers.first? "content-type" =
        some (Bytes.ofText "application/cloudevents+json") := by decide +kernel
    refine .structured announced (by decide) (by decide) ?_
    refine ⟨[], _, [], _, blanks_nil, blanks_nil, by decide, structured, ?_, ?_⟩
    · simp only [List.forall_mem_cons, List.not_mem_nil, false_implies, implies_true, and_true]
      exact ⟨⟨_, rfl, quoted "1" (by decide)⟩, ⟨_, rfl, quoted "note" (by decide)⟩,
        ⟨_, rfl, quoted "/" (by decide)⟩, ⟨_, rfl, quoted "1.0" (by decide)⟩,
        ⟨_, rfl, quoted "text/plain" (by decide)⟩⟩
    · refine .base64 ⟨_, rfl, quoted "aGk=" (by decide)⟩ (by decide) ?_
      intro spelling given
      exact (Option.some.inj given).symm
  have direct : Carries note "text/plain" binary.headers binary.body := .binary (by decide +kernel)
  obtain ⟨decoded, alike⟩ := carriages_agree portable
  refine ⟨portable, decoded _ _ carried, alike binary enveloped ?_ ?_⟩
  · exact { path := by decide, fits := by decide, method := rfl, carried := direct }
  · exact { path := by decide, fits := by decide, method := rfl, carried := carried }

end ScriptedResponder.Http
