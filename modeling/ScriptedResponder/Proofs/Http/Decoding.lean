import Mathlib.Logic.Relation
import ScriptedResponder.Proofs.Http.Carriage

/-!
Requests as they are decoded. Of the headers only the first values of five names are read, so headers
can be added, repeated and moved about; of the defects of a request the first in a fixed order is
reported. A content type that announces an envelope leaves all to the body.
-/

set_option autoImplicit false

namespace ScriptedResponder.Http

/-! ### What is read of the headers -/

def readNames : List String := ["content-type", "ce-specversion", "ce-id", "ce-type", "ce-source"]

def Headers.values (headers : Headers) (name : String) : List Bytes :=
  (headers.filter fun header => header.1.toLower = name).map Prod.snd

/-- A change that leaves the first value of every name that is read: a header of another name, a value
after the first of its name, and another order of headers in which no two of one name change places. -/
inductive Edit : Headers → Headers → Prop
  | added {before after : Headers} {header : String × Bytes}
      (unread : header.1.toLower ∉ readNames) : Edit (before ++ after) (before ++ header :: after)
  | repeated {before after : Headers} {header : String × Bytes}
      (earlier : ∃ own ∈ before, own.1.toLower = header.1.toLower) :
      Edit (before ++ after) (before ++ header :: after)
  | reordered {headers others : Headers}
      (same : ∀ name, headers.values name = others.values name) : Edit headers others

theorem Headers.first?_eq (headers : Headers) (name : String) :
    headers.first? name = (headers.values name).head? := by
  rw [Headers.first?, Headers.values, List.head?_map, List.head?_filter]

theorem Headers.values_append (headers others : Headers) (name : String) :
    Headers.values (headers ++ others) name = headers.values name ++ others.values name := by
  rw [Headers.values, List.filter_append, List.map_append]
  rfl

theorem Headers.values_cons_of_ne {header : String × Bytes} {name : String}
    (other : header.1.toLower ≠ name) (headers : Headers) :
    Headers.values (header :: headers) name = headers.values name := by
  rw [Headers.values, List.filter_cons_of_neg (by simpa using other)]
  rfl

theorem Headers.values_ne_nil {headers : Headers} {header : String × Bytes}
    (member : header ∈ headers) : headers.values header.1.toLower ≠ [] := by
  have found : header.2 ∈ headers.values header.1.toLower :=
    List.mem_map.mpr ⟨header, List.mem_filter.mpr ⟨member, by simp⟩, rfl⟩
  exact List.ne_nil_of_mem found

theorem Edit.first?_eq {headers others : Headers} (edit : Edit headers others) {name : String}
    (read : name ∈ readNames) : others.first? name = headers.first? name := by
  rw [Headers.first?_eq, Headers.first?_eq]
  cases edit with
  | @added before after header unread =>
      have other : header.1.toLower ≠ name := by
        rintro rfl
        exact unread read
      rw [Headers.values_append, Headers.values_append, Headers.values_cons_of_ne other]
  | @repeated before after header earlier =>
      rw [Headers.values_append, Headers.values_append]
      by_cases own : header.1.toLower = name
      · obtain ⟨first, member, same⟩ := earlier
        have present := Headers.values_ne_nil member
        rw [same, own] at present
        rw [List.head?_append_of_ne_nil _ present, List.head?_append_of_ne_nil _ present]
      · rw [Headers.values_cons_of_ne own]
  | reordered same => rw [same name]

theorem decodeEvent_congr {headers others : Headers}
    (same : ∀ name ∈ readNames, others.first? name = headers.first? name) (body : Bytes) :
    decodeEvent others body = decodeEvent headers body := by
  simp only [readNames, List.forall_mem_cons, List.not_mem_nil, false_implies, implies_true,
    and_true] at same
  obtain ⟨contentType, version, id, type, source⟩ := same
  simp only [decodeEvent, binaryEvent, requiredHeader, optionalHeader, contentType, version, id,
    type, source]

theorem decodeEvent_edited {headers others : Headers} (edited : Relation.EqvGen Edit headers others)
    (body : Bytes) : decodeEvent others body = decodeEvent headers body := by
  induction edited with
  | rel headers others edit => exact decodeEvent_congr (fun _ read => edit.first?_eq read) body
  | refl headers => rfl
  | symm headers others _ same => exact same.symm
  | trans headers middle others _ _ first second => exact second.trans first

/-! ### Defects in their order -/

def IsUnreadable (value : Bytes) : Prop :=
  ∃ byte ∈ value, ¬ (byte = 0x09 ∨ (0x20 ≤ byte ∧ byte ≤ 0x7e))

def attributeNames : List (String × String) :=
  [("ce-specversion", "specversion"), ("ce-id", "id"), ("ce-type", "type"), ("ce-source", "source")]

inductive AttributeDefect (headers : Headers) : String × String → EventError → Prop
  | unreadable {name attributeName : String} {value : Bytes}
      (given : headers.first? name = some value) (unreadable : IsUnreadable value) :
      AttributeDefect headers (name, attributeName) (.invalidHeader name)
  | missing {name attributeName : String}
      (unfilled : headers.first? name = none ∨ headers.first? name = some []) :
      AttributeDefect headers (name, attributeName) (.missingAttribute attributeName)
  | otherVersion {attributeName version : String}
      (given : headers.first? "ce-specversion" = some (Bytes.ofText version))
      (plain : IsPlain version) (filled : version ≠ "") (other : version ≠ "1.0") :
      AttributeDefect headers ("ce-specversion", attributeName) (.unsupportedSpecVersion version)

/-- The content type of a request that is in binary form, if it has one. -/
def HasContentType (headers : Headers) : Option String → Prop
  | none => headers.first? "content-type" = none
  | some contentType => headers.first? "content-type" = some (Bytes.ofText contentType) ∧
      IsPlain contentType ∧ ¬ structuredContentType.toList <+: contentType.toList

/-- What a request is decoded as: the content type is looked at first, then the attributes one after
another, the version to the end before any other. -/
inductive Decodes (headers : Headers) (body : Bytes) : Except EventError Event → Prop
  | unreadable {value : Bytes} (given : headers.first? "content-type" = some value)
      (unreadable : IsUnreadable value) :
      Decodes headers body (.error (.invalidHeader "content-type"))
  | structured {contentType : String}
      (given : headers.first? "content-type" = some (Bytes.ofText contentType))
      (plain : IsPlain contentType) (opens : structuredContentType.toList <+: contentType.toList) :
      Decodes headers body (Event.ofStructured body)
  | defective {contentType : Option String} {earlier later : List (String × String)}
      {carried : String × String} {defect : EventError}
      (typed : HasContentType headers contentType)
      (names : attributeNames = earlier ++ carried :: later)
      (sound : ∀ other ∈ earlier, ∀ own, ¬ AttributeDefect headers other own)
      (found : AttributeDefect headers carried defect) : Decodes headers body (.error defect)
  | whole {event : Event} (typed : HasContentType headers event.dataContentType)
      (spoken : event.specVersion = "1.0") (data : event.data = body)
      (given : ∀ header ∈ attributeTexts event,
        headers.first? header.1 = some (Bytes.ofText header.2) ∧ IsPlain header.2 ∧ header.2 ≠ "") :
      Decodes headers body (.ok event)

/-! ### Reading one header -/

variable {headers : Headers} {name attributeName : String}

theorem readable?_eq_none_iff {value : Bytes} : readable? value = none ↔ IsUnreadable value := by
  unfold readable?
  by_cases all : value.all isReadable = true
  · have plain : ∀ byte ∈ value, byte = 0x09 ∨ (0x20 ≤ byte ∧ byte ≤ 0x7e) :=
      fun byte member => isReadable_iff.mp (List.all_eq_true.mp all byte member)
    have small : ∀ byte ∈ value, byte.toNat < 0x80 := by
      intro byte member
      obtain rfl | ⟨_, atMost⟩ := plain byte member
      · decide
      · have bound := UInt8.le_iff_toNat_le.mp atMost
        exact Nat.lt_succ_of_le (Nat.le_trans bound (by decide))
    obtain ⟨characters, rfl⟩ := Json.exists_octets_of_small small
    have read : Bytes.text? (Json.octets characters) = some (String.ofList characters) :=
      Json.text?_eq_some_iff.mpr (by simp)
    rw [if_pos all, read]
    refine iff_of_false (by simp) ?_
    rintro ⟨byte, member, unreadable⟩
    exact unreadable (plain byte member)
  · rw [if_neg all]
    refine iff_of_true rfl ?_
    simp only [List.all_eq_true, not_forall] at all
    obtain ⟨byte, member, unread⟩ := all
    exact ⟨byte, member, mt isReadable_iff.mpr unread⟩

theorem optionalHeader_eq_ok_none_iff :
    optionalHeader headers name = .ok none ↔ headers.first? name = none := by
  unfold optionalHeader
  cases headers.first? name with
  | none => simp
  | some value => cases read : readable? value <;> simp [read]

theorem optionalHeader_eq_error_iff {defect : EventError} :
    optionalHeader headers name = .error defect ↔
      ∃ value, headers.first? name = some value ∧ IsUnreadable value ∧
        defect = .invalidHeader name := by
  unfold optionalHeader
  cases headers.first? name with
  | none => simp
  | some value =>
      simp only [Option.some.injEq, exists_eq_left', ← readable?_eq_none_iff]
      cases readable? value <;> simp [eq_comm]

theorem requiredHeader_eq_error_iff {defect : EventError} :
    requiredHeader headers name attributeName = .error defect ↔
      (∃ value, headers.first? name = some value ∧ IsUnreadable value ∧
        defect = .invalidHeader name) ∨
      ((headers.first? name = none ∨ headers.first? name = some []) ∧
        defect = .missingAttribute attributeName) := by
  rw [← optionalHeader_eq_error_iff, ← optionalHeader_eq_ok_none_iff]
  have empty : headers.first? name = some [] ↔ optionalHeader headers name = .ok (some "") := by
    rw [optionalHeader_eq_ok_some_iff]
    exact (and_iff_left (by decide)).symm
  rw [empty]
  unfold requiredHeader
  cases optionalHeader headers name with
  | error own => simp
  | ok found =>
      cases found with
      | none => simp [eq_comm]
      | some text => by_cases filled : text = "" <;> simp [filled, eq_comm]

/-! ### Reading the attributes -/

/-- The text of an attribute, read from its header; a version must also be the one that is spoken. -/
def readAttribute (headers : Headers) (carried : String × String) : Except EventError String :=
  requiredHeader headers carried.1 carried.2 >>= fun text =>
    if carried.1 = "ce-specversion" then (Event.checkVersion text).map fun _ => text else .ok text

theorem refused_version_iff {version : String} {defect : EventError} :
    (Event.checkVersion version).map (fun _ => version) = .error defect ↔
      version ≠ "1.0" ∧ defect = .unsupportedSpecVersion version := by
  unfold Event.checkVersion Event.supportedVersion
  by_cases spoken : version = "1.0" <;> simp [spoken, Except.map, eq_comm]

theorem readAttribute_eq_error_iff {carried : String × String} {defect : EventError} :
    readAttribute headers carried = .error defect ↔ AttributeDefect headers carried defect := by
  obtain ⟨name, attributeName⟩ := carried
  rw [readAttribute, bind_eq_error_iff, requiredHeader_eq_error_iff]
  constructor
  · rintro ((⟨value, given, unreadable, rfl⟩ | ⟨unfilled, rfl⟩) | ⟨text, read, refused⟩)
    · exact .unreadable given unreadable
    · exact .missing unfilled
    · by_cases versioned : name = "ce-specversion"
      · subst versioned
        obtain ⟨other, rfl⟩ := refused_version_iff.mp (by simpa using refused)
        obtain ⟨given, plain, filled⟩ := requiredHeader_eq_ok_iff.mp read
        exact .otherVersion given plain filled other
      · simp [versioned] at refused
  · intro defective
    cases defective with
    | unreadable given unreadable => exact .inl (.inl ⟨_, given, unreadable, rfl⟩)
    | missing unfilled => exact .inl (.inr ⟨unfilled, rfl⟩)
    | otherVersion given plain filled other =>
        refine .inr ⟨_, requiredHeader_eq_ok_iff.mpr ⟨given, plain, filled⟩, ?_⟩
        simpa using refused_version_iff.mpr ⟨other, rfl⟩

theorem readAttribute_unversioned (other : name ≠ "ce-specversion") :
    readAttribute headers (name, attributeName) = requiredHeader headers name attributeName := by
  unfold readAttribute
  cases read : requiredHeader headers name attributeName with
  | error defect => rfl
  | ok text => simp [bind, Except.bind, other]

theorem binaryEvent_eq_bind (headers : Headers) (dataContentType : Option String) (data : Bytes) :
    binaryEvent headers dataContentType data =
      readAttribute headers ("ce-specversion", "specversion") >>= fun specVersion =>
        readAttribute headers ("ce-id", "id") >>= fun id =>
          readAttribute headers ("ce-type", "type") >>= fun type =>
            readAttribute headers ("ce-source", "source") >>= fun source =>
              .ok { id, type, source, specVersion, dataContentType, data } := by
  rw [readAttribute_unversioned (show "ce-id" ≠ "ce-specversion" by decide),
    readAttribute_unversioned (show "ce-type" ≠ "ce-specversion" by decide),
    readAttribute_unversioned (show "ce-source" ≠ "ce-specversion" by decide)]
  simp only [binaryEvent, readAttribute, if_true]
  cases requiredHeader headers "ce-specversion" "specversion" with
  | error defect => rfl
  | ok version =>
      simp only [bind, Except.bind]
      cases Event.checkVersion version <;> rfl

theorem binaryEvent_eq_error_iff {contentType : Option String} {body : Bytes} {defect : EventError} :
    binaryEvent headers contentType body = .error defect ↔
      attributeNames.mapM (readAttribute headers) = .error defect := by
  rw [binaryEvent_eq_bind]
  simp only [attributeNames, List.mapM_cons, List.mapM_nil]
  cases readAttribute headers ("ce-specversion", "specversion") with
  | error own => simp [bind, Except.bind]
  | ok version =>
      cases readAttribute headers ("ce-id", "id") with
      | error own => simp [bind, Except.bind]
      | ok id =>
          cases readAttribute headers ("ce-type", "type") with
          | error own => simp [bind, Except.bind]
          | ok type =>
              cases readAttribute headers ("ce-source", "source") with
              | error own => simp [bind, Except.bind]
              | ok source => simp [bind, Except.bind, pure, Except.pure]

/-! ### The verdict -/

theorem hasContentType_iff {contentType : Option String} :
    HasContentType headers contentType ↔
      optionalHeader headers "content-type" = .ok contentType ∧ isStructured contentType = false := by
  cases contentType with
  | none =>
      rw [HasContentType, optionalHeader_eq_ok_none_iff]
      exact (and_iff_left rfl).symm
  | some text =>
      rw [HasContentType, optionalHeader_eq_ok_some_iff, ← isStructured_iff, Bool.not_eq_true,
        and_assoc]

theorem decodeEvent_of_hasContentType {contentType : Option String}
    (typed : HasContentType headers contentType) (body : Bytes) :
    decodeEvent headers body = binaryEvent headers contentType body := by
  obtain ⟨content, apart⟩ := hasContentType_iff.mp typed
  simp only [decodeEvent, content, apart, Bool.false_eq_true, if_false]

theorem decodeEvent_of_announced {contentType : String}
    (given : headers.first? "content-type" = some (Bytes.ofText contentType))
    (plain : IsPlain contentType) (opens : structuredContentType.toList <+: contentType.toList)
    (body : Bytes) : decodeEvent headers body = Event.ofStructured body := by
  have content := optionalHeader_eq_ok_some_iff.mpr ⟨given, plain⟩
  simp only [decodeEvent, content, isStructured_iff.mpr opens, if_true]

theorem decodeEvent_of_unreadable {value : Bytes}
    (given : headers.first? "content-type" = some value) (unreadable : IsUnreadable value)
    (body : Bytes) : decodeEvent headers body = .error (.invalidHeader "content-type") := by
  have content := optionalHeader_eq_error_iff.mpr ⟨value, given, unreadable, rfl⟩
  simp only [decodeEvent, content]

theorem decodes_binaryEvent {contentType : Option String}
    (typed : HasContentType headers contentType) (body : Bytes) :
    Decodes headers body (binaryEvent headers contentType body) := by
  cases read : binaryEvent headers contentType body with
  | error defect =>
      obtain ⟨earlier, carried, later, names, sound, found⟩ :=
        mapM_eq_error_iff.mp (binaryEvent_eq_error_iff.mp read)
      simp only [ne_eq, readAttribute_eq_error_iff] at sound found
      exact .defective typed names sound found
  | ok event =>
      obtain ⟨spoken, rfl, data, given⟩ := binaryEvent_eq_ok_iff.mp read
      exact .whole typed spoken data given

theorem decodes_decodeEvent (headers : Headers) (body : Bytes) :
    Decodes headers body (decodeEvent headers body) := by
  cases content : optionalHeader headers "content-type" with
  | error defect =>
      obtain ⟨value, given, unreadable, _⟩ := optionalHeader_eq_error_iff.mp content
      rw [decodeEvent_of_unreadable given unreadable]
      exact .unreadable given unreadable
  | ok contentType =>
      cases announced : isStructured contentType with
      | true =>
          cases contentType with
          | none => cases announced
          | some text =>
              obtain ⟨given, plain⟩ := optionalHeader_eq_ok_some_iff.mp content
              have opens := isStructured_iff.mp announced
              rw [decodeEvent_of_announced given plain opens]
              exact .structured given plain opens
      | false =>
          have typed := hasContentType_iff.mpr ⟨content, announced⟩
          rw [decodeEvent_of_hasContentType typed]
          exact decodes_binaryEvent typed body

theorem Decodes.eq {body : Bytes} {result : Except EventError Event}
    (decodes : Decodes headers body result) : decodeEvent headers body = result := by
  cases decodes with
  | unreadable given unreadable => exact decodeEvent_of_unreadable given unreadable body
  | structured given plain opens => exact decodeEvent_of_announced given plain opens body
  | defective typed names sound found =>
      rw [decodeEvent_of_hasContentType typed]
      refine binaryEvent_eq_error_iff.mpr (mapM_eq_error_iff.mpr ⟨_, _, _, names, ?_, ?_⟩)
      · simpa only [ne_eq, readAttribute_eq_error_iff] using sound
      · exact readAttribute_eq_error_iff.mpr found
  | whole typed spoken data given =>
      rw [decodeEvent_of_hasContentType typed]
      exact binaryEvent_eq_ok_iff.mpr ⟨spoken, rfl, data, given⟩

/-- What a request is decoded as depends on its body and on the first values of the names that are
read, however the headers are edited otherwise; a content type that announces an envelope leaves all
to the body, and where there is none the first defect is reported. -/
theorem decodeEvent_by_first_values (headers : Headers) (body : Bytes) :
    (∀ others : Headers, (∀ name ∈ readNames, others.first? name = headers.first? name) →
      decodeEvent others body = decodeEvent headers body) ∧
    (∀ others, Relation.EqvGen Edit headers others →
      decodeEvent others body = decodeEvent headers body) ∧
    (∀ contentType, headers.first? "content-type" = some (Bytes.ofText contentType) →
      IsPlain contentType → structuredContentType.toList <+: contentType.toList →
      decodeEvent headers body = Event.ofStructured body) ∧
    ∀ result, decodeEvent headers body = result ↔ Decodes headers body result := by
  refine ⟨fun others same => decodeEvent_congr same body,
    fun others edited => decodeEvent_edited edited body,
    fun contentType given plain opens => decodeEvent_of_announced given plain opens body,
    fun result => ⟨?_, Decodes.eq⟩⟩
  rintro rfl
  exact decodes_decodeEvent headers body

example : decodeEvent [("CE-SpecVersion", Bytes.ofText "1.0"), ("ce-id", Bytes.ofText "é")] [] =
    .error (.invalidHeader "ce-id") := by
  decide +kernel

end ScriptedResponder.Http
