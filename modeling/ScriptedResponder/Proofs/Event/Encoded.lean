import ScriptedResponder.Proofs.Event.Bits
import ScriptedResponder.Proofs.Event.Reading

/-!
Data in base64. An envelope that wants nothing but its data is an event exactly when its symbols spell
some octets, and these are the data; whatever else the symbols are, it is refused. Every octets can be
carried so, in one spelling.
-/

set_option autoImplicit false

namespace ScriptedResponder.Envelope

open Json

/-- An envelope in which all but the data is in order, and which has symbols in place of the data. -/
structure HoldsSymbols (fields : List (String × Bytes)) (symbols : String) (body : Bytes) : Prop where
  spelled : HasFields fields body
  version : IsAttribute fields "specversion" "1.0"
  named : ∀ name ∈ ["id", "type", "source"], ∃ text, IsAttribute fields name text ∧ text ≠ ""
  typed : ∃ contentType, HoldsText fields "datacontenttype" contentType
  absent : IsAbsent fields "data"
  given : IsAttribute fields "data_base64" symbols

variable {fields : List (String × Bytes)} {symbols : String} {body : Bytes}

theorem HoldsSymbols.isForm (held : HoldsSymbols fields symbols body) : IsForm fields body := by
  have named := held.named
  simp only [List.forall_mem_cons, List.not_mem_nil, false_implies, implies_true, and_true] at named
  obtain ⟨⟨id, idGiven, _⟩, ⟨type, typeGiven, _⟩, ⟨source, sourceGiven, _⟩⟩ := named
  refine ⟨held.spelled, ?_, ?_⟩
  · simp only [textNames, List.forall_mem_cons, List.not_mem_nil, false_implies, implies_true,
      and_true]
    exact ⟨⟨some id, idGiven⟩, ⟨some type, typeGiven⟩, ⟨some source, sourceGiven⟩,
      ⟨some "1.0", held.version⟩, held.typed, ⟨some symbols, held.given⟩⟩
  · intro spelling given
    rw [held.absent spelling given]
    decide

theorem HoldsSymbols.dataVerdict_ok_iff (held : HoldsSymbols fields symbols body) {octets : Bytes} :
    DataVerdict fields (.ok octets) ↔ Base64.IsSpelling octets (Bytes.ofText symbols) := by
  rw [Base64.isSpelling_iff]
  constructor
  · intro verdict
    cases verdict with
    | base64 _ given encoded =>
        rw [held.given.eq given]
        exact encoded
    | literal given _ _ _ => exact absurd held.absent given.not_isAbsent
    | verbatim given present _ _ => exact absurd (held.absent _ given) present
    | empty _ symbolsAbsent => exact absurd symbolsAbsent held.given.not_isAbsent
  · intro encoded
    exact .base64 held.absent held.given encoded

theorem HoldsSymbols.exists_event (held : HoldsSymbols fields symbols body) {octets : Bytes}
    (data : DataVerdict fields (.ok octets)) :
    ∃ event, Event.ofStructured body = .ok event ∧ event.data = octets := by
  have named := held.named
  simp only [List.forall_mem_cons, List.not_mem_nil, false_implies, implies_true, and_true] at named
  obtain ⟨⟨id, idGiven⟩, ⟨type, typeGiven⟩, ⟨source, sourceGiven⟩⟩ := named
  obtain ⟨contentType, typed⟩ := held.typed
  let event : Event :=
    { id, type, source, specVersion := "1.0", dataContentType := contentType, data := octets }
  refine ⟨event, (ofStructured_eq_iff_verdict held.isForm).mpr ?_, rfl⟩
  refine .whole held.version rfl data ?_ typed
  simp only [List.forall_mem_cons, List.not_mem_nil, false_implies, implies_true, and_true]
  exact ⟨idGiven, typeGiven, sourceGiven⟩

theorem HoldsSymbols.dataVerdict_of_ofStructured (held : HoldsSymbols fields symbols body)
    {event : Event} (read : Event.ofStructured body = .ok event) :
    DataVerdict fields (.ok event.data) := by
  cases (ofStructured_eq_iff_verdict held.isForm).mp read with
  | whole _ _ data _ _ => exact data

theorem HoldsSymbols.refused (held : HoldsSymbols fields symbols body)
    (unspelled : ∀ octets, ¬ Base64.IsSpelling octets (Bytes.ofText symbols)) :
    Event.ofStructured body = .error (.invalidStructured .invalidBase64) := by
  refine (ofStructured_eq_iff_verdict held.isForm).mpr (.undelivered held.version ?_)
  refine .notBase64 held.absent held.given ?_
  intro octets encoded
  exact unspelled octets (Base64.isSpelling_iff.mpr encoded)

/-! ### An envelope for every data -/

def noteElements (symbols : String) : List Bytes :=
  [plainLiteral "note", plainLiteral "/", plainLiteral "1.0", Token.null.text, Token.null.text,
    plainLiteral symbols]

def noteBody (symbols : String) : Bytes :=
  Bytes.ofAscii '[' :: (plainLiteral "1" ++
    (noteElements symbols).flatMap (fun other => Bytes.ofAscii ',' :: other) ++ [Bytes.ofAscii ']'])

theorem holdsSymbols_note (unescaped : IsUnescaped symbols) :
    HoldsSymbols (fieldNames.zip (plainLiteral "1" :: noteElements symbols)) symbols
      (noteBody symbols) := by
  have one : IsString "1" (plainLiteral "1") := IsUnescaped.isString (by decide)
  have note : IsString "note" (plainLiteral "note") := IsUnescaped.isString (by decide)
  have root : IsString "/" (plainLiteral "/") := IsUnescaped.isString (by decide)
  have version : IsString "1.0" (plainLiteral "1.0") := IsUnescaped.isString (by decide)
  have own : IsString symbols (plainLiteral symbols) := unescaped.isString
  have null : IsValue Token.null.text := .word (by decide)
  have values : ∀ element ∈ plainLiteral "1" :: noteElements symbols, IsValue element := by
    simp only [noteElements, List.forall_mem_cons, List.not_mem_nil, false_implies, implies_true,
      and_true]
    exact ⟨one.isText.1, note.isText.1, root.isText.1, version.isText.1, null, null, own.isText.1⟩
  have structured : IsStructure fieldNames fieldNames.length
      (fieldNames.zip (plainLiteral "1" :: noteElements symbols)) (noteBody symbols) :=
    .list (isList_joined _ _) values (by simp [noteElements, fieldNames])
      (by simp [noteElements, fieldNames])
  have absent : ∀ name ∈ ["datacontenttype", "data"],
      IsAbsent (fieldNames.zip (plainLiteral "1" :: noteElements symbols)) name := by
    simp only [List.forall_mem_cons, List.not_mem_nil, false_implies, implies_true, and_true]
    exact ⟨fun _ given => (Option.some.inj given).symm, fun _ given => (Option.some.inj given).symm⟩
  refine ⟨⟨[], _, [], blanks_nil, blanks_nil, by simp, structured⟩, ⟨_, rfl, version⟩, ?_,
    ⟨none, absent _ (by simp)⟩, absent _ (by simp), ⟨_, rfl, own⟩⟩
  simp only [List.forall_mem_cons, List.not_mem_nil, false_implies, implies_true, and_true]
  exact ⟨⟨"1", ⟨_, rfl, one⟩, by decide⟩, ⟨"note", ⟨_, rfl, note⟩, by decide⟩,
    ⟨"/", ⟨_, rfl, root⟩, by decide⟩⟩

theorem all_known :
    (Base64.alphabet ++ [Base64.padding]).all (fun symbol => symbol.toNat < 0x80 && 0x20 ≤ symbol &&
      symbol ≠ Bytes.ofAscii '"' && symbol ≠ Bytes.ofAscii '\\') = true := by
  decide

theorem known_symbols :
    ∀ symbol ∈ Base64.alphabet ++ [Base64.padding],
      symbol.toNat < 0x80 ∧ (Piece.plain symbol).IsLegal := by
  intro symbol member
  have known := List.all_eq_true.mp all_known symbol member
  simp only [Bool.and_eq_true, decide_eq_true_eq] at known
  obtain ⟨⟨⟨small, visible⟩, notQuote⟩, notEscape⟩ := known
  exact ⟨small, visible, notQuote, notEscape⟩

theorem exists_symbols (octets : Bytes) :
    ∃ symbols, Bytes.ofText symbols = Base64.encode octets ∧ IsUnescaped symbols := by
  have known := (Base64.isSpelling_encode octets).known
  obtain ⟨characters, same⟩ :=
    exists_octets_of_small fun symbol member => (known_symbols symbol (known symbol member)).1
  have own : Bytes.ofText (String.ofList characters) = Base64.encode octets := by
    rw [ofText_eq_octets, String.toList_ofList, same]
  refine ⟨String.ofList characters, own, ?_⟩
  intro symbol member
  rw [own] at member
  exact (known_symbols symbol (known symbol member)).2

/-- Symbols in place of the data are accepted exactly when they spell some octets, which are then the
data; the octets give the symbols back, and no other symbols are accepted for them. All octets are
spelled by some symbols, which an envelope can hold. -/
theorem symbols_spell_data :
    (∀ fields symbols body, HoldsSymbols fields symbols body →
      (∀ octets, (∃ event, Event.ofStructured body = .ok event ∧ event.data = octets) ↔
        Base64.IsSpelling octets (Bytes.ofText symbols)) ∧
      (∀ event, Event.ofStructured body = .ok event →
        Base64.encode event.data = Bytes.ofText symbols) ∧
      ((∀ octets, ¬ Base64.IsSpelling octets (Bytes.ofText symbols)) →
        Event.ofStructured body = .error (.invalidStructured .invalidBase64))) ∧
    ∀ octets, ∃ symbols, (∀ other, Base64.IsSpelling octets (Bytes.ofText other) ↔ other = symbols) ∧
      Base64.decode? (Bytes.ofText symbols) = some octets ∧
      ∃ fields body, HoldsSymbols fields symbols body := by
  constructor
  · intro fields symbols body held
    refine ⟨fun octets => ?_, fun event read => ?_, held.refused⟩
    · rw [← held.dataVerdict_ok_iff]
      constructor
      · rintro ⟨event, read, rfl⟩
        exact held.dataVerdict_of_ofStructured read
      · exact held.exists_event
    · have spelled := held.dataVerdict_ok_iff.mp (held.dataVerdict_of_ofStructured read)
      exact (Base64.isSpelling_iff.mp spelled).symm
  · intro octets
    obtain ⟨symbols, written, unescaped⟩ := exists_symbols octets
    refine ⟨symbols, fun other => ?_, ?_, _, _, holdsSymbols_note unescaped⟩
    · rw [Base64.isSpelling_iff, ← written]
      exact ⟨Bytes.ofText_injective, fun same => same ▸ rfl⟩
    · exact Base64.decode?_eq_some_iff.mpr written

theorem symbols_spell_data_note :
    (∃ event, Event.ofStructured (noteBody "aGk=") = .ok event ∧ event.data = Bytes.ofText "hi") ∧
      Event.ofStructured (noteBody "aGl=") = .error (.invalidStructured .invalidBase64) := by
  constructor
  · exact ((symbols_spell_data.1 _ _ _ (holdsSymbols_note (by decide))).1 _).mpr
      (Base64.isSpelling_iff.mpr (by decide))
  · refine (symbols_spell_data.1 _ _ _ (holdsSymbols_note (by decide))).2.2 fun octets spelled => ?_
    have read := Base64.decode?_eq_some_iff.mpr (Base64.isSpelling_iff.mp spelled)
    have unread : Base64.decode? (Bytes.ofText "aGl=") = none := by decide
    rw [unread] at read
    cases read

end ScriptedResponder.Envelope
