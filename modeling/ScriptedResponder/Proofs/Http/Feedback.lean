import ScriptedResponder.Proofs.Delivery.Reply
import ScriptedResponder.Proofs.Http.Encoding

/-!
Responses that are posted back as requests. The reply to an event in binary form can always be sent,
and is decoded from its own headers and body again; its data is shorter every time, so no chain of
replies is longer than the body that it started from.
-/

set_option autoImplicit false

namespace ScriptedResponder.Http

/-! ### Sending a plain event -/

theorem IsPlain.append {front back : String} (frontPlain : IsPlain front)
    (backPlain : IsPlain back) : IsPlain (front ++ back) := by
  unfold IsPlain
  have whole : Bytes.ofText (front ++ back) = Bytes.ofText front ++ Bytes.ofText back := by
    simp [Bytes.ofText]
  rw [whole]
  exact List.forall_mem_append.mpr ⟨frontPlain, backPlain⟩

structure IsSpeakable (event : Event) : Prop where
  version : event.specVersion = Event.supportedVersion
  plain : ∀ text ∈ [event.id, event.type, event.source], IsPlain text ∧ text ≠ ""

theorem IsSpeakable.replyWith {event : Event} (speakable : IsSpeakable event) (payload : Bytes) :
    IsSpeakable (event.replyWith payload) := by
  have texts : ∀ text ∈ [event.id, event.type, event.source].map (· ++ Event.replySuffix),
      IsPlain text ∧ text ≠ "" := by
    rintro _ member
    obtain ⟨text, own, rfl⟩ := List.mem_map.mp member
    exact ⟨(speakable.plain text own).1.append (by decide), by simp [Event.replySuffix]⟩
  exact ⟨rfl, texts⟩

theorem IsSpeakable.isPortable {event : Event} (speakable : IsSpeakable event) (payload : Bytes) :
    IsPortable (event.replyWith payload) Event.jsonContentType where
  named := fun text member => ((speakable.replyWith payload).plain text member).2
  plain := by
    have own := (speakable.replyWith payload).plain
    simp only [List.forall_mem_cons, List.not_mem_nil, false_implies, implies_true, and_true]
      at own ⊢
    exact ⟨own.1.1, own.2.1.1, own.2.2.1, by decide⟩
  version := rfl
  typed := rfl
  apart := by decide

def replyHeaders (reply : Event) : Headers :=
  [("ce-specversion", Bytes.ofText reply.specVersion), ("ce-id", Bytes.ofText reply.id),
    ("ce-type", Bytes.ofText reply.type), ("ce-source", Bytes.ofText reply.source),
    ("content-type", Bytes.ofText Event.jsonContentType)]

theorem binaryHeaders_of_isPortable {reply : Event}
    (portable : IsPortable reply Event.jsonContentType) :
    binaryHeaders reply = .ok (replyHeaders reply) := by
  rw [binaryHeaders_eq_ok_iff, portable.typed]
  exact ⟨portable.canBeSent, rfl⟩

theorem first?_replyHeaders (reply : Event) :
    ∀ header ∈ attributeTexts reply ++ [("content-type", Event.jsonContentType)],
      (replyHeaders reply).first? header.1 = some (Bytes.ofText header.2) :=
  first?_eventHeaders reply Event.jsonContentType

theorem decodeEvent_replyHeaders {reply : Event}
    (portable : IsPortable reply Event.jsonContentType) :
    decodeEvent (replyHeaders reply) reply.data = .ok reply :=
  decodeEvent_of_carries portable (.binary (first?_replyHeaders reply))

/-! ### Posting a response back -/

structure AcceptsBinary (request : Request) (event : Event) : Prop where
  path : route request.path ≠ healthPath
  fits : request.body.length ≤ bodyLimit
  method : request.method = "POST"
  decoded : decodeEvent request.headers request.body = .ok event
  binary : ∀ contentType, optionalHeader request.headers "content-type" = .ok contentType →
    isStructured contentType = false

theorem AcceptsBinary.speakable {request : Request} {event : Event}
    (accepted : AcceptsBinary request event) : IsSpeakable event ∧ event.data = request.body := by
  have decoded := accepted.decoded
  unfold decodeEvent at decoded
  split at decoded
  case h_1 => cases decoded
  case h_2 contentType given =>
    simp only [accepted.binary contentType given, Bool.false_eq_true, if_false] at decoded
    obtain ⟨version, _, data, attributes⟩ := binaryEvent_eq_ok_iff.mp decoded
    refine ⟨⟨version, ?_⟩, data⟩
    simp only [attributeTexts, List.forall_mem_cons, List.not_mem_nil, false_implies, implies_true,
      and_true] at attributes ⊢
    exact ⟨attributes.2.1.2, attributes.2.2.1.2, attributes.2.2.2.2⟩

theorem AcceptsBinary.receive {request : Request} {event : Event}
    (accepted : AcceptsBinary request event) :
    receive request = (.accepted event, [.receivedOverHttp event.id event.type]) :=
  receive_of_decodeEvent accepted.path accepted.fits accepted.method accepted.decoded

def Response.posted (response : Response) (path : String) : Request :=
  { method := "POST", path, headers := response.headers, body := response.body }

theorem AcceptsBinary.exchange_reply {request : Request} {event reply : Event} {timeline : Timeline}
    (accepted : AcceptsBinary request event)
    (replied : (Delivery.handle timeline.clock event timeline.store).verdict.answer.reply =
      some reply) :
    IsPortable reply Event.jsonContentType ∧
      (timeline.exchange request).1.headers = replyHeaders reply ∧
      (timeline.exchange request).1.body = reply.data := by
  obtain ⟨_, _, _, payload, _, _, _, _, _, _, same, _⟩ := Delivery.exists_payload replied
  have portable : IsPortable reply Event.jsonContentType := by
    rw [same]
    exact accepted.speakable.1.isPortable payload
  obtain ⟨response, _⟩ := timeline.exchange_accepted accepted.receive
  rw [response, encodeAnswer, replied]
  simp only [binaryHeaders_of_isPortable portable]
  exact ⟨portable, trivial, trivial⟩

theorem AcceptsBinary.posted {request : Request} {event reply : Event} {timeline : Timeline}
    (accepted : AcceptsBinary request event)
    (replied : (Delivery.handle timeline.clock event timeline.store).verdict.answer.reply =
      some reply) {path : String} (apart : route path ≠ healthPath) :
    AcceptsBinary ((timeline.exchange request).1.posted path) reply := by
  obtain ⟨portable, headers, body⟩ := accepted.exchange_reply replied
  have shorter := Delivery.length_lt_of_replied replied
  have whole := accepted.speakable.2
  have fits := accepted.fits
  have decoded := decodeEvent_replyHeaders portable
  refine
    { path := apart
      fits := ?_
      method := rfl
      decoded := by simpa only [Response.posted, headers, body] using decoded
      binary := ?_ }
  · simp only [Response.posted, body]
    rw [whole] at shorter
    omega
  · intro contentType given
    have content : optionalHeader (replyHeaders reply) "content-type" =
        .ok (some Event.jsonContentType) :=
      optionalHeader_eq_ok_some_iff.mpr
        ⟨first?_replyHeaders reply ("content-type", Event.jsonContentType) (by simp), by decide⟩
    simp only [Response.posted, headers, content, Except.ok.injEq] at given
    rw [← given]
    decide

/-! ### Chains of replies -/

def suffixes (count : Nat) : String := String.join (List.replicate count Event.replySuffix)

theorem suffixes_succ (count : Nat) : suffixes (count + 1) = suffixes count ++ Event.replySuffix := by
  rw [suffixes, List.replicate_succ', String.join_append, suffixes]
  simp [String.join]

/-- Responses that are posted back one after the other: how many replies there have been, the request
posted last and the timeline that it finds, which others may have changed in between. -/
inductive Feedback (original : Request) : Nat → Request → Timeline → Prop
  | original (timeline : Timeline) : Feedback original 0 original timeline
  | back {count : Nat} {request : Request} {timeline : Timeline} {event reply : Event}
      {logged : List LogRecord} {path : String}
      (earlier : Feedback original count request timeline)
      (received : receive request = (.accepted event, logged))
      (replied : (Delivery.handle timeline.clock event timeline.store).verdict.answer.reply =
        some reply)
      (apart : route path ≠ healthPath) (next : Timeline) :
      Feedback original (count + 1) ((timeline.exchange request).1.posted path) next

structure Follows (event later : Event) (count : Nat) : Prop where
  id : later.id = event.id ++ suffixes count
  type : later.type = event.type ++ suffixes count
  source : later.source = event.source ++ suffixes count

theorem Follows.replyWith {event later : Event} {count : Nat} (follows : Follows event later count)
    (payload : Bytes) : Follows event (later.replyWith payload) (count + 1) where
  id := by rw [Event.replyWith, follows.id, suffixes_succ, String.append_assoc]
  type := by rw [Event.replyWith, follows.type, suffixes_succ, String.append_assoc]
  source := by rw [Event.replyWith, follows.source, suffixes_succ, String.append_assoc]

/-- However long the chain is, the request posted last is accepted, and what it carries has lost an
octet with every reply. -/
theorem Feedback.accepted {original request : Request} {event : Event} {count : Nat}
    {timeline : Timeline} (feedback : Feedback original count request timeline)
    (accepted : AcceptsBinary original event) :
    ∃ delivered, AcceptsBinary request delivered ∧ Follows event delivered count ∧
      delivered.data.length + count ≤ original.body.length := by
  -- What is kept along the chain: the last request is accepted in binary form, and the octets of its
  -- event and the replies so far are together no more than the octets of the first body.
  induction feedback with
  | original timeline =>
      refine ⟨event, accepted, ⟨?_, ?_, ?_⟩, ?_⟩
      · simp [suffixes]
      · simp [suffixes]
      · simp [suffixes]
      · rw [accepted.speakable.2, Nat.add_zero]
  | @back count request timeline own reply _ _ _ received replied apart next ih =>
      obtain ⟨delivered, last, follows, left⟩ := ih
      obtain rfl : own = delivered := by
        have same := received.symm.trans last.receive
        simpa using congrArg Prod.fst same
      obtain ⟨_, _, _, payload, _, _, _, _, _, _, rfl, _⟩ := Delivery.exists_payload replied
      have shorter := Delivery.length_lt_of_replied replied
      exact ⟨_, last.posted replied apart, follows.replyWith payload, by omega⟩

/-- The reply to an event in binary form is always sent and decoded as itself again; posted back over
and over, replies are accepted each time and end no later than the octets of the first body. -/
theorem feedback_ends {original : Request} {event : Event}
    (accepted : AcceptsBinary original event) :
    (∀ (timeline : Timeline) (reply : Event),
      (Delivery.handle timeline.clock event timeline.store).verdict.answer.reply = some reply →
        let response := (timeline.exchange original).1
        binaryHeaders reply = .ok response.headers ∧ response.body = reply.data ∧
          decodeEvent response.headers response.body = .ok reply) ∧
    ∀ (count : Nat) (request : Request) (timeline : Timeline),
      Feedback original count request timeline →
        count ≤ original.body.length ∧ (timeline.exchange request).1.status ∉ [400, 413] ∧
        ∃ delivered logged, receive request = (.accepted delivered, logged) ∧
          ∀ reply, (Delivery.handle timeline.clock delivered timeline.store).verdict.answer.reply =
              some reply →
            Follows event reply (count + 1) ∧ reply.data.length < delivered.data.length ∧
              count < original.body.length := by
  constructor
  · intro timeline reply replied response
    obtain ⟨portable, headers, body⟩ := accepted.exchange_reply replied
    simp only [response, headers, body]
    exact ⟨binaryHeaders_of_isPortable portable, trivial, decodeEvent_replyHeaders portable⟩
  · intro count request timeline feedback
    obtain ⟨delivered, last, follows, left⟩ := feedback.accepted accepted
    refine ⟨by omega, ?_, delivered, _, last.receive, ?_⟩
    · obtain ⟨response, _⟩ := timeline.exchange_accepted last.receive
      have status := status_encodeAnswer
        (Delivery.handle timeline.clock delivered timeline.store).verdict.answer
      rw [← response] at status
      intro refused
      simp only [List.mem_cons, List.not_mem_nil, or_false] at status refused
      omega
    · intro reply replied
      obtain ⟨_, _, _, payload, _, _, _, _, _, _, rfl, _⟩ := Delivery.exists_payload replied
      have shorter := Delivery.length_lt_of_replied replied
      exact ⟨follows.replyWith payload, shorter, by omega⟩

theorem feedback_ends_note :
    let note : Event :=
      { id := "1", type := "note", source := "/", specVersion := "1.0",
        dataContentType := some "application/json",
        data := Bytes.ofText "[[\"\",\"ack+event\",[[\"\",\"nack+event\",1]]]]" }
    let original : Request :=
      { method := "POST", path := "/", headers := replyHeaders note, body := note.data }
    let reply := note.replyWith (Bytes.ofText "[[\"\",\"nack+event\",1]]")
    let timeline := Timeline.start 1
    let response := (timeline.exchange original).1
    AcceptsBinary original note ∧ decodeEvent response.headers response.body = .ok reply ∧
      (timeline.exchange (response.posted "/")).1.status ∉ [400, 413] := by
  intro note original reply timeline response
  have content : optionalHeader original.headers "content-type" = .ok (some "application/json") := by
    decide +kernel
  have accepted : AcceptsBinary original note :=
    { path := by decide
      fits := by decide
      method := rfl
      decoded := by decide +kernel
      binary := by
        intro contentType given
        rw [content] at given
        rw [← Except.ok.inj given]
        decide }
  have replied : (Delivery.handle timeline.clock note timeline.store).verdict.answer.reply =
      some reply := by
    decide +kernel
  obtain ⟨sent, chained⟩ := feedback_ends accepted
  obtain ⟨_, _, decoded⟩ := sent timeline reply replied
  have feedback : Feedback original 1 (response.posted "/") timeline :=
    .back (.original timeline) accepted.receive replied (by decide) timeline
  exact ⟨accepted, decoded, (chained 1 _ timeline feedback).2.1⟩

end ScriptedResponder.Http
