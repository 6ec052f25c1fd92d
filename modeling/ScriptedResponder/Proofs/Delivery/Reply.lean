import ScriptedResponder.Proofs.Http.Admission
import ScriptedResponder.Proofs.Instruction.Format

/-!
Where the data of a reply comes from. It is the payload of the deciding instruction, a part of the
event's own data that is passed on as it stands; another payload in its place changes the data of
the reply and nothing else.
-/

set_option autoImplicit false

namespace ScriptedResponder

/-! ### The reply of an instruction -/

theorem Action.exists_payload {event reply : Event} {payload : Option Bytes} {action : Action}
    (replied : (action.answer event payload).reply = some reply) :
    ∃ own, payload = some own ∧ reply = event.replyWith own ∧
      ∀ other sent, action.answer sent (some other) =
        { reply := some (sent.replyWith other), outcome := (action.answer event payload).outcome } := by
  cases action with
  | ackWithEvent | nackWithEvent =>
      cases payload with
      | none => cases replied
      | some own => exact ⟨own, rfl, (Option.some.inj replied).symm, fun _ _ => rfl⟩
  | ack | nack | delayAck seconds | reset => cases replied

theorem Instruction.exists_payload {event reply : Event} {instruction : Instruction}
    (replied : (instruction.answer event).reply = some reply) :
    ∃ payload, instruction.reply = some payload ∧ reply = event.replyWith payload ∧
      ∀ other sent, ({ instruction with reply := some other } : Instruction).answer sent =
        { reply := some (sent.replyWith other), outcome := (instruction.answer event).outcome } := by
  unfold Instruction.answer at replied ⊢
  cases executed : instruction.executed? with
  | none =>
      rw [executed] at replied
      cases replied
  | some action =>
      rw [executed] at replied
      obtain ⟨payload, given, same, exchanged⟩ := Action.exists_payload replied
      refine ⟨payload, given, same, fun other sent => ?_⟩
      have still : ({ instruction with reply := some other } : Instruction).executed? =
          some action := executed
      simp only [still, exchanged]

namespace Delivery

variable {now : Nat} {event : Event} {store : CountStore}

theorem exists_deciding {reply : Event}
    (replied : (handle now event store).verdict.answer.reply = some reply) :
    ∃ instructions instruction, Instruction.ofBody event.data = .ok instructions ∧
      instructions.find? (Instruction.decides (retries now event (store.increase now event.id))) =
        some instruction ∧
      (handle now event store).verdict.answer = instruction.answer event ∧
      (instruction.answer event).reply = some reply := by
  cases read : Instruction.ofBody event.data with
  | error error =>
      rw [handle_of_error read] at replied
      cases replied
  | ok instructions =>
      rw [answer_handle read, answerTo] at replied ⊢
      cases found : instructions.find?
          (Instruction.decides (retries now event (store.increase now event.id))) with
      | none =>
          rw [found] at replied
          cases replied
      | some instruction =>
          rw [found] at replied
          exact ⟨instructions, instruction, rfl, found, rfl, replied⟩

theorem handle_of_deciding {instructions : List Instruction} {instruction : Instruction}
    (read : Instruction.ofBody event.data = .ok instructions)
    (found : instructions.find?
      (Instruction.decides (retries now event (store.increase now event.id))) = some instruction) :
    (handle now event store).verdict.answer = instruction.answer event ∧
      (handle now event store).store =
        if instruction.executed? = some .reset then store.reset
        else store.increase now event.id := by
  rw [answer_handle read, store_handle read, answerTo, executed?, found]
  exact ⟨rfl, rfl⟩

/-- The payload of the deciding instruction is a part of the body, and can be exchanged there. -/
theorem exists_payload {reply : Event}
    (replied : (handle now event store).verdict.answer.reply = some reply) :
    let decides := Instruction.decides (retries now event (store.increase now event.id))
    ∃ earlier instruction later payload front back,
      Instruction.ofBody event.data = .ok (earlier ++ instruction :: later) ∧
      (∀ other ∈ earlier, decides other = false) ∧ decides instruction = true ∧
      instruction.reply = some payload ∧ reply = event.replyWith payload ∧ front ≠ [] ∧
      event.data = front ++ payload ++ back ∧ Json.IsText payload ∧
      payload ≠ Json.Token.null.text ∧
      ∀ other, Json.IsText other → other ≠ Json.Token.null.text →
        Instruction.ofBody (front ++ other ++ back) =
          .ok (earlier ++ { instruction with reply := some other } :: later) := by
  intro decides
  obtain ⟨instructions, instruction, read, found, _, answered⟩ := exists_deciding replied
  obtain ⟨payload, given, same, _⟩ := Instruction.exists_payload answered
  obtain ⟨decisive, earlier, later, rfl, passed⟩ := List.find?_eq_some_iff_append.mp found
  rcases Instruction.ofBody_eq_ok_cases read with ⟨_, empty⟩ | spelled
  · simp at empty
  · obtain ⟨front, back, nonempty, whole, text, present, exchanged⟩ := spelled.exchange given
    refine ⟨earlier, instruction, later, payload, front, back, read, ?_, decisive, given, same,
      nonempty, whole, text, present, fun other otherText otherPresent =>
        (exchanged other otherText otherPresent).ofBody⟩
    simpa using passed

theorem length_lt_of_replied {reply : Event}
    (replied : (handle now event store).verdict.answer.reply = some reply) :
    reply.data.length < event.data.length := by
  obtain ⟨_, _, _, payload, front, back, _, _, _, _, rfl, nonempty, whole, _⟩ :=
    exists_payload replied
  have positive := List.length_pos_iff.mpr nonempty
  rw [whole]
  simp only [Event.replyWith, List.length_append]
  omega

/-- The data of a reply is the payload of the deciding instruction as it stands in the event, which
decides nothing else: an event with another payload there is decided alike, and the reply to it
carries that one. -/
theorem reply_verbatim {reply : Event}
    (replied : (handle now event store).verdict.answer.reply = some reply) :
    let decision := handle now event store
    let decides := Instruction.decides (retries now event (store.increase now event.id))
    ∃ earlier instruction later front back,
      Instruction.ofBody event.data = .ok (earlier ++ instruction :: later) ∧
      (∀ other ∈ earlier, decides other = false) ∧ decides instruction = true ∧
      instruction.reply = some reply.data ∧
      event.data = front ++ reply.data ++ back ∧ reply.data.length < event.data.length ∧
      Json.IsText reply.data ∧ reply.data ≠ Json.Token.null.text ∧ Json.Unpadded reply.data ∧
      reply =
        { id := event.id ++ ".reply", type := event.type ++ ".reply",
          source := event.source ++ ".reply", specVersion := "1.0",
          dataContentType := some "application/json", data := reply.data } ∧
      (∀ tasks records request logged headers,
        Http.receive request = (.accepted event, logged) → Http.binaryHeaders reply = .ok headers →
          (Timeline.exchange request { clock := now, store, tasks, records }).1.body =
            reply.data) ∧
      ∀ payload, Json.IsText payload → payload ≠ Json.Token.null.text →
        let exchanged := { event with data := front ++ payload ++ back }
        Instruction.ofBody exchanged.data =
            .ok (earlier ++ { instruction with reply := some payload } :: later) ∧
          (handle now exchanged store).verdict.answer =
            { decision.verdict.answer with reply := some { reply with data := payload } } ∧
          (handle now exchanged store).store = decision.store := by
  intro decision decides
  have shorter := length_lt_of_replied replied
  obtain ⟨earlier, instruction, later, data, front, back, read, passed, decisive, given, rfl, _,
    whole, text, present, exchangedRead⟩ := exists_payload replied
  -- Conditions alone decide, so an instruction with another payload is still the first to do so.
  have first : ∀ deciding : Instruction, deciding.condition = instruction.condition →
      (earlier ++ deciding :: later).find? decides = some deciding := by
    intro deciding same
    refine List.find?_eq_some_iff_append.mpr ⟨?_, earlier, later, rfl, by simpa using passed⟩
    simpa only [decides, Instruction.decides, same] using decisive
  obtain ⟨answered, stored⟩ := handle_of_deciding read (first instruction rfl)
  refine ⟨earlier, instruction, later, front, back, read, passed, decisive, given, whole, shorter,
    text, present, text.1.unpadded, rfl, ?_, ?_⟩
  · intro tasks records request logged headers received encoded
    obtain ⟨response, _⟩ := Timeline.exchange_accepted
      { clock := now, store, tasks, records } received
    rw [response, Http.encodeAnswer, replied]
    simp only [encoded]
  · intro payload payloadText payloadPresent exchanged
    have exchangedOk := exchangedRead payload payloadText payloadPresent
    have sameFirst := first { instruction with reply := some payload } rfl
    obtain ⟨exchangedAnswered, exchangedStored⟩ :=
      @handle_of_deciding now exchanged store _ _ exchangedOk sameFirst
    obtain ⟨_, _, _, exchangedAnswer⟩ := Instruction.exists_payload (answered ▸ replied)
    refine ⟨exchangedOk, ?_, ?_⟩
    · rw [exchangedAnswered, exchangedAnswer, answered]
      rfl
    · rw [exchangedStored, stored]
      rfl

theorem reply_verbatim_note :
    let note : Event :=
      { id := "1", type := "note", source := "/", specVersion := "1.0",
        dataContentType := some "application/json",
        data := Bytes.ofText "[[\"\", \"ack+event\", \x7b\"a\": [1, 2]\x7d ]]" }
    let reply := note.replyWith (Bytes.ofText "\x7b\"a\": [1, 2]\x7d")
    (handle 0 note (CountStore.ofTtl 1)).verdict.answer.reply = some reply ∧
      ∃ front back, note.data = front ++ reply.data ++ back := by
  intro note reply
  have replied : (handle 0 note (CountStore.ofTtl 1)).verdict.answer.reply = some reply := by
    decide +kernel
  obtain ⟨_, _, _, front, back, _, _, _, _, whole, _⟩ := reply_verbatim replied
  exact ⟨replied, front, back, whole⟩

end Delivery

end ScriptedResponder
