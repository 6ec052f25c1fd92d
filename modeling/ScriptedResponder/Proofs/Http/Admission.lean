import ScriptedResponder.Proofs.Scenario.Account

/-!
What a request must pass before its event is delivered: the path, the length of its body, its method
and its decoding, in this order. One that is turned away leaves the timeline as it was but for what
is logged of it, and no record of that tells of a delivery. One that is accepted is delivered once,
and its response is the encoding of the answer.
-/

set_option autoImplicit false

namespace ScriptedResponder

/-! ### The records of deliveries -/

def LogRecord.tellsDelivery : LogRecord → Bool
  | .undecodable .. | .received .. | .conditionFailed .. | .actionFailed .. | .countsDiscarded .. |
    .executed .. | .nothingApplied .. => true
  | .invalidEvent .. | .receivedOverHttp .. | .replyNotEncodable .. | .staleRemoved .. |
    .sweepingEnded => false

namespace Delivery

variable {now : Nat} {event : Event} {store : CountStore} {records : List LogRecord}

theorem tellsDelivery_execute (instruction : Instruction) (action : Action) :
    ∀ record ∈ (execute now event instruction store action).records,
      record.tellsDelivery = true := by
  cases action with
  | ackWithEvent | nackWithEvent =>
      cases payload : instruction.reply <;>
        simp only [execute, replyBy, payload, refusedBy, answeredBy, List.nil_append,
          List.forall_mem_singleton, LogRecord.tellsDelivery]
  | ack | nack | delayAck seconds | reset =>
      simp [execute, answeredBy, LogRecord.tellsDelivery]

theorem tellsDelivery_step (stage : Stage) :
    ∀ record ∈ (step now event store stage).records, record.tellsDelivery = true := by
  cases stage with
  | received =>
      cases read : Instruction.ofBody event.data <;>
        simp only [step, read, List.forall_mem_singleton, LogRecord.tellsDelivery]
  | judging instructions =>
      cases instructions with
      | nil => simp only [step, List.forall_mem_singleton, LogRecord.tellsDelivery]
      | cons instruction remaining =>
          cases read : Condition.ofText instruction.condition <;>
            simp [step, read, LogRecord.tellsDelivery]
  | deciding instruction =>
      cases read : Action.ofText instruction.action with
      | error error =>
          simp only [step, read, refusedBy, List.forall_mem_singleton, LogRecord.tellsDelivery]
      | ok action =>
          simp only [step, read]
          exact tellsDelivery_execute instruction action
  | decided verdict =>
      intro record member
      cases member

theorem tellsDelivery_decideFrom (stage : Stage)
    (told : ∀ record ∈ records, record.tellsDelivery = true) :
    ∀ record ∈ (decideFrom now event store records stage).records,
      record.tellsDelivery = true := by
  fun_induction decideFrom now event store records stage with
  | case1 store records stage verdict decided => exact told
  | case2 store records stage undecided progress ih =>
      apply ih
      intro record member
      rcases List.mem_append.mp member with earlier | latest
      · exact told record earlier
      · exact tellsDelivery_step stage record latest

theorem tellsDelivery_handle :
    ∀ record ∈ (handle now event store).records, record.tellsDelivery = true :=
  tellsDelivery_decideFrom .received fun _ member => by cases member

end Delivery

/-! ### Admission -/

namespace Timeline

/-- Nothing has been delivered: what was there is there, and no new record tells of a delivery. -/
structure Undelivered (before after : Timeline) : Prop where
  clock : after.clock = before.clock
  store : after.store = before.store
  tasks : after.tasks = before.tasks
  records : ∃ logged, after.records = before.records ++ logged ∧
    ∀ record ∈ logged, record.tellsDelivery = false

theorem undelivered_log {records : List LogRecord} (timeline : Timeline)
    (aside : ∀ record ∈ records, record.tellsDelivery = false) :
    timeline.Undelivered (timeline.log records) where
  clock := rfl
  store := rfl
  tasks := rfl
  records := ⟨records, rfl, aside⟩

theorem session_attend (event : Event) (timeline : Timeline) :
    let decision := Delivery.handle timeline.clock event timeline.store
    let decided : Session := { clock := timeline.clock, store := decision.store }
    match decision.verdict with
    | .answered _ => (timeline.attend event).2.session = decided
    | .pausing _ _ => decided.Elapses (timeline.attend event).2.session := by
  intro decision decided
  have elapses := elapses_attend event timeline
  cases verdict : decision.verdict with
  | answered answer =>
      have settled : timeline.decide event = (.answered answer, (timeline.decide event).2) :=
        congrArg (·, (timeline.decide event).2) verdict
      simp only [attend]
      rw [settled]
      rfl
  | pausing seconds deadline => exact elapses

theorem exchange_answered {request : Http.Request} {response : Http.Response}
    {records : List LogRecord} (timeline : Timeline)
    (received : Http.receive request = (.answered response, records))
    (aside : ∀ record ∈ records, record.tellsDelivery = false) :
    (timeline.exchange request).1 = response ∧
      timeline.Undelivered (timeline.exchange request).2 := by
  unfold exchange
  rw [received]
  exact ⟨rfl, timeline.undelivered_log aside⟩

theorem exchange_accepted {request : Http.Request} {event : Event} {records : List LogRecord}
    (timeline : Timeline) (received : Http.receive request = (.accepted event, records)) :
    let decision := Delivery.handle timeline.clock event timeline.store
    let decided : Session := { clock := timeline.clock, store := decision.store }
    (timeline.exchange request).1 = (Http.encodeAnswer decision.verdict.answer).1 ∧
      match decision.verdict with
      | .answered _ => (timeline.exchange request).2.session = decided
      | .pausing _ _ => decided.Elapses (timeline.exchange request).2.session := by
  unfold exchange
  rw [received]
  constructor
  · exact congrArg (fun answer => (Http.encodeAnswer answer).1)
      ((timeline.log records).attend_answer event)
  · exact (timeline.log records).session_attend event

end Timeline

namespace Http

theorem status_encodeAnswer (answer : Answer) :
    (encodeAnswer answer).1.status ∈ [200, 202, 500] := by
  have own : statusOf answer ∈ [200, 202, 500] := by
    unfold statusOf
    split <;> simp
  unfold encodeAnswer
  split
  · exact own
  · split
    · simp [Response.bare]
    · exact own

theorem status_healthResponse (method : String) :
    (healthResponse method).status = if method = "GET" ∨ method = "HEAD" then 204 else 405 := by
  unfold healthResponse
  split <;> rfl

theorem status_tooLargeResponse (method : String) : (tooLargeResponse method).status = 413 := by
  unfold tooLargeResponse
  split <;> rfl

end Http

theorem Delivery.store_decided (now : Nat) (event : Event) (store : CountStore) :
    match Instruction.ofBody event.data with
    | .error _ => (handle now event store).store = store
    | .ok instructions =>
        let counted := store.increase now event.id
        (handle now event store).store =
          if executed? (retries now event counted) instructions = some .reset then
            { store with entries := [] }
          else counted := by
  cases read : Instruction.ofBody event.data with
  | error error => simp only [handle_of_error read]
  | ok instructions =>
      rw [store_handle read]
      rfl

/-- Whatever is turned away leaves no trace in the store, and whatever is not is delivered once. -/
theorem exchange_admission (request : Http.Request) (timeline : Timeline) :
    let exchanged := timeline.exchange request
    if Http.route request.path = Http.healthPath then
      exchanged.1.status = (if request.method = "GET" ∨ request.method = "HEAD" then 204 else 405) ∧
        timeline.Undelivered exchanged.2
    else if Http.bodyLimit < request.body.length then
      exchanged.1.status = 413 ∧ timeline.Undelivered exchanged.2
    else if request.method ≠ "POST" then
      exchanged.1.status = 405 ∧ timeline.Undelivered exchanged.2
    else
      match Http.decodeEvent request.headers request.body with
      | .error _ => exchanged.1.status = 400 ∧ timeline.Undelivered exchanged.2
      | .ok event =>
          let decision := Delivery.handle timeline.clock event timeline.store
          let decided : Session := { clock := timeline.clock, store := decision.store }
          exchanged.1 = (Http.encodeAnswer decision.verdict.answer).1 ∧
          exchanged.1.status ∈ [200, 202, 500] ∧
          (∀ record ∈ decision.records, record.tellsDelivery = true) ∧
          (match Instruction.ofBody event.data with
            | .error _ => decision.store = timeline.store
            | .ok instructions =>
                let counted := timeline.store.increase timeline.clock event.id
                let retries := Delivery.retries timeline.clock event counted
                decision.store =
                  if Delivery.executed? retries instructions = some .reset then
                    { timeline.store with entries := [] }
                  else counted) ∧
          match decision.verdict with
          | .answered _ => exchanged.2.session = decided
          | .pausing _ _ => decided.Elapses exchanged.2.session := by
  intro exchanged
  by_cases health : Http.route request.path = Http.healthPath
  · have received : Http.receive request = (.answered (Http.healthResponse request.method), []) := by
      simp only [Http.receive, if_pos health]
    obtain ⟨response, undelivered⟩ := timeline.exchange_answered received (by simp)
    rw [if_pos health, response]
    exact ⟨Http.status_healthResponse request.method, undelivered⟩
  by_cases long : Http.bodyLimit < request.body.length
  · have received :
        Http.receive request = (.answered (Http.tooLargeResponse request.method), []) := by
      simp only [Http.receive, if_neg health, if_pos long]
    obtain ⟨response, undelivered⟩ := timeline.exchange_answered received (by simp)
    rw [if_neg health, if_pos long, response]
    exact ⟨Http.status_tooLargeResponse request.method, undelivered⟩
  by_cases other : request.method ≠ "POST"
  · have received : Http.receive request = (.answered (.bare 405), []) := by
      simp only [Http.receive, if_neg health, if_neg long, if_pos other]
    obtain ⟨response, undelivered⟩ := timeline.exchange_answered received (by simp)
    rw [if_neg health, if_neg long, if_pos other, response]
    exact ⟨rfl, undelivered⟩
  rw [if_neg health, if_neg long, if_neg other]
  cases decoded : Http.decodeEvent request.headers request.body with
  | error error =>
      have received : Http.receive request =
          (.answered (.explained 400 error.message), [.invalidEvent error]) := by
        simp only [Http.receive, if_neg health, if_neg long, if_neg other, decoded]
      obtain ⟨response, undelivered⟩ := timeline.exchange_answered received
        (by simp [LogRecord.tellsDelivery])
      rw [response]
      exact ⟨rfl, undelivered⟩
  | ok event =>
      have received : Http.receive request =
          (.accepted event, [.receivedOverHttp event.id event.type]) := by
        simp only [Http.receive, if_neg health, if_neg long, if_neg other, decoded]
      obtain ⟨response, settled⟩ := timeline.exchange_accepted received
      refine ⟨response, ?_, Delivery.tellsDelivery_handle,
        Delivery.store_decided timeline.clock event timeline.store, settled⟩
      rw [response]
      exact Http.status_encodeAnswer _

end ScriptedResponder
