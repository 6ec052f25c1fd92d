import ScriptedResponder.Proofs.Delivery.Verdict

/-!
Stores that deliveries cannot tell apart. A likeness relates stores that count alike, now and later,
and is kept by whatever a client may do to both. Deliveries of one event to two such stores come to
the same verdict, log the same, and leave stores that are alike again.
-/

set_option autoImplicit false

namespace ScriptedResponder

structure Likeness where
  alike : Nat → CountStore → CountStore → Prop
  ttl {now left right} : alike now left right → left.ttl = right.ttl
  count {now left right} : alike now left right → ∀ id, left.get now id = right.get now id
  later {now later left right} : alike now left right → now ≤ later → alike later left right
  increase {now left right} : alike now left right →
    ∀ id, alike now (left.increase now id) (right.increase now id)
  delete {now left right} : alike now left right →
    ∀ id, alike now (left.delete id) (right.delete id)
  reset {now left right} : alike now left right → alike now left.reset right.reset

namespace Likeness

variable {likeness : Likeness} {now : Nat} {event : Event} {left right : CountStore}

theorem observed (alike : likeness.alike now left right) (id : String) :
    left.observed now id = right.observed now id := by
  simp only [CountStore.observed, likeness.count alike id, likeness.ttl alike]

theorem execute (alike : likeness.alike now left right) (instruction : Instruction)
    (action : Action) :
    let ofLeft := Delivery.execute now event instruction left action
    let ofRight := Delivery.execute now event instruction right action
    ofLeft.stage = ofRight.stage ∧ ofLeft.records = ofRight.records ∧
      likeness.alike now ofLeft.store ofRight.store := by
  cases action with
  | ackWithEvent | nackWithEvent =>
      cases payload : instruction.reply <;>
        simp only [Delivery.execute, Delivery.replyBy, payload, Delivery.refusedBy,
          Delivery.answeredBy, true_and] <;>
        exact alike
  | ack | nack | delayAck seconds => exact ⟨rfl, rfl, alike⟩
  | reset => exact ⟨rfl, rfl, likeness.reset alike⟩

theorem step (alike : likeness.alike now left right) (stage : Stage) :
    let ofLeft := Delivery.step now event left stage
    let ofRight := Delivery.step now event right stage
    ofLeft.stage = ofRight.stage ∧ ofLeft.records = ofRight.records ∧
      likeness.alike now ofLeft.store ofRight.store := by
  cases stage with
  | received =>
      cases read : Instruction.ofBody event.data with
      | error error =>
          simp only [Delivery.step, read, true_and]
          exact alike
      | ok instructions =>
          simp only [Delivery.step, read, observed alike event.id, true_and]
          exact likeness.increase alike event.id
  | judging instructions =>
      cases instructions with
      | nil => exact ⟨rfl, rfl, alike⟩
      | cons instruction remaining =>
          cases read : Condition.ofText instruction.condition with
          | error error =>
              simp only [Delivery.step, read, true_and]
              exact alike
          | ok condition =>
              simp only [Delivery.step, read, Delivery.retries, likeness.count alike event.id]
              exact ⟨rfl, trivial, alike⟩
  | deciding instruction =>
      cases read : Action.ofText instruction.action with
      | error error =>
          simp only [Delivery.step, read, Delivery.refusedBy, true_and]
          exact alike
      | ok action =>
          simp only [Delivery.step, read]
          exact execute alike instruction action
  | decided verdict => exact ⟨rfl, rfl, alike⟩

theorem decideFrom (alike : likeness.alike now left right) (records : List LogRecord)
    (stage : Stage) :
    let ofLeft := Delivery.decideFrom now event left records stage
    let ofRight := Delivery.decideFrom now event right records stage
    ofLeft.verdict = ofRight.verdict ∧ ofLeft.records = ofRight.records ∧
      likeness.alike now ofLeft.store ofRight.store := by
  fun_induction Delivery.decideFrom now event left records stage generalizing right with
  | case1 left records stage verdict decided =>
      cases stage with
      | decided settled =>
          obtain rfl := Option.some.inj decided
          rw [Delivery.decideFrom_decided]
          exact ⟨rfl, rfl, alike⟩
      | received | judging remaining | deciding instruction => cases decided
  | case2 left records stage undecided _ =>
      rename_i ih
      obtain ⟨sameStage, sameRecords, alikeNext⟩ := step alike stage
      have further := ih alikeNext
      rw [sameStage, sameRecords] at further
      rw [Delivery.decideFrom_step undecided, sameStage, sameRecords]
      exact further

/-- Deliveries to stores that are alike go alike. -/
theorem handle (alike : likeness.alike now left right) (event : Event) :
    let ofLeft := Delivery.handle now event left
    let ofRight := Delivery.handle now event right
    ofLeft.verdict = ofRight.verdict ∧ ofLeft.records = ofRight.records ∧
      likeness.alike now ofLeft.store ofRight.store :=
  decideFrom alike [] .received

end Likeness

end ScriptedResponder
