import ScriptedResponder.Proofs.Delivery.Verdict

/-!
The ways in which a delivery ends. There are seven, from instructions that cannot be read to a
pause, and `ends_handle` says that every delivery ends in one of them, with the verdict, the store
and the records that go with it. What holds of every delivery is proved of each way, and nothing
that follows has to look at stages again.
-/

set_option autoImplicit false

namespace ScriptedResponder.Delivery

def reception (now : Nat) (event : Event) (store : CountStore) (instructions : List Instruction) :
    LogRecord :=
  .received event.id (store.observed now event.id).count instructions.length

def deciding? (now : Nat) (event : Event) (store : CountStore) (instructions : List Instruction) :
    Option Instruction :=
  instructions.find? (Instruction.decides (retries now event (store.increase now event.id)))

def action? (now : Nat) (event : Event) (store : CountStore) : Option Action :=
  match Instruction.ofBody event.data with
  | .error _ => none
  | .ok instructions => (deciding? now event store instructions).bind Instruction.executed?

def Replies (action : Action) : Prop := action = .ackWithEvent ∨ action = .nackWithEvent

structure DecidedBy (now : Nat) (event : Event) (store : CountStore)
    (instructions : List Instruction) (instruction : Instruction) : Prop where
  read : Instruction.ofBody event.data = .ok instructions
  found : deciding? now event store instructions = some instruction

/-- An action that a delivery comes to, with the instruction that asks for it. -/
structure Undertakes (now : Nat) (event : Event) (store : CountStore)
    (instructions : List Instruction) (instruction : Instruction) (action : Action) : Prop
    extends DecidedBy now event store instructions instruction where
  judged : ∃ condition, Condition.ofText instruction.condition = .ok condition
  understood : Action.ofText instruction.action = .ok action

inductive Ends (now : Nat) (event : Event) (store : CountStore) : Decision → Prop
  | unreadable {error : DecodeError} (read : Instruction.ofBody event.data = .error error) :
      Ends now event store
        { verdict := .answered .nack, store, records := [.undecodable event.id error] }
  | unconcerned {instructions : List Instruction}
      (read : Instruction.ofBody event.data = .ok instructions)
      (passed : deciding? now event store instructions = none) :
      Ends now event store
        { verdict := .answered .ack
          store := store.increase now event.id
          records := [reception now event store instructions, .nothingApplied event.id] }
  | misjudged {instructions : List Instruction} {instruction : Instruction} {error : ConditionError}
      (decided : DecidedBy now event store instructions instruction)
      (malformed : Condition.ofText instruction.condition = .error error) :
      Ends now event store
        { verdict := .answered .nack
          store := store.increase now event.id
          records :=
            [reception now event store instructions, .conditionFailed event.id error] }
  | misunderstood {instructions : List Instruction} {instruction : Instruction}
      {condition : Condition} {error : ActionError}
      (decided : DecidedBy now event store instructions instruction)
      (judged : Condition.ofText instruction.condition = .ok condition)
      (malformed : Action.ofText instruction.action = .error error) :
      Ends now event store
        { verdict := .answered .nack
          store := store.increase now event.id
          records :=
            [reception now event store instructions,
              .actionFailed event.id instruction.action error] }
  | withoutPayload {instructions : List Instruction} {instruction : Instruction} {action : Action}
      (undertakes : Undertakes now event store instructions instruction action)
      (replies : Replies action) (missing : instruction.reply = none) :
      Ends now event store
        { verdict := .answered .nack
          store := store.increase now event.id
          records :=
            [reception now event store instructions,
              .actionFailed event.id action.name (.missingReply action.name)] }
  | executed {instructions : List Instruction} {instruction : Instruction} {action : Action}
      (undertakes : Undertakes now event store instructions instruction action)
      (prompt : ∀ seconds, action ≠ .delayAck seconds)
      (payload : Replies action → instruction.reply ≠ none) :
      Ends now event store
        { verdict := .answered (action.answer event instruction.reply)
          store := if action = .reset then store.reset else store.increase now event.id
          records :=
            reception now event store instructions ::
              (if action = .reset then [.countsDiscarded event.id] else []) ++
              [.executed event.id action (action.answer event instruction.reply).outcome
                (action.answer event instruction.reply).reply.isSome] }
  | pausing {instructions : List Instruction} {instruction : Instruction} {seconds : Nat}
      (undertakes : Undertakes now event store instructions instruction (.delayAck seconds)) :
      Ends now event store
        { verdict := .pausing seconds (Instant.deadline now (Period.ofSeconds seconds))
          store := store.increase now event.id
          records := [reception now event store instructions] }

variable {now : Nat} {event : Event} {store : CountStore} {instructions : List Instruction}
  {instruction : Instruction}

theorem Undertakes.ends {action : Action}
    (undertakes : Undertakes now event store instructions instruction action) :
    let executed := execute now event instruction (store.increase now event.id) action
    Ends now event store
      (decideFrom now event executed.store
        (reception now event store instructions :: executed.records) executed.stage) := by
  cases action with
  | delayAck seconds =>
      simp only [execute, decideFrom_decided]
      exact .pausing undertakes
  | ackWithEvent | nackWithEvent =>
      cases payload : instruction.reply with
      | none =>
          simp only [execute, replyBy, payload, refusedBy, decideFrom_decided]
          exact .withoutPayload undertakes (by simp [Replies]) payload
      | some text =>
          have executed := Ends.executed undertakes (by simp) (fun _ => by simp [payload])
          simpa only [execute, replyBy, payload, answeredBy, decideFrom_decided, Action.answer,
            Answer.replying, reduceCtorEq, if_false, List.nil_append, List.cons_append]
            using executed
  | ack | nack =>
      have executed := Ends.executed undertakes (by simp) (by simp [Replies])
      simpa only [execute, answeredBy, decideFrom_decided, Action.answer, reduceCtorEq, if_false,
        List.nil_append, List.cons_append] using executed
  | reset =>
      have executed := Ends.executed undertakes (by simp) (by simp [Replies])
      have emptied : (store.increase now event.id).reset = store.reset := rfl
      simpa only [execute, answeredBy, decideFrom_decided, Action.answer, emptied, if_true,
        List.nil_append, List.cons_append] using executed

theorem ends_handle (now : Nat) (event : Event) (store : CountStore) :
    Ends now event store (handle now event store) := by
  cases read : Instruction.ofBody event.data with
  | error error =>
      rw [handle_of_error read]
      exact .unreadable read
  | ok instructions =>
      rw [handle_of_ok read, decideFrom_judging]
      cases found : deciding? now event store instructions with
      | none =>
          have passed := found
          unfold deciding? at passed
          rw [passed]
          exact .unconcerned read found
      | some instruction =>
          have decided : DecidedBy now event store instructions instruction := ⟨read, found⟩
          unfold deciding? at found
          rw [found]
          cases judged : Condition.ofText instruction.condition with
          | error error =>
              simp only [judged]
              exact .misjudged decided judged
          | ok condition =>
              cases understood : Action.ofText instruction.action with
              | error error =>
                  simp only [judged, decideFrom_deciding_of_error understood]
                  exact .misunderstood decided judged understood
              | ok action =>
                  simp only [judged, decideFrom_deciding_of_ok understood]
                  exact Undertakes.ends
                    { toDecidedBy := decided, judged := ⟨condition, judged⟩, understood }

/-! ### The action come to -/

theorem action?_of_decidedBy (decided : DecidedBy now event store instructions instruction) :
    action? now event store = instruction.executed? := by
  simp only [action?, decided.read, decided.found, Option.bind_some]

theorem Undertakes.action? {action : Action}
    (undertakes : Undertakes now event store instructions instruction action) :
    action? now event store = some action := by
  obtain ⟨condition, judged⟩ := undertakes.judged
  rw [action?_of_decidedBy undertakes.toDecidedBy]
  simp only [Instruction.executed?, judged, undertakes.understood]

theorem Ends.verdict_eq_pausing_iff {decision : Decision} (ends : Ends now event store decision)
    (seconds deadline : Nat) :
    decision.verdict = .pausing seconds deadline ↔
      action? now event store = some (.delayAck seconds) ∧
        deadline = Instant.deadline now (Period.ofSeconds seconds) := by
  cases ends with
  | unreadable read => simp [action?, read]
  | unconcerned read passed => simp [action?, read, passed]
  | misjudged decided malformed =>
      simp [action?_of_decidedBy decided, Instruction.executed?, malformed]
  | misunderstood decided judged malformed =>
      simp [action?_of_decidedBy decided, Instruction.executed?, judged, malformed]
  | withoutPayload undertakes replies missing =>
      rcases replies with rfl | rfl <;> simp [undertakes.action?]
  | executed undertakes prompt payload => simp [undertakes.action?, prompt]
  | pausing undertakes =>
      rw [undertakes.action?]
      constructor
      · rintro ⟨rfl, rfl⟩
        exact ⟨rfl, rfl⟩
      · rintro ⟨same, rfl⟩
        obtain rfl := Action.delayAck.inj (Option.some.inj same)
        rfl

/-- A delivery pauses exactly if it comes to a delayed acknowledgement, and until its deadline. -/
theorem verdict_eq_pausing_iff (seconds deadline : Nat) :
    (handle now event store).verdict = .pausing seconds deadline ↔
      action? now event store = some (.delayAck seconds) ∧
        deadline = Instant.deadline now (Period.ofSeconds seconds) :=
  (ends_handle now event store).verdict_eq_pausing_iff seconds deadline

theorem store_of_delayed {seconds : Nat}
    (delays : action? now event store = some (.delayAck seconds)) :
    (handle now event store).store = store.increase now event.id := by
  have pauses := (verdict_eq_pausing_iff seconds _).mpr ⟨delays, rfl⟩
  have ends := ends_handle now event store
  generalize handle now event store = decision at ends pauses
  cases ends with
  | pausing => rfl
  | unreadable | unconcerned | misjudged | misunderstood | withoutPayload | executed => cases pauses

theorem exists_answered (prompt : ∀ seconds, action? now event store ≠ some (.delayAck seconds)) :
    ∃ answer, (handle now event store).verdict = .answered answer := by
  cases verdict : (handle now event store).verdict with
  | answered answer => exact ⟨answer, rfl⟩
  | pausing seconds deadline =>
      exact absurd ((verdict_eq_pausing_iff seconds deadline).mp verdict).1 (prompt seconds)

end ScriptedResponder.Delivery
