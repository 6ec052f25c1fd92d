import ScriptedResponder.Proofs.Delivery.Endings

/-!
What one delivery logs. A delivery that has been counted says so first, and when it is over it says
how it ended, once and last; while it pauses it has said no more than that it was counted.
`Truthful` puts what is said beside the delivery itself, field by field, for each of the ways in
which a delivery ends.
-/

set_option autoImplicit false

namespace ScriptedResponder

def LogRecord.field? (name : String) (record : LogRecord) : Option LogValue :=
  record.fields.lookup name

def LogRecord.tellsReception : LogRecord → Bool
  | .received .. => true
  | .undecodable .. | .conditionFailed .. | .actionFailed .. | .countsDiscarded .. | .executed .. |
    .nothingApplied .. | .invalidEvent .. | .receivedOverHttp .. | .replyNotEncodable .. |
    .staleRemoved .. | .sweepingEnded => false

structure Call where
  now : Nat
  event : Event
  store : CountStore
  deriving DecidableEq, Repr

namespace Call

def decision (call : Call) : Delivery.Decision :=
  Delivery.handle call.now call.event call.store

def answer (call : Call) : Answer := call.decision.verdict.answer

def isOver (clock : Nat) (call : Call) : Bool :=
  match call.decision.verdict with
  | .answered _ => true
  | .pausing _ deadline => deadline ≤ clock

def closing (call : Call) : List LogRecord :=
  match call.decision.verdict with
  | .answered _ => []
  | .pausing seconds _ => [Delivery.pauseRecord call.event seconds]

/-- What a delivery has logged when it is over, or before. -/
def told (ended : Bool) (call : Call) : List LogRecord :=
  call.decision.records ++ if ended then call.closing else []

def records (clock : Nat) (call : Call) : List LogRecord := call.told (call.isOver clock)

/-- A delivery fails whose instructions cannot be read, or whose deciding instruction has a
malformed condition, an action that cannot be read, or no payload for the reply it asks for. -/
def Fails (call : Call) : Prop :=
  match Instruction.ofBody call.event.data with
  | .error _ => True
  | .ok instructions =>
      match Delivery.deciding? call.now call.event call.store instructions with
      | none => False
      | some instruction =>
          match Condition.ofText instruction.condition, Action.ofText instruction.action with
          | .error _, _ | .ok _, .error _ => True
          | .ok _, .ok action => Delivery.Replies action ∧ instruction.reply = none

def action? (call : Call) : Option Action := Delivery.action? call.now call.event call.store

structure Concludes (call : Call) (earlier : List LogRecord) (last : LogRecord) : Prop where
  level : last.level = .info
  others : ∀ record ∈ earlier, record.level = .debug
  event : last.field? "event_id" = some (.text call.event.id)
  result : last.field? "result" = some (.text call.answer.outcome.name)
  error : (last.field? "error").isSome = true ↔ call.Fails
  refused : call.Fails → call.answer.outcome = .nack
  action : ∀ action, ¬ call.Fails → call.action? = some action →
    last.field? "action" = some (.text action.name) ∧
      last.field? "reply" = some (.truth call.answer.reply.isSome)

def receptions (call : Call) : List LogRecord :=
  match Instruction.ofBody call.event.data with
  | .error _ => []
  | .ok instructions => [Delivery.reception call.now call.event call.store instructions]

structure Truthful (clock : Nat) (call : Call) : Prop where
  ended : call.isOver clock = true →
    ∃ earlier last, call.records clock = earlier ++ [last] ∧ call.Concludes earlier last
  waiting : call.isOver clock = false →
    call.records clock = call.receptions ∧ ∃ reception, call.receptions = [reception]
  receptions : (call.records clock).filter LogRecord.tellsReception = call.receptions

variable {call : Call}

theorem ends_decision (call : Call) :
    Delivery.Ends call.now call.event call.store call.decision :=
  Delivery.ends_handle call.now call.event call.store

theorem Concludes.ofFailure {earlier : List LogRecord} {last : LogRecord} (fails : call.Fails)
    (answer : call.answer = .nack) (others : ∀ record ∈ earlier, record.level = .debug)
    (level : last.level = .info) (event : last.field? "event_id" = some (.text call.event.id))
    (result : last.field? "result" = some (.text Outcome.nack.name))
    (error : (last.field? "error").isSome = true) : call.Concludes earlier last where
  level := level
  others := others
  event := event
  result := by
    rw [answer]
    exact result
  error := iff_of_true error fails
  refused := fun _ => congrArg Answer.outcome answer
  action := fun _ succeeds => absurd fails succeeds

theorem Concludes.ofSuccess {earlier : List LogRecord} {last : LogRecord}
    (succeeds : ¬ call.Fails) (others : ∀ record ∈ earlier, record.level = .debug)
    (level : last.level = .info) (event : last.field? "event_id" = some (.text call.event.id))
    (result : last.field? "result" = some (.text call.answer.outcome.name))
    (error : last.field? "error" = none)
    (action : ∀ action, call.action? = some action →
      last.field? "action" = some (.text action.name) ∧
        last.field? "reply" = some (.truth call.answer.reply.isSome)) :
    call.Concludes earlier last where
  level := level
  others := others
  event := event
  result := result
  error := by simp [error, succeeds]
  refused := fun fails => absurd fails succeeds
  action := fun chosen _ => action chosen

theorem Concludes.ofExecuted {earlier : List LogRecord} {action : Action} (succeeds : ¬ call.Fails)
    (others : ∀ record ∈ earlier, record.level = .debug) (comes : call.action? = some action) :
    call.Concludes earlier
      (.executed call.event.id action call.answer.outcome call.answer.reply.isSome) := by
  refine .ofSuccess succeeds others rfl rfl rfl rfl ?_
  intro other same
  obtain rfl := Option.some.inj (comes.symm.trans same)
  exact ⟨rfl, rfl⟩

theorem told_true (call : Call) :
    ∃ earlier last, call.told true = earlier ++ [last] ∧ call.Concludes earlier last := by
  have ends := call.ends_decision
  unfold told closing
  generalize same : call.decision = decision at ends
  have answer : call.answer = decision.verdict.answer := congrArg (·.verdict.answer) same
  cases ends with
  | unreadable read =>
      have fails : call.Fails := by simp [Fails, read]
      exact ⟨[], _, rfl, .ofFailure fails answer (fun _ => nofun) rfl rfl rfl rfl⟩
  | unconcerned read passed =>
      have succeeds : ¬ call.Fails := by simp [Fails, read, passed]
      refine ⟨[_], _, rfl,
        .ofSuccess succeeds (List.forall_mem_singleton.mpr rfl) rfl rfl ?_ rfl ?_⟩
      · rw [answer]
        rfl
      · simp [Call.action?, Delivery.action?, read, passed]
  | misjudged decided malformed =>
      have fails : call.Fails := by simp [Fails, decided.read, decided.found, malformed]
      exact ⟨[_], _, rfl,
        .ofFailure fails answer (List.forall_mem_singleton.mpr rfl) rfl rfl rfl rfl⟩
  | misunderstood decided judged malformed =>
      have fails : call.Fails := by simp [Fails, decided.read, decided.found, judged, malformed]
      exact ⟨[_], _, rfl,
        .ofFailure fails answer (List.forall_mem_singleton.mpr rfl) rfl rfl rfl rfl⟩
  | withoutPayload undertakes replies missing =>
      obtain ⟨condition, judged⟩ := undertakes.judged
      have fails : call.Fails := by
        simp [Fails, undertakes.read, undertakes.found, judged, undertakes.understood, replies,
          missing]
      exact ⟨[_], _, rfl,
        .ofFailure fails answer (List.forall_mem_singleton.mpr rfl) rfl rfl rfl rfl⟩
  | @executed instructions instruction action undertakes prompt payload =>
      obtain ⟨condition, judged⟩ := undertakes.judged
      have succeeds : ¬ call.Fails := by
        simpa [Fails, undertakes.read, undertakes.found, judged, undertakes.understood]
          using payload
      have comes : call.action? = some action := undertakes.action?
      have answers : call.answer = action.answer call.event instruction.reply := answer
      rw [← answers]
      refine ⟨_, _, List.append_nil _, .ofExecuted succeeds ?_ comes⟩
      intro record member
      rcases List.mem_cons.mp member with rfl | discarded
      · rfl
      · split at discarded
        · obtain rfl := List.mem_singleton.mp discarded
          rfl
        · cases discarded
  | @pausing instructions instruction seconds undertakes =>
      obtain ⟨condition, judged⟩ := undertakes.judged
      have succeeds : ¬ call.Fails := by
        simp [Fails, undertakes.read, undertakes.found, judged, undertakes.understood,
          Delivery.Replies]
      have comes : call.action? = some (.delayAck seconds) := undertakes.action?
      have counted : ∀ record ∈ [Delivery.reception call.now call.event call.store instructions],
          record.level = .debug := List.forall_mem_singleton.mpr rfl
      have concludes := Concludes.ofExecuted succeeds counted comes
      rw [answer] at concludes
      exact ⟨[_], _, rfl, concludes⟩

theorem receptions_of_read {instructions : List Instruction}
    (read : Instruction.ofBody call.event.data = .ok instructions) :
    call.receptions = [Delivery.reception call.now call.event call.store instructions] := by
  simp only [receptions, read]

theorem told_false {seconds deadline : Nat}
    (pauses : call.decision.verdict = .pausing seconds deadline) :
    call.told false = call.receptions ∧ ∃ reception, call.receptions = [reception] := by
  have ends := call.ends_decision
  unfold told
  generalize call.decision = decision at ends pauses
  cases ends with
  | @pausing instructions instruction seconds undertakes =>
      have counted := receptions_of_read undertakes.read
      exact ⟨counted.symm, _, counted⟩
  | unreadable | unconcerned | misjudged | misunderstood | withoutPayload | executed => cases pauses

theorem filter_told (ended : Bool) (call : Call) :
    (call.told ended).filter LogRecord.tellsReception = call.receptions := by
  have ends := call.ends_decision
  have closed : (if ended then call.closing else []).filter LogRecord.tellsReception = [] := by
    unfold closing
    cases ended with
    | false => rfl
    | true => cases call.decision.verdict <;> rfl
  unfold told
  rw [List.filter_append, closed, List.append_nil]
  generalize call.decision = decision at ends
  cases ends with
  | unreadable read =>
      simp only [receptions, read]
      rfl
  | unconcerned read passed =>
      rw [receptions_of_read read]
      rfl
  | misjudged decided malformed =>
      rw [receptions_of_read decided.read]
      rfl
  | misunderstood decided judged malformed =>
      rw [receptions_of_read decided.read]
      rfl
  | withoutPayload undertakes replies missing =>
      rw [receptions_of_read undertakes.read]
      rfl
  | @executed instructions instruction action undertakes prompt payload =>
      rw [receptions_of_read undertakes.read]
      by_cases resets : action = .reset
      · simp only [if_pos resets]
        rfl
      · simp only [if_neg resets]
        rfl
  | pausing undertakes =>
      rw [receptions_of_read undertakes.read]
      rfl

/-- Every delivery says at every instant what is true of it. -/
theorem truthful (clock : Nat) (call : Call) : call.Truthful clock where
  ended := by
    intro ended
    unfold records
    rw [ended]
    exact call.told_true
  waiting := by
    intro waits
    unfold records
    rw [waits]
    unfold isOver at waits
    cases verdict : call.decision.verdict with
    | answered answer =>
        rw [verdict] at waits
        cases waits
    | pausing seconds deadline => exact told_false verdict
  receptions := call.filter_told _

end Call

end ScriptedResponder
