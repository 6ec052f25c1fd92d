import ScriptedResponder.Delivery

/-!
What a delivery comes to, without its stages. The first instruction decides whose condition is
malformed or true of the number of earlier deliveries; `handle` answers as that instruction says,
and acknowledges when there is none. It counts the delivery once if its instructions can be read,
and empties the store afterwards if the action carried out is a reset.
-/

set_option autoImplicit false

namespace ScriptedResponder

def Verdict.answer : Verdict → Answer
  | .answered answer => answer
  | .pausing _ _ => .ack

def Answer.replying (event : Event) (outcome : Outcome) : Option Bytes → Answer
  | none => .nack
  | some payload => { reply := some (event.replyWith payload), outcome }

def Action.answer (event : Event) (reply : Option Bytes) : Action → Answer
  | .ack | .delayAck _ | .reset => .ack
  | .nack => .nack
  | .ackWithEvent => .replying event .ack reply
  | .nackWithEvent => .replying event .nack reply

namespace Instruction

/-- Whether the condition is malformed or true of a number of earlier deliveries. -/
def decides (retries : Int) (instruction : Instruction) : Bool :=
  match Condition.ofText instruction.condition with
  | .error _ => true
  | .ok condition => condition.holds retries

def executed? (instruction : Instruction) : Option Action :=
  match Condition.ofText instruction.condition with
  | .error _ => none
  | .ok _ =>
      match Action.ofText instruction.action with
      | .error _ => none
      | .ok action => some action

def answer (event : Event) (instruction : Instruction) : Answer :=
  match instruction.executed? with
  | none => .nack
  | some action => action.answer event instruction.reply

end Instruction

namespace Delivery

def answerTo (event : Event) (retries : Int) (instructions : List Instruction) : Answer :=
  match instructions.find? (Instruction.decides retries) with
  | none => .ack
  | some instruction => instruction.answer event

def executed? (retries : Int) (instructions : List Instruction) : Option Action :=
  (instructions.find? (Instruction.decides retries)).bind Instruction.executed?

variable {now : Nat} {event : Event} {store : CountStore} {records : List LogRecord}

/-! ### The stages -/

theorem decideFrom_decided (verdict : Verdict) :
    decideFrom now event store records (.decided verdict) = { verdict, store, records } := by
  rw [decideFrom]
  rfl

theorem decideFrom_step {stage : Stage} (undecided : stage.verdict? = none) :
    decideFrom now event store records stage =
      decideFrom now event (step now event store stage).store
        (records ++ (step now event store stage).records) (step now event store stage).stage := by
  rw [decideFrom]
  split
  · rename_i verdict decided
    rw [undecided] at decided
    cases decided
  · rfl

/-- Judging reads the store and leaves it alone, so every condition sees the same number, and the
whole loop is one search. -/
theorem decideFrom_judging (instructions : List Instruction) :
    decideFrom now event store records (.judging instructions) =
      match instructions.find? (Instruction.decides (retries now event store)) with
      | none =>
          { verdict := .answered .ack, store, records := records ++ [.nothingApplied event.id] }
      | some instruction =>
          match Condition.ofText instruction.condition with
          | .error error =>
              { verdict := .answered .nack
                store
                records := records ++ [.conditionFailed event.id error] }
          | .ok _ => decideFrom now event store records (.deciding instruction) := by
  induction instructions with
  | nil =>
      rw [decideFrom_step rfl]
      exact decideFrom_decided _
  | cons instruction remaining ih =>
      rw [decideFrom_step rfl]
      cases read : Condition.ofText instruction.condition with
      | error error =>
          have decides : Instruction.decides (retries now event store) instruction = true := by
            simp only [Instruction.decides, read]
          rw [List.find?_cons_of_pos decides]
          simp only [step, read]
          exact decideFrom_decided _
      | ok condition =>
          by_cases holds : condition.holds (retries now event store) = true
          · have decides : Instruction.decides (retries now event store) instruction = true := by
              simpa only [Instruction.decides, read] using holds
            rw [List.find?_cons_of_pos decides]
            simp only [step, read, if_pos holds, List.append_nil]
          · have passes : ¬ Instruction.decides (retries now event store) instruction = true := by
              simpa only [Instruction.decides, read] using holds
            rw [List.find?_cons_of_neg passes, ← ih]
            simp only [step, read, if_neg holds, List.append_nil]

theorem decideFrom_deciding_of_error {instruction : Instruction} {error : ActionError}
    (read : Action.ofText instruction.action = .error error) :
    decideFrom now event store records (.deciding instruction) =
      { verdict := .answered .nack
        store
        records := records ++ [.actionFailed event.id instruction.action error] } := by
  rw [decideFrom_step rfl]
  simp only [step, read]
  exact decideFrom_decided _

theorem decideFrom_deciding_of_ok {instruction : Instruction} {action : Action}
    (read : Action.ofText instruction.action = .ok action) :
    decideFrom now event store records (.deciding instruction) =
      decideFrom now event (execute now event instruction store action).store
        (records ++ (execute now event instruction store action).records)
        (execute now event instruction store action).stage := by
  rw [decideFrom_step rfl]
  simp only [step, read]

theorem decideFrom_execute (now : Nat) (event : Event) (store : CountStore)
    (records : List LogRecord) (instruction : Instruction) (action : Action) :
    let executed := execute now event instruction store action
    let decision := decideFrom now event executed.store records executed.stage
    decision.verdict.answer = action.answer event instruction.reply ∧
      decision.store = if action = .reset then store.reset else store := by
  cases action with
  | ackWithEvent | nackWithEvent =>
      cases payload : instruction.reply <;>
        simp only [execute, replyBy, payload, refusedBy, answeredBy, decideFrom_decided,
          Verdict.answer, Action.answer, Answer.replying, reduceCtorEq, if_false, and_self]
  | ack | nack | delayAck seconds | reset =>
      simp only [execute, answeredBy, decideFrom_decided, Verdict.answer, Action.answer,
        reduceCtorEq, if_false, if_true, and_self]

/-! ### The whole of a delivery -/

theorem decideFrom_judging_spec (instructions : List Instruction) :
    let decision := decideFrom now event store records (.judging instructions)
    let retries := retries now event store
    decision.verdict.answer = answerTo event retries instructions ∧
      decision.store =
        if executed? retries instructions = some .reset then store.reset else store := by
  intro decision retries
  have judged : decision = _ := decideFrom_judging instructions
  cases found : instructions.find? (Instruction.decides retries) with
  | none =>
      rw [found] at judged
      simp only [judged, answerTo, executed?, found, Verdict.answer, Option.bind_none,
        reduceCtorEq, if_false, and_self]
  | some instruction =>
      rw [found] at judged
      simp only [answerTo, executed?, found, Option.bind_some, Instruction.answer,
        Instruction.executed?]
      cases readCondition : Condition.ofText instruction.condition with
      | error error =>
          simp only [readCondition] at judged
          simp only [judged, Verdict.answer, reduceCtorEq, if_false, and_self]
      | ok condition =>
          simp only [readCondition] at judged
          cases readAction : Action.ofText instruction.action with
          | error error =>
              simp only [judged, decideFrom_deciding_of_error readAction, Verdict.answer,
                reduceCtorEq, if_false, and_self]
          | ok action =>
              rw [judged, decideFrom_deciding_of_ok readAction]
              have executed := decideFrom_execute now event store
                (records ++ (execute now event instruction store action).records)
                instruction action
              simpa only [Option.some.injEq] using executed

theorem handle_of_error {error : DecodeError} (read : Instruction.ofBody event.data = .error error) :
    handle now event store =
      { verdict := .answered .nack, store, records := [.undecodable event.id error] } := by
  unfold handle
  rw [decideFrom_step rfl]
  simp only [step, read]
  exact decideFrom_decided _

theorem handle_of_ok {instructions : List Instruction}
    (read : Instruction.ofBody event.data = .ok instructions) :
    handle now event store =
      decideFrom now event (store.increase now event.id)
        [.received event.id (store.observed now event.id).count instructions.length]
        (.judging instructions) := by
  unfold handle
  rw [decideFrom_step rfl]
  simp only [step, read, List.nil_append]

theorem answer_handle {instructions : List Instruction}
    (read : Instruction.ofBody event.data = .ok instructions) :
    (handle now event store).verdict.answer =
      answerTo event (retries now event (store.increase now event.id)) instructions := by
  rw [handle_of_ok read]
  exact (decideFrom_judging_spec instructions).1

theorem store_handle {instructions : List Instruction}
    (read : Instruction.ofBody event.data = .ok instructions) :
    (handle now event store).store =
      if executed? (retries now event (store.increase now event.id)) instructions = some .reset
      then store.reset else store.increase now event.id := by
  rw [handle_of_ok read]
  exact (decideFrom_judging_spec instructions).2

end Delivery

end ScriptedResponder
