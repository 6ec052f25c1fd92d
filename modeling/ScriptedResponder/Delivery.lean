import ScriptedResponder.CountStore
import ScriptedResponder.LogRecord

/-!
One delivery of an event, from its reception to the verdict. A delivery goes through stages, and a
step from one to the next touches the store at most once, so deliveries may be interleaved between
steps. The first instruction whose condition holds decides; a condition or an action that cannot
be read decides too, against the event. `handle` takes every step at one instant.
-/

set_option autoImplicit false

namespace ScriptedResponder

structure Answer where
  reply : Option Event
  outcome : Outcome
  deriving DecidableEq, Repr

inductive Verdict
  | answered (answer : Answer)
  | pausing (seconds : Nat) (deadline : Nat)
  deriving DecidableEq, Repr

inductive Stage
  | received
  | judging (remaining : List Instruction)
  | deciding (instruction : Instruction)
  | decided (verdict : Verdict)
  deriving DecidableEq, Repr

def Stage.verdict? : Stage → Option Verdict
  | .decided verdict => some verdict
  | _ => none

namespace Answer

def ack : Answer := { reply := none, outcome := .ack }

def nack : Answer := { reply := none, outcome := .nack }

end Answer

structure Progress where
  stage : Stage
  store : CountStore
  records : List LogRecord
  deriving DecidableEq, Repr

namespace Delivery

/-- The earlier deliveries of an event, as the store counts them; a reset by another delivery may
have left none, not even this one. -/
def retries (now : Nat) (event : Event) (store : CountStore) : Nat :=
  store.get now event.id - 1

def answeredBy (event : Event) (action : Action) (store : CountStore) (records : List LogRecord)
    (answer : Answer) : Progress :=
  { stage := .decided (.answered answer)
    store
    records :=
      records ++ [.executed event.id action answer.outcome answer.reply.isSome] }

def refusedBy (event : Event) (action : String) (store : CountStore) (error : ActionError) :
    Progress :=
  { stage := .decided (.answered .nack)
    store
    records := [.actionFailed event.id action error] }

def replyBy (event : Event) (action : Action) (instruction : Instruction) (store : CountStore)
    (outcome : Outcome) : Progress :=
  match instruction.reply with
  | none => refusedBy event action.name store (.missingReply action.name)
  | some payload =>
      answeredBy event action store [] { reply := some (event.replyWith payload), outcome }

def execute (now : Nat) (event : Event) (instruction : Instruction) (store : CountStore) :
    Action → Progress
  | .ack => answeredBy event .ack store [] .ack
  | .nack => answeredBy event .nack store [] .nack
  | .delayAck seconds =>
      { stage := .decided (.pausing seconds (Instant.deadline now (Period.ofSeconds seconds)))
        store
        records := [] }
  | .ackWithEvent => replyBy event .ackWithEvent instruction store .ack
  | .nackWithEvent => replyBy event .nackWithEvent instruction store .nack
  | .reset => answeredBy event .reset store.reset [.countsDiscarded event.id] .ack

def step (now : Nat) (event : Event) (store : CountStore) : Stage → Progress
  | .received =>
      match Instruction.ofBody event.data with
      | .error error =>
          { stage := .decided (.answered .nack)
            store
            records := [.undecodable event.id error] }
      | .ok instructions =>
          { stage := .judging instructions
            store := store.increase now event.id
            records :=
              [.received event.id (store.observed now event.id).count instructions.length] }
  | .judging [] =>
      { stage := .decided (.answered .ack)
        store
        records := [.nothingApplied event.id] }
  | .judging (instruction :: remaining) =>
      match Condition.ofText instruction.condition with
      | .error error =>
          { stage := .decided (.answered .nack)
            store
            records := [.conditionFailed event.id error] }
      | .ok condition =>
          { stage :=
              if condition.holds (retries now event store) then .deciding instruction
              else .judging remaining
            store
            records := [] }
  | .deciding instruction =>
      match Action.ofText instruction.action with
      | .error error => refusedBy event instruction.action store error
      | .ok action => execute now event instruction store action
  | .decided verdict => { stage := .decided verdict, store, records := [] }

def stepsLeft (event : Event) : Stage → Nat
  | .received =>
      match Instruction.ofBody event.data with
      | .error _ => 1
      | .ok instructions => instructions.length + 3
  | .judging remaining => remaining.length + 2
  | .deciding _ => 1
  | .decided _ => 0

theorem execute_decided (now : Nat) (event : Event) (instruction : Instruction)
    (store : CountStore) (action : Action) :
    ∃ verdict, (execute now event instruction store action).stage = .decided verdict := by
  cases action with
  | ackWithEvent | nackWithEvent =>
      cases payload : instruction.reply <;>
        simp [execute, replyBy, refusedBy, answeredBy, payload]
  | _ => exact ⟨_, rfl⟩

theorem stepsLeft_step_lt (now : Nat) (event : Event) (store : CountStore) (stage : Stage)
    (undecided : stage.verdict? = none) :
    stepsLeft event (step now event store stage).stage < stepsLeft event stage := by
  cases stage with
  | received => cases read : Instruction.ofBody event.data <;> simp [step, stepsLeft, read]
  | judging remaining =>
      cases remaining with
      | nil => simp [step, stepsLeft]
      | cons instruction remaining =>
          cases read : Condition.ofText instruction.condition with
          | error error => simp [step, stepsLeft, read]
          | ok condition =>
              by_cases holds : condition.holds (retries now event store) = true <;>
                simp [step, stepsLeft, read, holds]
  | deciding instruction =>
      cases read : Action.ofText instruction.action with
      | error error => simp [step, stepsLeft, read, refusedBy]
      | ok action =>
          obtain ⟨verdict, decided⟩ := execute_decided now event instruction store action
          simp [step, stepsLeft, read, decided]
  | decided verdict => cases undecided

structure Decision where
  verdict : Verdict
  store : CountStore
  records : List LogRecord
  deriving DecidableEq, Repr

def decideFrom (now : Nat) (event : Event) (store : CountStore) (records : List LogRecord)
    (stage : Stage) : Decision :=
  match _undecided : stage.verdict? with
  | some verdict => { verdict, store, records }
  | none =>
      let progress := step now event store stage
      decideFrom now event progress.store (records ++ progress.records) progress.stage
  termination_by stepsLeft event stage
  decreasing_by exact stepsLeft_step_lt now event store stage _undecided

def handle (now : Nat) (event : Event) (store : CountStore) : Decision :=
  decideFrom now event store [] .received

def pauseRecord (event : Event) (seconds : Nat) : LogRecord :=
  .executed event.id (.delayAck seconds) Answer.ack.outcome Answer.ack.reply.isSome

end Delivery

end ScriptedResponder
