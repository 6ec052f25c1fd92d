import ScriptedResponder.Proofs.Delivery.Verdict
import ScriptedResponder.Proofs.Store.Session

/-!
What a delivery does to the store. Each of its steps makes at most one call, which its stage tells:
one observation of the event, then a reading for each condition that is judged, and a reset at the
end if that is the action carried out. So a delivery counts once however many conditions it judges,
and nothing undoes that but its own reset.
-/

set_option autoImplicit false

namespace ScriptedResponder

/-! ### One observation -/

/-- The entry of an id has come to the front, counted on or begun anew, and every other entry stands
as it stood. -/
structure CountStore.ObservedOnce (now : Nat) (id : String) (before after : CountStore) : Prop where
  ttl : after.ttl = before.ttl
  front : after.entries.head? = some (before.observed now id)
  own : after.entries.filter (fun entry => entry.id = id) = [before.observed now id]
  others : after.entries.filter (fun entry => entry.id ≠ id) =
    before.entries.filter fun entry => entry.id ≠ id
  count : ∀ later, later < now + before.ttl → after.get later id = before.get now id + 1
  otherCounts : ∀ later other, other ≠ id → after.get later other = before.get later other

theorem CountStore.observedOnce_increase (now : Nat) (id : String) (store : CountStore) :
    ObservedOnce now id store (store.increase now id) where
  ttl := rfl
  front := rfl
  own := by
    have same : (store.observed now id).id = id := rfl
    simp [increase, delete, List.filter_filter, same]
  others := by
    have same : (store.observed now id).id = id := rfl
    simp [increase, delete, List.filter_filter, same]
  count := by
    intro later live
    rw [get_increase, if_pos rfl, if_neg (Nat.not_le_of_lt live)]
  otherCounts := by
    intro later other different
    rw [get_increase, if_neg different]

namespace Delivery

/-! ### The calls of the steps -/

def call? (event : Event) : Stage → Option StoreCall
  | .received =>
      match Instruction.ofBody event.data with
      | .error _ => none
      | .ok _ => some (.increase event.id)
  | .judging [] => none
  | .judging (instruction :: _) =>
      match Condition.ofText instruction.condition with
      | .error _ => none
      | .ok _ => some (.get event.id)
  | .deciding instruction =>
      match Action.ofText instruction.action with
      | .error _ => none
      | .ok action => if action = .reset then some .reset else none
  | .decided _ => none

theorem call?_cases {event : Event} {stage : Stage} {call : StoreCall}
    (made : call? event stage = some call) :
    call = .increase event.id ∨ call = .get event.id ∨ call = .reset := by
  cases stage with
  | received =>
      cases read : Instruction.ofBody event.data <;> simp_all [call?]
  | judging instructions =>
      cases instructions with
      | nil => cases made
      | cons instruction remaining =>
          cases read : Condition.ofText instruction.condition <;> simp_all [call?]
  | deciding instruction =>
      cases read : Action.ofText instruction.action with
      | error error => simp [call?, read] at made
      | ok action =>
          simp only [call?, read, Option.ite_none_right_eq_some, Option.some.injEq] at made
          exact .inr (.inr made.2.symm)
  | decided verdict => cases made

theorem store_execute (now : Nat) (event : Event) (instruction : Instruction) (store : CountStore)
    (action : Action) :
    (execute now event instruction store action).store =
      if action = .reset then store.reset else store := by
  cases action with
  | ackWithEvent | nackWithEvent => cases payload : instruction.reply <;> simp [execute, replyBy,
      payload, refusedBy, answeredBy]
  | ack | nack | delayAck seconds | reset => simp [execute, answeredBy]

theorem session_step (session : Session) (event : Event) (stage : Stage) :
    { session with store := (step session.clock event session.store stage).store } =
      session.after (call? event stage).toList := by
  cases stage with
  | received =>
      cases read : Instruction.ofBody event.data <;> simp only [step, call?, read] <;> rfl
  | judging instructions =>
      cases instructions with
      | nil => rfl
      | cons instruction remaining =>
          cases read : Condition.ofText instruction.condition <;> simp only [step, call?, read] <;> rfl
  | deciding instruction =>
      cases read : Action.ofText instruction.action with
      | error error =>
          simp only [step, call?, read]
          rfl
      | ok action =>
          simp only [step, call?, read, store_execute]
          by_cases resets : action = .reset
          · simp only [if_pos resets]
            rfl
          · simp only [if_neg resets]
            rfl
  | decided verdict => rfl

def callsFrom (now : Nat) (event : Event) (store : CountStore) (stage : Stage) : List StoreCall :=
  match _undecided : stage.verdict? with
  | some _ => []
  | none =>
      let progress := step now event store stage
      (call? event stage).toList ++ callsFrom now event progress.store progress.stage
  termination_by stepsLeft event stage
  decreasing_by exact stepsLeft_step_lt now event store stage _undecided

variable {now : Nat} {event : Event} {store : CountStore}

theorem callsFrom_decided (verdict : Verdict) :
    callsFrom now event store (.decided verdict) = [] := by
  rw [callsFrom]
  rfl

theorem callsFrom_step {stage : Stage} (undecided : stage.verdict? = none) :
    callsFrom now event store stage =
      (call? event stage).toList ++
        callsFrom now event (step now event store stage).store (step now event store stage).stage := by
  rw [callsFrom]
  split
  · rename_i verdict decided
    rw [undecided] at decided
    cases decided
  · rfl

/-- The calls account for all that becomes of the store. -/
theorem session_decideFrom (session : Session) (event : Event) (records : List LogRecord)
    (stage : Stage) :
    { session with store := (decideFrom session.clock event session.store records stage).store } =
      session.after (callsFrom session.clock event session.store stage) := by
  obtain ⟨now, store⟩ := session
  fun_induction decideFrom now event store records stage with
  | case1 store records stage verdict decided =>
      cases stage with
      | decided verdict =>
          rw [callsFrom_decided]
          rfl
      | received | judging remaining | deciding instruction => cases decided
  | case2 store records stage undecided progress ih =>
      have first := session_step { clock := now, store } event stage
      rw [callsFrom_step undecided, Session.after, List.foldl_append]
      change _ = ((Session.mk now store).after (call? event stage).toList).after _
      rw [← first]
      exact ih

theorem callsFrom_deciding (instruction : Instruction) :
    callsFrom now event store (.deciding instruction) =
      (call? event (.deciding instruction)).toList := by
  have last : ∃ verdict, (step now event store (.deciding instruction)).stage = .decided verdict := by
    cases read : Action.ofText instruction.action with
    | error error => simp [step, read, refusedBy]
    | ok action =>
        simp only [step, read]
        exact execute_decided now event instruction store action
  obtain ⟨verdict, decided⟩ := last
  rw [callsFrom_step rfl, decided, callsFrom_decided, List.append_nil]

theorem callsFrom_judging (instructions : List Instruction) :
    ∃ readings ≤ instructions.length,
      callsFrom now event store (.judging instructions) =
        List.replicate readings (.get event.id) ++
          if executed? (retries now event store) instructions = some .reset then [.reset]
          else [] := by
  induction instructions with
  | nil =>
      refine ⟨0, Nat.le_refl 0, ?_⟩
      rw [callsFrom_step rfl]
      simp only [step, call?, callsFrom_decided, executed?, List.find?_nil]
      rfl
  | cons instruction remaining ih =>
      rw [callsFrom_step rfl]
      cases read : Condition.ofText instruction.condition with
      | error error =>
          have decides : Instruction.decides (retries now event store) instruction = true := by
            simp only [Instruction.decides, read]
          refine ⟨0, Nat.zero_le _, ?_⟩
          simp only [step, call?, read, callsFrom_decided, executed?,
            List.find?_cons_of_pos decides, Option.bind_some, Instruction.executed?]
          rfl
      | ok condition =>
          by_cases holds : condition.holds (retries now event store) = true
          · have decides : Instruction.decides (retries now event store) instruction = true := by
              simpa only [Instruction.decides, read] using holds
            refine ⟨1, Nat.le_add_left 1 _, ?_⟩
            simp only [step, call?, read, if_pos holds, callsFrom_deciding, executed?,
              List.find?_cons_of_pos decides, Option.bind_some, Instruction.executed?]
            cases Action.ofText instruction.action with
            | error error =>
                simp only [reduceCtorEq, if_false]
                rfl
            | ok action =>
                simp only [Option.some.injEq]
                split <;> rfl
          · have passes : ¬ Instruction.decides (retries now event store) instruction = true := by
              simpa only [Instruction.decides, read] using holds
            obtain ⟨readings, bounded, further⟩ := ih
            refine ⟨readings + 1, Nat.succ_le_succ bounded, ?_⟩
            simp only [step, call?, read, if_neg holds, further, executed?,
              List.find?_cons_of_neg passes]
            rfl

theorem callsFrom_received_of_error {error : DecodeError}
    (read : Instruction.ofBody event.data = .error error) :
    callsFrom now event store .received = [] := by
  rw [callsFrom_step rfl]
  simp only [step, call?, read, callsFrom_decided]
  rfl

theorem callsFrom_received_of_ok {instructions : List Instruction}
    (read : Instruction.ofBody event.data = .ok instructions) :
    callsFrom now event store .received =
      .increase event.id ::
        callsFrom now event (store.increase now event.id) (.judging instructions) := by
  rw [callsFrom_step rfl]
  simp only [step, call?, read]
  rfl

/-! ### Resets -/

/-- The first instruction whose condition is malformed or true has a true one, and its action is a
reset. -/
def Resets (retries : Int) (instructions : List Instruction) : Prop :=
  ∃ earlier instruction later condition,
    instructions = earlier ++ instruction :: later ∧
    (∀ other ∈ earlier, ∃ passed, Condition.ofText other.condition = .ok passed ∧
      passed.holds retries = false) ∧
    Condition.ofText instruction.condition = .ok condition ∧ condition.holds retries = true ∧
    Action.ofText instruction.action = .ok .reset

theorem decides_eq_false_iff {retries : Int} {instruction : Instruction} :
    instruction.decides retries = false ↔
      ∃ passed, Condition.ofText instruction.condition = .ok passed ∧
        passed.holds retries = false := by
  unfold Instruction.decides
  cases read : Condition.ofText instruction.condition with
  | error error => simp
  | ok condition => simp

theorem executed?_eq_reset_iff {retries : Int} {instructions : List Instruction} :
    executed? retries instructions = some .reset ↔ Resets retries instructions := by
  have own {instruction : Instruction} : instruction.decides retries = true ∧
      instruction.executed? = some .reset ↔
        ∃ condition, Condition.ofText instruction.condition = .ok condition ∧
          condition.holds retries = true ∧ Action.ofText instruction.action = .ok .reset := by
    unfold Instruction.decides Instruction.executed?
    cases read : Condition.ofText instruction.condition with
    | error error => simp
    | ok condition => cases Action.ofText instruction.action <;> simp
  unfold executed?
  rw [Option.bind_eq_some_iff]
  constructor
  · rintro ⟨instruction, found, resets⟩
    obtain ⟨decides, earlier, later, whole, passed⟩ := List.find?_eq_some_iff_append.mp found
    obtain ⟨condition, judged, holds, understood⟩ := own.mp ⟨decides, resets⟩
    refine ⟨earlier, instruction, later, condition, whole, ?_, judged, holds, understood⟩
    intro other member
    exact decides_eq_false_iff.mp (by simpa using passed other member)
  · rintro ⟨earlier, instruction, later, condition, whole, passed, judged, holds, understood⟩
    obtain ⟨decides, resets⟩ := own.mpr ⟨condition, judged, holds, understood⟩
    refine ⟨instruction, List.find?_eq_some_iff_append.mpr ⟨decides, earlier, later, whole, ?_⟩,
      resets⟩
    intro other member
    have passes := decides_eq_false_iff.mpr (passed other member)
    simp [passes]

instance (retries : Int) (instructions : List Instruction) :
    Decidable (Resets retries instructions) :=
  decidable_of_iff _ executed?_eq_reset_iff

/-! ### The whole of a delivery -/

/-- A delivery leaves a store as it was if its instructions cannot be read, empty if it comes to a
reset, and otherwise with one observation more of its id, whatever else it comes to. It makes no
other call that writes. -/
theorem handle_writes_once (now : Nat) (event : Event) (store : CountStore) :
    let decided := (handle now event store).store
    let calls := callsFrom now event store .received
    let counted := store.increase now event.id
    { clock := now, store := decided } = ({ clock := now, store } : Session).after calls ∧
    match Instruction.ofBody event.data with
    | .error _ => decided = store ∧ calls = []
    | .ok instructions =>
        let resets := Resets (retries now event counted) instructions
        decided = (if resets then { store with entries := [] } else counted) ∧
        CountStore.ObservedOnce now event.id store counted ∧
        ∃ readings ≤ instructions.length,
          calls = .increase event.id ::
            (List.replicate readings (.get event.id) ++ if resets then [.reset] else []) := by
  intro decided calls counted
  refine ⟨session_decideFrom { clock := now, store } event [] .received, ?_⟩
  cases read : Instruction.ofBody event.data with
  | error error =>
      have handled : handle now event store = _ := handle_of_error read
      exact ⟨congrArg Decision.store handled, callsFrom_received_of_error read⟩
  | ok instructions =>
      obtain ⟨readings, bounded, judged⟩ :=
        @callsFrom_judging now event counted instructions
      have stored : decided = _ := store_handle read
      have called : calls = _ := callsFrom_received_of_ok read
      refine ⟨?_, store.observedOnce_increase now event.id, readings, bounded, ?_⟩
      · rw [stored]
        simp only [executed?_eq_reset_iff]
        rfl
      · rw [called, judged]
        simp only [executed?_eq_reset_iff]

end Delivery

end ScriptedResponder
