import ScriptedResponder.Proofs.Scenario.Veil
import ScriptedResponder.Proofs.Scenario.Waits

/-!
Deliveries that are pending. A spawned delivery comes to its verdict when it is spawned; from then
on the only thing that can happen to its task is that its pause is over, whatever steps follow, as
long as none of them takes it or its name. `Bears` follows one such task through a scenario, and
says what a poll and a join find.
-/

set_option autoImplicit false

namespace ScriptedResponder

/-- What a verdict has become by an instant. -/
def Verdict.asOf (clock : Nat) : Verdict → Verdict
  | .answered answer => .answered answer
  | .pausing seconds deadline =>
      if deadline ≤ clock then .answered .ack else .pausing seconds deadline

theorem Verdict.asOf_asOf {earlier later : Nat} (since : earlier ≤ later) (verdict : Verdict) :
    (verdict.asOf earlier).asOf later = verdict.asOf later := by
  cases verdict with
  | answered answer => rfl
  | pausing seconds deadline =>
      by_cases ended : deadline ≤ earlier
      · have endedLater := Nat.le_trans ended since
        simp only [Verdict.asOf, if_pos ended, if_pos endedLater]
      · simp only [Verdict.asOf, if_neg ended]

def ScenarioStep.taker? : ScenarioStep → Option String
  | .spawn name _ | .join name => some name
  | _ => none

theorem Task.isDelivery_fired (name : String) (task : Task) :
    task.fired.isDelivery name = task.isDelivery name := by
  cases task <;> rfl

namespace Timeline

variable {timeline after : Timeline} {name : String} {event : Event} {verdict : Verdict}

/-- There is one delivery of a name, which from now on is what it would be had nothing happened
since it came to its verdict. -/
def Bears (name : String) (event : Event) (verdict : Verdict) (timeline : Timeline) : Prop :=
  ∃ current,
    timeline.tasks.filter (Task.isDelivery name) = [.delivery (some name) event current] ∧
    ∀ later, timeline.clock ≤ later → current.asOf later = verdict.asOf later

namespace Bears

theorem runDue (bears : timeline.Bears name event verdict) (onTime : timeline.OnTime) :
    timeline.runDue.Bears name event verdict := by
  obtain ⟨current, found, comes⟩ := bears
  have line : timeline.runDue.tasks.filter (Task.isDelivery name) =
      ((timeline.tasks.filter (Task.isDelivery name)).filter
          fun task => !task.isDue timeline.clock) ++
        ((timeline.tasks.filter (Task.isDelivery name)).filter
          (Task.isDue timeline.clock)).map Task.fired := by
    have unchosen : Task.isDelivery name ∘ Task.fired = Task.isDelivery name :=
      funext (Task.isDelivery_fired name)
    rw [tasks_runDue, List.filter_append, List.filter_map, unchosen, List.filter_filter,
      List.filter_filter, List.filter_filter, List.filter_filter]
    simp only [Bool.and_comm]
  refine ⟨current.asOf timeline.clock, ?_, ?_⟩
  · rw [line, found]
    cases current with
    | answered answer => simp [Verdict.asOf, Task.isDue, Task.wake?]
    | pausing seconds deadline =>
        have reached := Instant.ceiling_le_iff deadline onTime.whole
        by_cases ended : deadline ≤ timeline.clock
        · simp [Verdict.asOf, Task.isDue, Task.wake?, reached, ended, Task.fired, Verdict.answer]
        · simp [Verdict.asOf, Task.isDue, Task.wake?, reached, ended]
  · intro later since
    rw [clock_runDue] at since
    rw [Verdict.asOf_asOf since, comes later since]

theorem waits (bears : timeline.Bears name event verdict) {step : ScenarioStep}
    (waits : timeline.Waits step after) (apart : step.taker? ≠ some name) :
    after.Bears name event verdict := by
  induction waits with
  | refl => exact bears
  | advance clock _ since ih =>
      obtain ⟨current, found, comes⟩ := ih
      exact ⟨current, found, fun later after => comes later (Nat.le_trans since after)⟩
  | run _ onTime ih => exact ih.runDue onTime
  | log records _ ih => exact ih
  | @relieve next other _ joined ih =>
      obtain ⟨current, found, comes⟩ := ih
      have different : other ≠ name := by
        rintro rfl
        rw [joined] at apart
        exact apart rfl
      refine ⟨current, ?_, comes⟩
      have spared : (next.relieved other).tasks.filter (Task.isDelivery name) =
          next.tasks.filter (Task.isDelivery name) := by
        unfold relieved
        rw [List.filter_filter]
        apply List.filter_congr
        intro task _
        cases task with
        | sweeper label every due => rfl
        | delivery label event verdict =>
            by_cases same : label = some name
            · simp [Task.isDelivery, same, different.symm]
            · simp [Task.isDelivery, same]
      rw [spared]
      exact found

theorem opening (bears : timeline.Bears name event verdict) {step : ScenarioStep}
    (apart : step.taker? ≠ some name) :
    (timeline.opening step).Bears name event verdict := by
  obtain ⟨current, found, comes⟩ := bears
  refine ⟨current, Eq.trans ?_ found, comes⟩
  have alone {bears : Task → Bool} (elsewhere : ∀ task, bears task = true →
      task.isDelivery name = false ∧ task.unnamed.isDelivery name = false) :
      (timeline.tasks.map fun task => if bears task then task.unnamed else task).filter
        (Task.isDelivery name) = timeline.tasks.filter (Task.isDelivery name) := by
    rw [Task.filter_renamed fun task borne =>
      (elsewhere task borne).2.trans (elsewhere task borne).1.symm]
    apply Task.map_renamed
    intro task member
    cases borne : bears task with
    | false => rfl
    | true =>
        have chosen := (List.mem_filter.mp member).2
        rw [(elsewhere task borne).1] at chosen
        cases chosen
  cases step with
  | startSweeper other every =>
      have sweeper : [Task.sweeper (some other) (Period.paced every)
          (timeline.clock + Period.paced every)].filter (Task.isDelivery name) = [] := rfl
      refine (List.filter_append _ _).trans ?_
      rw [sweeper, List.append_nil]
      apply alone
      intro task sweeps
      cases task with
      | sweeper label period due => exact ⟨rfl, rfl⟩
      | delivery label event verdict => cases sweeps
  | cancelSweeper other =>
      refine (List.filter_filter ..).trans (List.filter_congr fun task _ => ?_)
      cases task with
      | sweeper label period due => rfl
      | delivery label event verdict => exact Bool.and_true _
  | spawn other spawned =>
      have different : other ≠ name := fun same => apart (congrArg some same)
      have unasked : [Task.delivery (some other) spawned
          (Delivery.handle timeline.clock spawned timeline.store).verdict].filter
            (Task.isDelivery name) = [] := by
        simp [Task.isDelivery, different]
      refine (List.filter_append _ _).trans ?_
      rw [unasked, List.append_nil]
      apply alone
      intro task bears
      cases task with
      | sweeper label period due => cases bears
      | delivery label event verdict =>
          obtain rfl : label = some other := of_decide_eq_true bears
          simp [Task.isDelivery, Task.unnamed, different]
  | increase id | get id | delete id | reset | removeStale | isEmpty | ttl | sleep period
    | handle event | poll other | join other | exchange request => rfl

theorem step (bears : timeline.Bears name event verdict) (settled : timeline.Settled)
    {step : ScenarioStep} (apart : step.taker? ≠ some name) :
    (timeline.step step).2.Bears name event verdict :=
  (bears.opening apart).waits (settled.waits_step step) apart

theorem played (bears : timeline.Bears name event verdict) (settled : timeline.Settled)
    (later : List ScenarioStep) (apart : ∀ step ∈ later, step.taker? ≠ some name) :
    (timeline.played later).Bears name event verdict := by
  induction later generalizing timeline with
  | nil => exact bears
  | cons step rest ih =>
      have first := bears.step settled (apart step List.mem_cons_self)
      exact ih first (settled.step step) fun other member =>
        apart other (List.mem_cons_of_mem step member)

theorem filter_eq (bears : timeline.Bears name event verdict) (settled : timeline.Settled) :
    timeline.tasks.filter (Task.isDelivery name) =
      [.delivery (some name) event (verdict.asOf timeline.clock)] := by
  obtain ⟨current, found, comes⟩ := bears
  have ahead : current.asOf timeline.clock = current := by
    cases current with
    | answered answer => rfl
    | pausing seconds deadline =>
        have member : .delivery (some name) event (.pausing seconds deadline) ∈
            timeline.tasks.filter (Task.isDelivery name) := by
          rw [found]
          exact List.mem_singleton.mpr rfl
        have wakes := (settled.awaits _ (List.mem_filter.mp member).1).wake _ rfl
        have reached := Instant.ceiling_le_iff deadline settled.whole
        exact if_neg (by omega)
  rw [← comes timeline.clock (Nat.le_refl _), ahead, found]

theorem found (bears : timeline.Bears name event verdict) (settled : timeline.Settled) :
    timeline.tasks.find? (Task.isDelivery name) =
      some (.delivery (some name) event (verdict.asOf timeline.clock)) := by
  rw [← List.head?_filter, bears.filter_eq settled]
  rfl

theorem poll_of_answered {answer : Answer} (bears : timeline.Bears name event (.answered answer))
    (settled : timeline.Settled) : timeline.isFinished? name = some true := by
  unfold Timeline.isFinished?
  rw [bears.found settled]
  rfl

theorem poll_of_pausing {seconds deadline : Nat}
    (bears : timeline.Bears name event (.pausing seconds deadline)) (settled : timeline.Settled) :
    timeline.isFinished? name = some (Decidable.decide (deadline ≤ timeline.clock)) := by
  unfold Timeline.isFinished?
  rw [bears.found settled]
  by_cases ended : deadline ≤ timeline.clock
  · simp [Verdict.asOf, ended]
  · simp [Verdict.asOf, ended]

theorem join_of_answered {answer : Answer} (bears : timeline.Bears name event (.answered answer))
    (settled : timeline.Settled) : timeline.join name = (some answer, timeline.relieved name) :=
  Timeline.join_of_answered (bears.found settled)

end Bears

theorem Settled.bears_spawn (settled : timeline.Settled) (name : String) (event : Event) :
    (timeline.step (.spawn name event)).2.Bears name event
      (Delivery.handle timeline.clock event timeline.store).verdict := by
  have fresh : ((timeline.tasks.map fun task =>
      if task.isDelivery name then task.unnamed else task).filter (Task.isDelivery name)) = [] := by
    apply List.filter_eq_nil_iff.mpr
    intro task member
    obtain ⟨former, _, rfl⟩ := List.mem_map.mp member
    cases former with
    | sweeper label every due => simp [Task.isDelivery]
    | delivery label event verdict =>
        by_cases same : label = some name
        · simp [Task.isDelivery, Task.unnamed, same]
        · simp [Task.isDelivery, same]
  have opened : (timeline.spawn name event).Bears name event
      (Delivery.handle timeline.clock event timeline.store).verdict := by
    refine ⟨_, ?_, fun _ _ => rfl⟩
    refine (List.filter_append _ _).trans ?_
    rw [fresh]
    simp [Task.isDelivery]
  exact opened.runDue (settled.spawn name event)

end Timeline

end ScriptedResponder
