import ScriptedResponder.Scenario
import ScriptedResponder.Proofs.Delivery.Verdict
import ScriptedResponder.Proofs.Store.Session

/-!
A timeline as a session. Whatever a scenario does, the store sees a few calls at the instant of each
step and then only the passing of time, in which the clock advances and sweepers remove what is
stale. `elapses_step` says so of every step; nothing that follows has to look at tasks or waits to
know what becomes of the store.
-/

set_option autoImplicit false

namespace ScriptedResponder

/-- What time alone may do to a session. -/
inductive Session.Elapses (session : Session) : Session → Prop
  | refl : Elapses session session
  | advance {next : Session} (wait : Nat) (elapses : Elapses session next) :
      Elapses session (next.call (.advance wait))
  | sweep {next : Session} (elapses : Elapses session next) :
      Elapses session (next.call .removeStale)

namespace Session.Elapses

theorem trans {first second third : Session} (before : Elapses first second)
    (later : Elapses second third) : Elapses first third := by
  induction later with
  | refl => exact before
  | advance wait _ ih => exact .advance wait ih
  | sweep _ ih => exact .sweep ih

theorem advanceTo (session : Session) {clock : Nat} (later : session.clock ≤ clock) :
    Elapses session { session with clock } := by
  have reached : session.call (.advance (clock - session.clock)) = { session with clock } := by
    change { session with clock := session.clock + (clock - session.clock) } = _
    rw [Nat.add_sub_cancel' later]
  rw [← reached]
  exact .advance _ .refl

end Session.Elapses

/-! ### The calls of a delivery -/

/-- The calls by which an event is delivered after a number of earlier deliveries. -/
def Event.calls (retries : Nat) (event : Event) : List StoreCall :=
  match Instruction.ofBody event.data with
  | .error _ => []
  | .ok instructions =>
      if Delivery.executed? retries instructions = some .reset then [.increase event.id, .reset]
      else [.increase event.id]

def Session.retries (session : Session) (id : String) : Nat :=
  (session.store.increase session.clock id).get session.clock id - 1

theorem Session.after_calls (session : Session) (event : Event) :
    session.after (event.calls (session.retries event.id)) =
      { session with store := (Delivery.handle session.clock event session.store).store } := by
  unfold Event.calls
  cases read : Instruction.ofBody event.data with
  | error error =>
      rw [Delivery.handle_of_error read]
      rfl
  | ok instructions =>
      rw [Delivery.store_handle read]
      change session.after (if Delivery.executed?
          (Delivery.retries session.clock event (session.store.increase session.clock event.id))
          instructions = some .reset then _ else _) = _
      split <;> rfl

def ScenarioStep.delivered? : ScenarioStep → Option Event
  | .handle event | .spawn _ event => some event
  | .exchange request =>
      match (Http.receive request).1 with
      | .accepted event => some event
      | .answered _ => none
  | _ => none

def ScenarioStep.calls (retries : String → Nat) : ScenarioStep → List StoreCall
  | .increase id => [.increase id]
  | .delete id => [.delete id]
  | .reset => [.reset]
  | .removeStale => [.removeStale]
  | step =>
      match step.delivered? with
      | some event => event.calls (retries event.id)
      | none => []

namespace Timeline

def session (timeline : Timeline) : Session := { clock := timeline.clock, store := timeline.store }

/-! ### The passing of time -/

-- Both are stated of any timeline, so that checking their uses never unfolds an advance.
theorem elapses_log {session : Session} {timeline : Timeline} (records : List LogRecord)
    (elapses : session.Elapses timeline.session) :
    session.Elapses (timeline.log records).session := elapses

theorem elapses_withTasks {session : Session} {timeline : Timeline} (tasks : List Task)
    (elapses : session.Elapses timeline.session) :
    session.Elapses { timeline with tasks }.session := elapses

theorem elapses_fire (timeline : Timeline) (task : Task) :
    timeline.session.Elapses (timeline.fire task).session := by
  cases task with
  | sweeper name every due => exact .sweep .refl
  | delivery name event verdict =>
      cases verdict with
      | answered answer => exact .refl
      | pausing seconds deadline => exact .refl

theorem elapses_foldl_fire (tasks : List Task) (timeline : Timeline) :
    timeline.session.Elapses (tasks.foldl fire timeline).session := by
  induction tasks generalizing timeline with
  | nil => exact .refl
  | cons task rest ih => exact (timeline.elapses_fire task).trans (ih (timeline.fire task))

theorem elapses_runDue (timeline : Timeline) : timeline.session.Elapses timeline.runDue.session :=
  elapses_foldl_fire (timeline.tasks.filter (Task.isDue timeline.clock))
    { timeline with tasks := timeline.tasks.filter fun task => !task.isDue timeline.clock }

theorem elapses_advanceTo (target : Nat) (timeline : Timeline) :
    timeline.session.Elapses (timeline.advanceTo target).session := by
  fun_induction advanceTo target timeline with
  | case1 timeline _ => exact .advanceTo timeline.session (Nat.le_max_left _ _)
  | case2 timeline wake _ between ih =>
      have woken := Session.Elapses.advanceTo timeline.session (Nat.le_of_lt between.1)
      exact (woken.trans (elapses_runDue { timeline with clock := wake })).trans ih
  | case3 timeline wake _ _ => exact .advanceTo timeline.session (Nat.le_max_left _ _)

theorem elapses_attend (event : Event) (timeline : Timeline) :
    (timeline.decide event).2.session.Elapses (timeline.attend event).2.session := by
  unfold attend
  split
  · rename_i answer decided same
    rw [same]
    exact .refl
  · rename_i seconds deadline decided same
    rw [same]
    exact elapses_log _ (elapses_advanceTo _ decided)

theorem elapses_join (name : String) (timeline : Timeline) :
    timeline.session.Elapses (timeline.join name).2.session := by
  unfold join
  split
  · exact .refl
  · exact elapses_withTasks _ ((elapses_advanceTo _ timeline).trans (elapses_runDue _))
  · exact .refl

/-! ### The calls of a step -/

theorem session_decide (event : Event) (timeline : Timeline) :
    (timeline.decide event).2.session =
      timeline.session.after (event.calls (timeline.session.retries event.id)) :=
  (timeline.session.after_calls event).symm

theorem elapses_exchange (request : Http.Request) (timeline : Timeline) :
    (timeline.session.after
      ((ScenarioStep.exchange request).calls timeline.session.retries)).Elapses
        (timeline.exchange request).2.session := by
  unfold exchange
  simp only [ScenarioStep.calls, ScenarioStep.delivered?]
  cases received : Http.receive request with
  | mk reception records =>
      cases reception with
      | answered response => exact .refl
      | accepted event =>
          have attended := elapses_attend event (timeline.log records)
          rw [session_decide] at attended
          exact attended

theorem elapses_perform (timeline : Timeline) (step : ScenarioStep) :
    (timeline.session.after (step.calls timeline.session.retries)).Elapses
      (timeline.perform step).2.session := by
  cases step with
  | handle event =>
      have attended := elapses_attend event timeline
      rw [session_decide] at attended
      exact attended
  | spawn name event =>
      have spawned : (timeline.perform (.spawn name event)).2.session =
          timeline.session.after (event.calls (timeline.session.retries event.id)) :=
        session_decide event
          { timeline with
            tasks := timeline.tasks.map fun task =>
              if task.isDelivery name then task.unnamed else task }
      rw [spawned]
      exact .refl
  | exchange request => exact elapses_exchange request timeline
  | sleep period => exact elapses_advanceTo _ timeline
  | join name => exact elapses_join name timeline
  | cancelSweeper name =>
      simp only [perform, cancelSweeper]
      split <;> exact .refl
  | increase id | get id | delete id | reset | removeStale | isEmpty | ttl | startSweeper name every
    | poll name => exact .refl

theorem elapses_step (timeline : Timeline) (step : ScenarioStep) :
    (timeline.session.after (step.calls timeline.session.retries)).Elapses
      (timeline.step step).2.session :=
  (timeline.elapses_perform step).trans (elapses_runDue _)

end Timeline

end ScriptedResponder
