import ScriptedResponder.Proofs.Scenario.Account
import ScriptedResponder.Proofs.Scenario.Waking

/-!
A step, and then time. Whatever a step does to the store and to the tasks it does at once, at the
instant at which it begins; `opening` is the timeline as it then stands. All that follows until the
step is over is a wait: the clock moves, what is due runs, something is logged, and a delivery that
was joined is let go. `waits_step` says so of every step.
-/

set_option autoImplicit false

namespace ScriptedResponder

def Period.paced (every : Nat) : Nat := max shortestSweep (min every longest)

/-! ### Calls that take no time -/

/-- What calls at one instant leave: of the entries that were not there before, each is as young as
it can be. -/
structure Session.Meets (session next : Session) : Prop where
  clock : next.clock = session.clock
  ttl : next.store.ttl = session.store.ttl
  young : ∀ entry ∈ next.store.entries,
    entry ∈ session.store.entries ∨ entry.expiresAt = session.clock + session.store.ttl

theorem Session.after_instant (session : Session) {calls : List StoreCall}
    (instant : ∀ wait, .advance wait ∉ calls) : session.Meets (session.after calls) := by
  induction calls generalizing session with
  | nil => exact ⟨rfl, rfl, fun _ => .inl⟩
  | cons call rest ih =>
      have first : session.Meets (session.call call) := by
        cases call with
        | advance wait => exact absurd List.mem_cons_self (instant wait)
        | increase id =>
            refine ⟨rfl, rfl, fun entry member => ?_⟩
            rcases List.mem_cons.mp member with rfl | other
            · exact .inr rfl
            · exact .inl (List.mem_filter.mp other).1
        | delete id => exact ⟨rfl, rfl, fun _ member => .inl (List.mem_filter.mp member).1⟩
        | reset => exact ⟨rfl, rfl, nofun⟩
        | removeStale =>
            obtain ⟨removed, split, _⟩ :=
              session.store.exists_entries_eq_removeStale_append session.clock
            refine ⟨rfl, rfl, fun entry member => .inl ?_⟩
            rw [split]
            exact List.mem_append_left removed member
        | get id | size => exact ⟨rfl, rfl, fun _ => .inl⟩
      have others := ih (session.call call) fun wait member =>
        instant wait (List.mem_cons_of_mem call member)
      refine ⟨others.clock.trans first.clock, others.ttl.trans first.ttl, fun entry member => ?_⟩
      rcases others.young entry member with earlier | young
      · exact first.young entry earlier
      · rw [first.clock, first.ttl] at young
        exact .inr young

theorem Event.instant_calls (event : Event) (retries wait : Nat) :
    .advance wait ∉ event.calls retries := by
  unfold Event.calls
  split
  · simp
  · split <;> simp

theorem ScenarioStep.instant_calls (step : ScenarioStep) (retries : String → Nat) (wait : Nat) :
    .advance wait ∉ step.calls retries := by
  unfold ScenarioStep.calls
  split
  · simp
  · simp
  · simp
  · simp
  · split
    · exact Event.instant_calls _ _ wait
    · simp

namespace Timeline

variable {timeline : Timeline} {step : ScenarioStep}

/-- What may happen to a timeline while a step waits. -/
inductive Waits (step : ScenarioStep) (timeline : Timeline) : Timeline → Prop
  | refl : Waits step timeline timeline
  | advance {next : Timeline} (clock : Nat) (waits : Waits step timeline next)
      (later : next.clock ≤ clock) : Waits step timeline { next with clock }
  | run {next : Timeline} (waits : Waits step timeline next) (onTime : next.OnTime) :
      Waits step timeline next.runDue
  | log {next : Timeline} (records : List LogRecord) (waits : Waits step timeline next) :
      Waits step timeline (next.log records)
  | relieve {next : Timeline} {name : String} (waits : Waits step timeline next)
      (joined : step = .join name) : Waits step timeline (next.relieved name)

theorem Waits.trans {first second third : Timeline} (before : first.Waits step second)
    (after : second.Waits step third) : first.Waits step third := by
  induction after with
  | refl => exact before
  | advance clock _ later ih => exact .advance clock ih later
  | run _ onTime ih => exact .run ih onTime
  | log records _ ih => exact .log records ih
  | relieve _ joined ih => exact .relieve ih joined

theorem Settled.waits_advanceTo (settled : timeline.Settled) (step : ScenarioStep) {target : Nat}
    (whole : Period.millisecond ∣ target) : timeline.Waits step (timeline.advanceTo target) :=
  settled.advanceTo_induction target whole
    (fun _ clock _ waits later _ => .advance clock waits later)
    (fun _ onTime waits => .run waits onTime) .refl

/-! ### The opening of a step -/

def tasksOf (timeline : Timeline) : ScenarioStep → List Task
  | .startSweeper name every =>
      (timeline.tasks.map fun task => if task.isSweeper name then task.unnamed else task) ++
        [.sweeper (some name) (Period.paced every) (timeline.clock + Period.paced every)]
  | .cancelSweeper name => timeline.tasks.filter fun task => !task.isSweeper name
  | .spawn name event =>
      (timeline.tasks.map fun task => if task.isDelivery name then task.unnamed else task) ++
        [.delivery (some name) event
          (Delivery.handle timeline.clock event timeline.store).verdict]
  | _ => timeline.tasks

def opening (timeline : Timeline) (step : ScenarioStep) : Timeline :=
  { timeline with
    store := (timeline.session.after (step.calls timeline.session.retries)).store
    tasks := timeline.tasksOf step }

theorem session_opening (timeline : Timeline) (step : ScenarioStep) :
    (timeline.opening step).session =
      timeline.session.after (step.calls timeline.session.retries) := by
  have clock := (timeline.session.after_instant
    (step.instant_calls timeline.session.retries)).clock
  exact congrArg (Session.mk · (timeline.session.after (step.calls timeline.session.retries)).store)
    clock.symm

theorem decide_snd (timeline : Timeline) (event : Event) :
    (timeline.decide event).2 =
      (timeline.opening (.handle event)).log
        (Delivery.handle timeline.clock event timeline.store).records := by
  have stored := congrArg Session.store (timeline.session.after_calls event)
  have opened : timeline.opening (.handle event) =
      { timeline with store := (Delivery.handle timeline.clock event timeline.store).store } :=
    congrArg (fun store => { timeline with store }) stored
  rw [opened]
  rfl

theorem Settled.waits_attend (settled : timeline.Settled) (event : Event)
    (step : ScenarioStep) :
    (timeline.opening (.handle event)).Waits step (timeline.attend event).2 := by
  have decided := settled.decide event
  have opened : (timeline.opening (.handle event)).Waits step (timeline.decide event).2 := by
    rw [decide_snd]
    exact .log _ .refl
  unfold Timeline.attend
  split
  · rename_i answer after same
    rw [same] at opened
    exact opened
  · rename_i seconds deadline after same
    rw [same] at opened decided
    exact .log _ (opened.trans (decided.waits_advanceTo step (Instant.whole_ceiling deadline)))

theorem Settled.waits_exchange (settled : timeline.Settled) (request : Http.Request)
    (step : ScenarioStep) :
    (timeline.opening (.exchange request)).Waits step (timeline.exchange request).2 := by
  unfold Timeline.exchange Timeline.opening
  simp only [ScenarioStep.calls, ScenarioStep.delivered?]
  cases received : Http.receive request with
  | mk reception records =>
      cases reception with
      | answered response => exact .log records .refl
      | accepted event =>
          have attended := (settled.log records).waits_attend event step
          exact .log _ ((Waits.log records .refl).trans attended)

theorem Settled.waits_join (settled : timeline.Settled) (name : String) :
    timeline.Waits (.join name) (timeline.join name).2 := by
  rcases timeline.find?_isDelivery_cases name with found | ⟨event, verdict, found⟩
  · rw [join_of_none found]
    exact .refl
  · cases verdict with
    | answered answer =>
        rw [join_of_answered found]
        exact .relieve .refl rfl
    | pausing seconds deadline =>
        rw [join_of_pausing found]
        have whole := Instant.whole_ceiling deadline
        exact .relieve (.run (settled.waits_advanceTo _ whole) (settled.advanceTo whole)) rfl

theorem Settled.waits_perform (settled : timeline.Settled) (step : ScenarioStep) :
    (timeline.opening step).Waits step (timeline.perform step).2 := by
  cases step with
  | sleep period => exact settled.waits_advanceTo _ (Instant.whole_ceiling _)
  | cancelSweeper name =>
      simp only [Timeline.perform, Timeline.cancelSweeper]
      split
      · exact .log _ .refl
      · rename_i absent
        have unmoved : (timeline.tasks.filter fun task => !task.isSweeper name) = timeline.tasks :=
          List.filter_eq_self.mpr fun task member => by
            simpa using fun bears => absent (List.any_eq_true.mpr ⟨task, member, bears⟩)
        have opened : timeline.opening (.cancelSweeper name) = timeline :=
          congrArg (fun tasks => { timeline with tasks }) unmoved
        rw [opened]
        exact .refl
  | handle event => exact settled.waits_attend event _
  | spawn name event =>
      have stored := congrArg Session.store (timeline.session.after_calls event)
      have opened : timeline.opening (.spawn name event) =
          { timeline with
            store := (Delivery.handle timeline.clock event timeline.store).store
            tasks := timeline.tasksOf (.spawn name event) } :=
        congrArg (fun store =>
          { timeline with store, tasks := timeline.tasksOf (.spawn name event) }) stored
      rw [opened]
      exact .log (Delivery.handle timeline.clock event timeline.store).records .refl
  | join name => exact settled.waits_join name
  | exchange request => exact settled.waits_exchange request _
  | increase id | get id | delete id | reset | removeStale | isEmpty | ttl | startSweeper name every
    | poll name => exact .refl

/-- Every step is its opening and a wait. -/
theorem Settled.waits_step (settled : timeline.Settled) (step : ScenarioStep) :
    (timeline.opening step).Waits step (timeline.step step).2 :=
  .run (settled.waits_perform step) (settled.perform step)

/-! ### Scenarios as runs -/

theorem played_eq_after (timeline : Timeline) (steps : List ScenarioStep) :
    timeline.played steps = timeline.after (steps.map .take) := by
  unfold played after
  rw [List.foldl_map]
  rfl

theorem agrees_played (ttl : Nat) (steps : List ScenarioStep) :
    Agrees (min ttl Period.longest) ((start ttl).played steps)
      (Account.opened.after (min ttl Period.longest) ((start ttl).history (steps.map .take))) := by
  rw [played_eq_after]
  exact (Agrees.start ttl).after (steps.map .take)

end Timeline

end ScriptedResponder
