import Mathlib.Data.List.Chain
import ScriptedResponder.Proofs.Scenario.Pending

/-!
Deliveries that overlap. Put a veil over one pending delivery, and a scenario goes the same with and
without it (`Veil.Matches.playedOver`): it is counted when it is spawned, and from then on nobody
notices it but whoever asks for it by name. `spawned_independent` says what becomes of the delivery
itself, of everything else, and of the count of an id that many deliveries are pending for.
-/

set_option autoImplicit false

namespace ScriptedResponder

/-! ### One task out of sight -/

def Likeness.same : Likeness where
  alike _ left right := left = right
  ttl := congrArg CountStore.ttl
  count := fun same id => congrArg (CountStore.get _ id) same
  later := fun same _ => same
  increase := fun same id => congrArg (CountStore.increase _ id) same
  delete := fun same id => congrArg (CountStore.delete id) same
  reset := congrArg CountStore.reset

structure Timeline.SameButLog (left right : Timeline) : Prop where
  clock : left.clock = right.clock
  store : left.store = right.store
  tasks : left.tasks = right.tasks

/-- A veil over the delivery of a name, and over all that is logged. -/
def Veil.bearer (name : String) : Veil where
  toLikeness := .same
  hides := Task.isDelivery name
  silences _ := true
  hides_fired := Task.isDelivery_fired name
  silences_sweep _ := rfl
  silences_pause _ _ _ _ _ := rfl
  sweep := fun same _ _ _ => congrArg (CountStore.removeStale _) same

namespace Veil

variable {name : String} {left right : Timeline}

theorem bearer_shows {other : String} (different : other ≠ name) : (bearer name).Shows other := by
  intro event verdict
  simp [bearer, Task.isDelivery, different]

theorem Matches.logRight (isMatch : (bearer name).Matches left right) (records : List LogRecord) :
    (bearer name).Matches left (right.log records) where
  clock := isMatch.clock
  alike := isMatch.alike
  tasks := isMatch.tasks
  records := by
    rw [filter_silent fun _ _ => rfl, filter_silent fun _ _ => rfl]

theorem Matches.performSweeping (isMatch : (bearer name).Matches left right) {step : ScenarioStep}
    (sweeps : step.sweeps = true) :
    (left.perform step).1 = (right.perform step).1 ∧
      (bearer name).Matches (left.perform step).2 (right.perform step).2 := by
  have stores : left.store = right.store := isMatch.alike
  cases step with
  | removeStale =>
      have swept : left.store.removeStale left.clock = right.store.removeStale right.clock := by
        rw [stores, isMatch.clock]
      refine ⟨?_, isMatch.withStores swept⟩
      simp only [Timeline.perform, isMatch.clock, stores]
  | startSweeper other every =>
      have unhidden (task : Task) (bears : task.isSweeper other = true) :
          (!task.unnamed.isDelivery name) = !task.isDelivery name := by
        cases task with
        | sweeper label period due => rfl
        | delivery label event verdict => cases bears
      have tasks : (right.startSweeper other every).tasks =
          (left.startSweeper other every).tasks.filter fun task => !(bearer name).hides task := by
        unfold Timeline.startSweeper
        rw [isMatch.tasks, isMatch.clock, List.filter_append]
        exact congrArg (· ++ _) (Task.filter_renamed unhidden left.tasks).symm
      exact ⟨rfl, isMatch.withTasks tasks⟩
  | cancelSweeper other =>
      have found :
          right.tasks.any (Task.isSweeper other) = left.tasks.any (Task.isSweeper other) := by
        rw [isMatch.tasks, List.any_filter]
        congr 1
        funext task
        cases task with
        | sweeper label period due => exact Bool.true_and _
        | delivery label event verdict => exact Bool.and_false _
      simp only [Timeline.perform, Timeline.cancelSweeper, found]
      split
      · refine ⟨rfl, ?_⟩
        have tasks : (right.tasks.filter fun task => !task.isSweeper other) =
            (left.tasks.filter fun task => !task.isSweeper other).filter
              fun task => !(bearer name).hides task := by
          rw [isMatch.tasks, filter_shown]
        exact (isMatch.withTasks tasks).log _
      · exact ⟨rfl, isMatch⟩
  | increase _ | get _ | delete _ | reset | isEmpty | ttl | sleep _ | handle _ | spawn _ _ | poll _
    | join _ | exchange _ => cases sweeps

/-- Steps that do not ask for the task out of sight go alike with it and without it. -/
theorem Matches.stepOver (isMatch : (bearer name).Matches left right) (settled : left.Settled)
    {step : ScenarioStep} (apart : step.bearer? ≠ some name) :
    (left.step step).1 = (right.step step).1 ∧
      (bearer name).Matches (left.step step).2 (right.step step).2 := by
  cases sweeps : step.sweeps with
  | true =>
      obtain ⟨result, performed⟩ := isMatch.performSweeping sweeps
      exact ⟨result, performed.runDue⟩
  | false =>
      have shown (other : String) (asked : step.bearer? = some other) :
          (bearer name).Shows other := bearer_shows fun same => apart (same ▸ asked)
      obtain ⟨result, performed⟩ := isMatch.perform settled sweeps shown
      refine ⟨?_, performed.runDue⟩
      by_cases asked : step = .isEmpty
      · subst asked
        have stores : left.store = right.store := isMatch.alike
        exact congrArg (fun store : CountStore => StepResult.truth store.isEmpty) stores
      · exact result asked

theorem Matches.playedOver (isMatch : (bearer name).Matches left right) (settled : left.Settled)
    (later : List ScenarioStep) (apart : ∀ step ∈ later, step.taker? ≠ some name) :
    (bearer name).Matches (left.played later) (right.played later) := by
  induction later generalizing left right with
  | nil => exact isMatch
  | cons step rest ih =>
      have first : (bearer name).Matches (left.step step).2 (right.step step).2 := by
        by_cases asked : step.bearer? = some name
        · -- A poll sees a difference, but makes none.
          have polled : step = .poll name := by
            have untaken := apart step List.mem_cons_self
            cases step with
            | poll other => exact congrArg ScenarioStep.poll (Option.some.inj asked)
            | spawn other event => exact absurd asked untaken
            | join other => exact absurd asked untaken
            | _ => cases asked
          subst polled
          exact isMatch.runDue
        · exact (isMatch.stepOver settled asked).2
      exact ih first (settled.step step) fun other member =>
        apart other (List.mem_cons_of_mem step member)

theorem Matches.sameButLog (isMatch : (bearer name).Matches left right) :
    (left.relieved name).SameButLog right :=
  ⟨isMatch.clock.symm, isMatch.alike, isMatch.tasks.symm⟩

theorem matches_relieved (name : String) (timeline : Timeline) :
    (bearer name).Matches timeline (timeline.relieved name) :=
  ⟨rfl, rfl, rfl, rfl⟩

end Veil

namespace Timeline

variable {timeline : Timeline} {name : String} {event : Event}

open Veil (bearer matches_relieved)

/-! ### Spawning and joining -/

theorem matches_spawn (fresh : timeline.isFinished? name = none) (event : Event) :
    (bearer name).Matches (timeline.spawn name event) (timeline.decide event).2 := by
  have absent : ∀ task ∈ timeline.tasks, task.isDelivery name = false := by
    have found : timeline.tasks.find? (Task.isDelivery name) = none := by
      rcases timeline.find?_isDelivery_cases name with found | ⟨other, verdict, found⟩
      · exact found
      · unfold isFinished? at fresh
        rw [found] at fresh
        cases verdict <;> cases fresh
    exact fun task member => by simpa using List.find?_eq_none.mp found task member
  have unchanged : (timeline.tasks.map fun task =>
      if task.isDelivery name then task.unnamed else task) = timeline.tasks :=
    Task.map_renamed absent
  have others : (timeline.tasks.filter fun task => !task.isDelivery name) = timeline.tasks :=
    List.filter_eq_self.mpr fun task member => by simp [absent task member]
  refine ⟨rfl, rfl, ?_, rfl⟩
  have line : (timeline.spawn name event).tasks = timeline.tasks ++ [.delivery (some name) event
      (Delivery.handle timeline.clock event timeline.store).verdict] :=
    congrArg (· ++ _) unchanged
  rw [line, List.filter_append]
  have hidden : [Task.delivery (some name) event
      (Delivery.handle timeline.clock event timeline.store).verdict].filter
        (fun task => !task.isDelivery name) = [] := by simp [Task.isDelivery]
  exact (congr (congrArg List.append others) hidden |>.trans (List.append_nil _)).symm

theorem Settled.relieved_spawn (settled : timeline.Settled) (name : String) (event : Event) :
    ((timeline.spawn name event).relieved name).Settled where
  whole := settled.whole
  awaits := by
    intro task member
    obtain ⟨present, spared⟩ := List.mem_filter.mp member
    rcases List.mem_append.mp present with earlier | new
    · obtain ⟨former, there, rfl⟩ := List.mem_map.mp earlier
      exact (settled.awaits former there).renamed (Task.isDelivery name)
    · obtain rfl := List.mem_singleton.mp new
      simp [Task.isDelivery] at spared

theorem Settled.spawned (settled : timeline.Settled) (name : String) (event : Event) :
    let spawned := (timeline.step (.spawn name event)).2
    spawned.clock = timeline.clock ∧
      spawned.store = (Delivery.handle timeline.clock event timeline.store).store := by
  have ran := (matches_relieved name (timeline.spawn name event)).runDue
  rw [(settled.relieved_spawn name event).runDue_eq] at ran
  exact ⟨ran.clock.symm, ran.alike⟩

theorem log_nil (timeline : Timeline) : timeline.log [] = timeline := by
  unfold log
  rw [List.append_nil]

theorem step_join (timeline : Timeline) (name : String) :
    timeline.step (.join name) =
      (.answer (timeline.join name).1, (timeline.join name).2.runDue) := rfl

theorem step_handle (timeline : Timeline) (event : Event) :
    timeline.step (.handle event) =
      (.answer (some (timeline.attend event).1), (timeline.attend event).2.runDue) := rfl

namespace Bears

variable {alone : Timeline}

theorem join_answered {answer : Answer} (bears : timeline.Bears name event (.answered answer))
    (settled : timeline.Settled) (isMatch : (bearer name).Matches timeline alone) :
    let joined := timeline.step (.join name)
    joined.1 = .answer (some answer) ∧ joined.2.SameButLog alone := by
  intro joined
  have steps : joined = _ := timeline.step_join name
  rw [bears.join_of_answered settled, (settled.relieved name).runDue_eq] at steps
  rw [steps]
  exact ⟨rfl, isMatch.sameButLog⟩

theorem join_pausing {seconds deadline : Nat}
    (bears : timeline.Bears name event (.pausing seconds deadline)) (settled : timeline.Settled)
    (isMatch : (bearer name).Matches timeline alone) (records : List LogRecord) :
    let joined := timeline.step (.join name)
    joined.1 = .answer (some .ack) ∧
      joined.2.SameButLog ((alone.advanceTo (Instant.ceiling deadline)).log records).runDue := by
  intro joined
  have steps : joined = _ := timeline.step_join name
  have settledAlone := isMatch.settled settled
  have found := bears.found settled
  by_cases ended : deadline ≤ timeline.clock
  · have reached := (Instant.ceiling_le_iff deadline settled.whole).mpr ended
    rw [← isMatch.clock] at reached
    simp only [Verdict.asOf, if_pos ended] at found
    rw [Timeline.join_of_answered found, (settled.relieved name).runDue_eq] at steps
    rw [steps, settledAlone.advanceTo_eq reached, (settledAlone.log records).runDue_eq]
    exact ⟨rfl, (isMatch.logRight records).sameButLog⟩
  · simp only [Verdict.asOf, if_neg ended] at found
    have waited := isMatch.advanceTo settled (Instant.ceiling deadline)
    have settledWaited := (settled.advanceTo (Instant.whole_ceiling deadline)).runDue
    rw [Timeline.join_of_pausing found, (settledWaited.relieved name).runDue_eq] at steps
    rw [steps]
    exact ⟨rfl, (waited.logRight records).runDue.sameButLog⟩

end Bears

theorem spawn_join (settled : timeline.Settled) (fresh : timeline.isFinished? name = none)
    (event : Event) :
    let joined := (timeline.step (.spawn name event)).2.step (.join name)
    let handled := timeline.step (.handle event)
    joined.1 = handled.1 ∧ joined.2.SameButLog handled.2 := by
  intro joined handled
  have decided := settled.decide event
  have settledSpawned := settled.step (.spawn name event)
  have bears := settled.bears_spawn name event
  have isMatch : (bearer name).Matches (timeline.step (.spawn name event)).2
      (timeline.decide event).2 := by
    have performed := (matches_spawn fresh event).runDue
    rw [decided.runDue_eq] at performed
    exact performed
  have steps : handled = _ := timeline.step_handle event
  have verdict : (timeline.decide event).1 =
      (Delivery.handle timeline.clock event timeline.store).verdict := rfl
  unfold attend at steps
  cases decision : timeline.decide event with
  | mk reached after =>
      rw [decision] at steps decided isMatch verdict
      rw [← verdict] at bears
      cases reached with
      | answered answer =>
          simp only [decided.runDue_eq] at steps
          rw [steps]
          exact bears.join_answered settledSpawned isMatch
      | pausing seconds deadline =>
          rw [steps]
          exact bears.join_pausing settledSpawned isMatch [Delivery.pauseRecord event seconds]

end Timeline

/-! ### Counting what is pending -/

def StoreCall.Concerns (id : String) : StoreCall → Prop
  | .increase other | .delete other => other = id
  | .reset => True
  | .advance _ | .get _ | .removeStale | .size => False

/-- An id has a count, and keeps it until some instant if it is left alone. -/
def Session.Counts (id : String) (count limit : Nat) (session : Session) : Prop :=
  ∀ later, session.clock ≤ later →
    session.store.get later id = if later < limit then count else 0

namespace Session.Counts

variable {id : String} {count limit : Nat} {session next : Session}

theorem elapses (counts : session.Counts id count limit) (elapses : session.Elapses next) :
    next.Counts id count limit := by
  induction elapses with
  | refl => exact counts
  | advance wait _ ih =>
      exact fun later since => ih later (Nat.le_trans (Nat.le_add_right _ wait) since)
  | @sweep next _ ih =>
      intro later since
      exact (next.store.get_removeStale id since).trans (ih later since)

theorem aside (counts : session.Counts id count limit) (calls : List StoreCall)
    (unconcerned : ∀ call ∈ calls, ¬ call.Concerns id) :
    (session.after calls).Counts id count limit := by
  induction calls generalizing session with
  | nil => exact counts
  | cons call rest ih =>
      have different := unconcerned call List.mem_cons_self
      refine ih ?_ fun other member => unconcerned other (List.mem_cons_of_mem call member)
      cases call with
      | advance wait => exact counts.elapses (.advance wait .refl)
      | removeStale => exact counts.elapses (.sweep .refl)
      | get other | size => exact counts
      | reset => exact absurd trivial different
      | increase other =>
          intro later since
          have elsewhere : id ≠ other := fun same => different same.symm
          refine (CountStore.get_increase session.clock later other id session.store).trans ?_
          rw [if_neg elsewhere]
          exact counts later since
      | delete other =>
          intro later since
          have elsewhere : id ≠ other := fun same => different same.symm
          refine (CountStore.get_delete later other id session.store).trans ?_
          rw [if_neg elsewhere]
          exact counts later since

theorem increase (session : Session) (id : String) :
    (session.after [.increase id]).Counts id (session.store.observed session.clock id).count
      (session.clock + session.store.ttl) := by
  intro later _
  refine (CountStore.get_increase session.clock later id id session.store).trans ?_
  rw [if_pos rfl]
  by_cases expired : session.clock + session.store.ttl ≤ later
  · rw [if_pos expired, if_neg (Nat.not_lt_of_le expired)]
  · rw [if_neg expired, if_pos (Nat.lt_of_not_le expired)]
    rfl

end Session.Counts

theorem Session.calls_of_delayed (session : Session) {event : Event} {seconds : Nat}
    (delays : Delivery.action? session.clock event session.store = some (.delayAck seconds)) :
    event.calls (session.retries event.id) = [.increase event.id] := by
  unfold Event.calls
  unfold Delivery.action? at delays
  cases read : Instruction.ofBody event.data with
  | error error =>
      rw [read] at delays
      cases delays
  | ok instructions =>
      rw [read] at delays
      have undertakes : Delivery.executed? (session.retries event.id) instructions =
          some (.delayAck seconds) := delays
      simp [undertakes]

structure Counted where
  instant : Nat
  count : Nat
  deriving DecidableEq, Repr

/-- Whether a delivery is the next to be counted after another, and as the first again if the other
has expired. -/
def Counted.Follows (period : Nat) (earlier later : Counted) : Prop :=
  later.count = if later.instant < earlier.instant + period then earlier.count + 1 else 1

namespace Timeline

def counted (timeline : Timeline) (id : String) : Counted :=
  { instant := timeline.clock, count := (timeline.store.observed timeline.clock id).count }

/-- Steps that leave an id alone, among them deliveries of it that are spawned and pause, with the
way in which each of these is counted. -/
inductive Defers (id : String) : Timeline → List ScenarioStep → List Counted → Prop
  | done (timeline : Timeline) : Defers id timeline [] []
  | spawn {timeline : Timeline} {name : String} {event : Event} {rest : List ScenarioStep}
      {counted : List Counted} {seconds : Nat} (same : event.id = id)
      (delays : Delivery.action? timeline.clock event timeline.store = some (.delayAck seconds))
      (later : Defers id (timeline.step (.spawn name event)).2 rest counted) :
      Defers id timeline (.spawn name event :: rest) (timeline.counted id :: counted)
  | aside {timeline : Timeline} {step : ScenarioStep} {rest : List ScenarioStep}
      {counted : List Counted}
      (unconcerned : ∀ call ∈ step.calls timeline.session.retries, ¬ call.Concerns id)
      (later : Defers id (timeline.step step).2 rest counted) :
      Defers id timeline (step :: rest) counted

theorem counts_spawn (timeline : Timeline) (name : String) {event : Event} {seconds : Nat}
    (delays : Delivery.action? timeline.clock event timeline.store = some (.delayAck seconds)) :
    (timeline.step (.spawn name event)).2.session.Counts event.id
      (timeline.counted event.id).count (timeline.clock + timeline.store.ttl) := by
  have elapses := timeline.elapses_step (.spawn name event)
  have calls : (ScenarioStep.spawn name event).calls timeline.session.retries =
      [.increase event.id] := timeline.session.calls_of_delayed delays
  rw [calls] at elapses
  exact (Session.Counts.increase timeline.session event.id).elapses elapses

theorem Defers.follow {period : Nat} {id : String} {timeline : Timeline} {account : Account}
    {steps : List ScenarioStep} {counted : List Counted} {last : Counted}
    (defers : timeline.Defers id steps counted) (agrees : Agrees period timeline account)
    (current : timeline.session.Counts id last.count (last.instant + period)) :
    (last :: counted).IsChain (Counted.Follows period) ∧
      (timeline.played steps).session.Counts id (counted.getLastD last).count
        ((counted.getLastD last).instant + period) := by
  induction defers generalizing last account with
  | done timeline => exact ⟨.singleton last, current⟩
  | @spawn timeline name event rest counted seconds same delays later ih =>
      subst same
      have follows : Counted.Follows period last (timeline.counted event.id) := by
        have here := current timeline.clock (Nat.le_refl _)
        refine (congrArg (· + 1) here).trans ?_
        exact apply_ite (· + 1) _ _ _
      have ttl : timeline.store.ttl = period := agrees.tracks.recent.ttl
      have spawned := timeline.counts_spawn name delays
      rw [ttl] at spawned
      obtain ⟨chain, counts⟩ := ih (agrees.move (.take (.spawn name event))) spawned
      rw [List.getLastD_cons]
      exact ⟨.cons_cons follows chain, counts⟩
  | @aside timeline step rest counted unconcerned later ih =>
      have passed := (current.aside _ unconcerned).elapses (timeline.elapses_step step)
      exact ih (agrees.move (.take step)) passed

end Timeline

/-- A spawned delivery does all it does to the store when it is spawned, as if it were made
directly. One that does not pause has then been answered; one that does is acknowledged when its
pause is over, whatever the steps that do not take it. Everything else goes as if its task were not
there, and an id whose deliveries are pending is counted once by each, in the order in which they
were spawned. -/
theorem spawned_independent (ttl : Nat) (before : List ScenarioStep) (name : String)
    (event : Event) :
    let period := min ttl Period.longest
    let timeline := (Timeline.start ttl).played before
    let action? := Delivery.action? timeline.clock event timeline.store
    let handled := timeline.step (.handle event)
    let spawned := (timeline.step (.spawn name event)).2
    (spawned.clock = timeline.clock ∧
      spawned.store = (Delivery.handle timeline.clock event timeline.store).store) ∧
    (timeline.isFinished? name = none →
      let joined := spawned.step (.join name)
      joined.1 = handled.1 ∧ joined.2.SameButLog handled.2) ∧
    (∀ later, (∀ step ∈ later, step.taker? ≠ some name) →
      let reached := spawned.played later
      let alone := (spawned.relieved name).played later
      let joined := reached.step (.join name)
      (reached.clock = alone.clock ∧ reached.store = alone.store ∧
        ∀ step, step.bearer? ≠ some name → (reached.step step).1 = (alone.step step).1) ∧
      ((∀ seconds, action? ≠ some (.delayAck seconds)) →
        (reached.step (.poll name)).1 = .finished (some true) ∧
        joined.1 = handled.1 ∧ joined.2.clock = reached.clock ∧ joined.2.SameButLog alone) ∧
      (∀ seconds, action? = some (.delayAck seconds) →
        let deadline := timeline.clock + Period.ofSeconds seconds
        deadline < Instant.range →
          (reached.step (.poll name)).1 = .finished (some (decide (deadline ≤ reached.clock))) ∧
          joined.1 = .answer (some .ack) ∧ joined.2.clock = max reached.clock deadline ∧
          joined.2.SameButLog (alone.advanceTo deadline).runDue)) ∧
    (∀ seconds, action? = some (.delayAck seconds) →
      spawned.store = timeline.store.increase timeline.clock event.id ∧
      ∀ later counted, spawned.Defers event.id later counted →
        let reached := spawned.played later
        let first := timeline.counted event.id
        let last := counted.getLastD first
        (first :: counted).IsChain (Counted.Follows period) ∧
        reached.store.get reached.clock event.id =
          if reached.clock < last.instant + period then last.count else 0) := by
  intro period timeline action? handled spawned
  have settled : timeline.Settled := (Timeline.settled_start ttl).played before
  have agrees : Agrees period timeline _ := Timeline.agrees_played ttl before
  refine ⟨settled.spawned name event, fun fresh => Timeline.spawn_join settled fresh event, ?_, ?_⟩
  · intro later apart reached alone joined
    have bears := (settled.bears_spawn name event).played (settled.step _) later apart
    have settledReached : reached.Settled := (settled.step _).played later
    have isMatch : (Veil.bearer name).Matches reached alone :=
      (Veil.matches_relieved name spawned).playedOver (settled.step _) later apart
    refine ⟨⟨isMatch.clock.symm, isMatch.alike, ?_⟩, ?_, ?_⟩
    · intro step elsewhere
      exact (isMatch.stepOver settledReached elsewhere).1
    · intro prompt
      obtain ⟨answer, verdict⟩ := Delivery.exists_answered prompt
      rw [verdict] at bears
      obtain ⟨result, joins⟩ := bears.join_answered settledReached isMatch
      have direct : handled.1 = .answer (some answer) := by
        have answered := timeline.attend_answer event
        rw [verdict] at answered
        exact congrArg (StepResult.answer ∘ some) answered
      exact ⟨congrArg StepResult.finished (bears.poll_of_answered settledReached),
        result.trans direct.symm, joins.clock.trans isMatch.clock, joins⟩
    · intro seconds delays deadline shown
      have verdict := (Delivery.verdict_eq_pausing_iff seconds deadline).mpr
        ⟨delays, (if_pos shown).symm⟩
      have whole : Period.millisecond ∣ deadline :=
        Nat.dvd_add settled.whole (Nat.dvd_mul_left_of_dvd (by decide) seconds)
      rw [verdict] at bears
      obtain ⟨result, joins⟩ := bears.join_pausing settledReached isMatch []
      rw [Timeline.log_nil, Instant.ceiling_of_whole whole] at joins
      refine ⟨congrArg StepResult.finished (bears.poll_of_pausing settledReached), result, ?_,
        joins⟩
      have clock := joins.clock
      rw [Timeline.clock_runDue, Timeline.clock_advanceTo, isMatch.clock] at clock
      exact clock
  · intro seconds delays
    have increased := Delivery.store_of_delayed delays
    refine ⟨(settled.spawned name event).2.trans increased, ?_⟩
    intro later counted defers reached first last
    have ttl : timeline.store.ttl = period := agrees.tracks.recent.ttl
    have current := timeline.counts_spawn name delays
    rw [ttl] at current
    obtain ⟨chain, counts⟩ := defers.follow (agrees.move (.take (.spawn name event))) current
    exact ⟨chain, counts reached.clock (Nat.le_refl _)⟩

theorem spawned_independent_twice :
    let note : Event :=
      { id := "1", type := "note", source := "/", specVersion := "1.0",
        dataContentType := some "application/json",
        data := Bytes.ofText "[[\"\", \"delay-ack:3\"]]" }
    let spawned := ((Timeline.start (Period.ofSeconds 10)).step (.spawn "first" note)).2
    let reached := spawned.played [.spawn "second" note]
    (reached.step (.poll "first")).1 =
        .finished (some (decide (Period.ofSeconds 3 ≤ reached.clock))) ∧
      (reached.step (.join "first")).1 = .answer (some .ack) ∧
      reached.store.get reached.clock "1" = 2 := by
  intro note spawned reached
  obtain ⟨_, _, later, counted⟩ := spawned_independent (Period.ofSeconds 10) [] "first" note
  have delays : Delivery.action? spawned.clock note spawned.store = some (.delayAck 3) := by
    decide +kernel
  have defers : spawned.Defers "1" [.spawn "second" note] [spawned.counted "1"] :=
    .spawn rfl delays (.done _)
  obtain ⟨_, _, delayed⟩ := later [.spawn "second" note] (by decide)
  obtain ⟨poll, join, _⟩ := delayed 3 (by decide +kernel) (by decide)
  obtain ⟨_, count⟩ := (counted 3 (by decide +kernel)).2 _ _ defers
  refine ⟨poll, join, count.trans ?_⟩
  decide +kernel

end ScriptedResponder
