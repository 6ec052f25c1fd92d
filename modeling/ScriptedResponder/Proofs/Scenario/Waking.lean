import ScriptedResponder.Proofs.Delivery.Endings
import ScriptedResponder.Proofs.Scenario.Owed

/-!
No task oversleeps. Between the steps of a scenario every task waits for an instant that is still to
come, and while a step waits the clock stops at each of these instants in turn. So what time does to
a timeline is made of two things, a move of the clock that passes no wake, and running what is due;
`Settled.advanceTo_induction` gives a proof about them to every wait. `Settled.played` says that
every scenario stays on time.
-/

set_option autoImplicit false

namespace ScriptedResponder

namespace Instant

theorem whole_ceiling (instant : Nat) : Period.millisecond ∣ ceiling instant :=
  Nat.dvd_mul_left Period.millisecond _

/-- On a clock of whole milliseconds an instant and its ceiling have come at the same time. -/
theorem ceiling_le_iff {clock : Nat} (instant : Nat) (whole : Period.millisecond ∣ clock) :
    ceiling instant ≤ clock ↔ instant ≤ clock := by
  obtain ⟨milliseconds, rfl⟩ := whole
  simp only [ceiling, Period.millisecond]
  omega

theorem le_ceiling (instant : Nat) : instant ≤ ceiling instant :=
  (ceiling_le_iff instant (whole_ceiling instant)).mp (Nat.le_refl _)

theorem ceiling_mono {first second : Nat} (before : first ≤ second) :
    ceiling first ≤ ceiling second :=
  (ceiling_le_iff first (whole_ceiling second)).mpr (Nat.le_trans before (le_ceiling second))

theorem ceiling_of_whole {instant : Nat} (whole : Period.millisecond ∣ instant) :
    ceiling instant = instant :=
  Nat.le_antisymm ((ceiling_le_iff instant whole).mpr (Nat.le_refl instant)) (le_ceiling instant)

theorem ceiling_lt_add {every : Nat} (due : Nat) (paced : Period.millisecond ≤ every) :
    ceiling due < ceiling (due + every) := by
  simp only [ceiling, Period.millisecond] at *
  omega

theorem le_deadline (now wait : Nat) : now ≤ deadline now wait := by
  unfold deadline
  split <;> omega

end Instant

namespace Task

/-- A task that was not to wake before an instant, and sweeps no faster than is allowed. -/
structure Awaits (instant : Nat) (task : Task) : Prop where
  wake : ∀ wake, task.wake? = some wake → instant ≤ wake
  paced : ∀ name every due, task = .sweeper name every due → Period.millisecond ≤ every

theorem wake?_unnamed (task : Task) : task.unnamed.wake? = task.wake? := by
  cases task with
  | sweeper name every due => rfl
  | delivery name event verdict => cases verdict <;> rfl

theorem filter_renamed {bears chosen : Task → Bool}
    (same : ∀ task, bears task = true → chosen task.unnamed = chosen task) (tasks : List Task) :
    (tasks.map fun task => if bears task then task.unnamed else task).filter chosen =
      (tasks.filter chosen).map fun task => if bears task then task.unnamed else task := by
  have unmoved : (chosen ∘ fun task => if bears task then task.unnamed else task) = chosen := by
    funext task
    cases borne : bears task with
    | true => simp [borne, same task borne]
    | false => simp [borne]
  rw [List.filter_map, unmoved]

theorem map_renamed {bears : Task → Bool} {tasks : List Task}
    (others : ∀ task ∈ tasks, bears task = false) :
    (tasks.map fun task => if bears task then task.unnamed else task) = tasks := by
  refine (List.map_congr_left fun task member => ?_).trans (List.map_id tasks)
  rw [others task member]
  rfl

theorem isDue_iff {clock : Nat} {task : Task} :
    task.isDue clock = true ↔ ∃ wake, task.wake? = some wake ∧ wake ≤ clock := by
  unfold isDue
  cases task.wake? <;> simp

namespace Awaits

variable {instant earlier clock : Nat} {task : Task}

theorem mono (awaits : task.Awaits instant) (before : earlier ≤ instant) : task.Awaits earlier where
  wake := fun wake wakes => Nat.le_trans before (awaits.wake wake wakes)
  paced := awaits.paced

theorem unnamed (awaits : task.Awaits instant) : task.unnamed.Awaits instant where
  wake := by
    intro wake wakes
    rw [wake?_unnamed] at wakes
    exact awaits.wake wake wakes
  paced := by
    intro name every due same
    cases task with
    | sweeper other period next =>
        obtain ⟨_, rfl, _⟩ := Task.sweeper.inj same
        exact awaits.paced other period next rfl
    | delivery other event verdict => cases same

theorem renamed (awaits : task.Awaits instant) (bears : Task → Bool) :
    (if bears task then task.unnamed else task).Awaits instant := by
  split
  · exact awaits.unnamed
  · exact awaits

theorem fired (awaits : task.Awaits clock) (due : task.isDue clock = true) :
    task.fired.Awaits (clock + 1) := by
  cases task with
  | sweeper name every due' =>
      obtain ⟨wake, wakes, reached⟩ := isDue_iff.mp due
      obtain rfl := Option.some.inj wakes
      have paced := awaits.paced name every due' rfl
      constructor
      · intro wake wakes
        obtain rfl := Option.some.inj wakes
        have before := awaits.wake _ rfl
        have after := Instant.ceiling_lt_add due' paced
        omega
      · rintro _ _ _ ⟨⟩
        exact paced
  | delivery name event verdict => exact ⟨fun _ => nofun, fun _ _ _ => nofun⟩

theorem undue (awaits : task.Awaits clock) (undue : task.isDue clock = false) :
    task.Awaits (clock + 1) where
  wake := by
    intro wake wakes
    have early : ¬ wake ≤ clock := fun reached => by
      rw [isDue_iff.mpr ⟨wake, wakes, reached⟩] at undue
      cases undue
    omega
  paced := awaits.paced

theorem isDue_eq_false (awaits : task.Awaits (clock + 1)) : task.isDue clock = false := by
  cases due : task.isDue clock with
  | false => rfl
  | true =>
      obtain ⟨wake, wakes, reached⟩ := isDue_iff.mp due
      have later := awaits.wake wake wakes
      omega

end Awaits

end Task

namespace Timeline

variable {timeline : Timeline} {target : Nat}

/-! ### Advancing -/

theorem nextWake?_eq_none_iff :
    timeline.nextWake? = none ↔ ∀ task ∈ timeline.tasks, task.wake? = none := by
  rw [nextWake?, List.min?_eq_none_iff, List.filterMap_eq_nil_iff]

theorem nextWake?_eq_some_iff {wake : Nat} :
    timeline.nextWake? = some wake ↔
      (∃ task ∈ timeline.tasks, task.wake? = some wake) ∧
        ∀ task ∈ timeline.tasks, ∀ other, task.wake? = some other → wake ≤ other := by
  rw [nextWake?, List.min?_eq_some_iff, List.mem_filterMap]
  constructor
  · rintro ⟨first, least⟩
    exact ⟨first, fun task member other wakes =>
      least other (List.mem_filterMap.mpr ⟨task, member, wakes⟩)⟩
  · rintro ⟨first, least⟩
    refine ⟨first, fun other member => ?_⟩
    obtain ⟨task, present, wakes⟩ := List.mem_filterMap.mp member
    exact least task present other wakes

theorem clock_advanceTo (target : Nat) (timeline : Timeline) :
    (timeline.advanceTo target).clock = max timeline.clock target := by
  fun_induction advanceTo target timeline with
  | case1 timeline _ => rfl
  | case2 timeline wake _ between ih =>
      rw [ih, clock_runDue]
      have before : timeline.clock < target := Nat.lt_trans between.1 between.2
      rw [Nat.max_eq_right (Nat.le_of_lt between.2), Nat.max_eq_right (Nat.le_of_lt before)]
  | case3 timeline wake _ _ => rfl

theorem advanceTo_of_wakes_ge (timeline : Timeline)
    (later : ∀ task ∈ timeline.tasks, ∀ wake, task.wake? = some wake → target ≤ wake) :
    timeline.advanceTo target = { timeline with clock := max timeline.clock target } := by
  rw [advanceTo]
  split
  · rfl
  · rename_i wake next
    obtain ⟨⟨task, member, wakes⟩, _⟩ := nextWake?_eq_some_iff.mp next
    have reached := later task member wake wakes
    rw [dif_neg (by omega)]

theorem tasks_runDue (timeline : Timeline) :
    timeline.runDue.tasks =
      (timeline.tasks.filter fun task => !task.isDue timeline.clock) ++
        (timeline.tasks.filter (Task.isDue timeline.clock)).map Task.fired :=
  tasks_foldl_fire _ _

theorem runDue_of_undue (undue : ∀ task ∈ timeline.tasks, task.isDue timeline.clock = false) :
    timeline.runDue = timeline := by
  have none : timeline.tasks.filter (Task.isDue timeline.clock) = [] :=
    List.filter_eq_nil_iff.mpr fun task member => by simp [undue task member]
  have all : (timeline.tasks.filter fun task => !task.isDue timeline.clock) = timeline.tasks :=
    List.filter_eq_self.mpr fun task member => by simp [undue task member]
  rw [runDue, none, all]
  rfl

/-- On its way the clock may stop at any instant that passes no wake, whether or not a task wakes
there. -/
theorem advanceTo_through {stop : Nat} (after : timeline.clock < stop) (before : stop < target)
    (later : ∀ task ∈ timeline.tasks, ∀ wake, task.wake? = some wake → stop ≤ wake) :
    timeline.advanceTo target = ({ timeline with clock := stop }.runDue).advanceTo target := by
  cases next : timeline.nextWake? with
  | none =>
      have idle := nextWake?_eq_none_iff.mp next
      have undue : { timeline with clock := stop }.runDue = { timeline with clock := stop } :=
        runDue_of_undue fun task member => by simp only [Task.isDue, idle task member]
      have asleep : ∀ task ∈ timeline.tasks, ∀ wake, task.wake? = some wake → target ≤ wake := by
        intro task member wake wakes
        rw [idle task member] at wakes
        cases wakes
      rw [undue, advanceTo_of_wakes_ge timeline asleep,
        advanceTo_of_wakes_ge { timeline with clock := stop } asleep]
      simp only [Timeline.mk.injEq, and_true]
      omega
  | some wake =>
      obtain ⟨⟨first, present, wakes⟩, least⟩ := nextWake?_eq_some_iff.mp next
      have reached := later first present wake wakes
      by_cases here : wake = stop
      · subst here
        conv => lhs; rw [advanceTo]
        simp only [next]
        rw [dif_pos ⟨after, before⟩]
      · have undue : { timeline with clock := stop }.runDue = { timeline with clock := stop } := by
          apply runDue_of_undue
          intro task member
          cases due : task.isDue stop with
          | false => rfl
          | true =>
              obtain ⟨other, otherWakes, early⟩ := Task.isDue_iff.mp due
              have least := least task member other otherWakes
              omega
        have same : ({ timeline with clock := stop } : Timeline).nextWake? = some wake := next
        rw [undue]
        conv => lhs; rw [advanceTo]
        conv => rhs; rw [advanceTo]
        simp only [next, same]
        by_cases within : wake < target
        · rw [dif_pos ⟨by omega, within⟩, dif_pos ⟨by omega, within⟩]
        · rw [dif_neg (by omega), dif_neg (by omega)]
          simp only [Timeline.mk.injEq, and_true]
          omega

/-! ### Joining -/

def relieved (name : String) (timeline : Timeline) : Timeline :=
  { timeline with tasks := timeline.tasks.filter fun task => !task.isDelivery name }

-- This is stated of any timeline, so that checking a use of it never unfolds an advance.
theorem clock_log (records : List LogRecord) (timeline : Timeline) :
    (timeline.log records).clock = timeline.clock := rfl

section Join

variable {name : String} {other : Option String} {event : Event}

theorem join_of_none (found : timeline.tasks.find? (Task.isDelivery name) = none) :
    timeline.join name = (none, timeline) := by
  unfold join
  rw [found]

theorem join_of_answered {answer : Answer}
    (found : timeline.tasks.find? (Task.isDelivery name) =
      some (.delivery other event (.answered answer))) :
    timeline.join name = (some answer, timeline.relieved name) := by
  unfold join
  rw [found]
  rfl

theorem join_of_pausing {seconds deadline : Nat}
    (found : timeline.tasks.find? (Task.isDelivery name) =
      some (.delivery other event (.pausing seconds deadline))) :
    timeline.join name =
      (some .ack, (timeline.advanceTo (Instant.ceiling deadline)).runDue.relieved name) := by
  unfold join
  rw [found]
  rfl

theorem find?_isDelivery_cases (timeline : Timeline) (name : String) :
    timeline.tasks.find? (Task.isDelivery name) = none ∨
      ∃ event verdict, timeline.tasks.find? (Task.isDelivery name) =
        some (.delivery (some name) event verdict) := by
  cases found : timeline.tasks.find? (Task.isDelivery name) with
  | none => exact .inl rfl
  | some task =>
      have bears : task.isDelivery name = true := List.find?_some found
      cases task with
      | sweeper _ _ _ => cases bears
      | delivery other event verdict =>
          obtain rfl : other = some name := of_decide_eq_true bears
          exact .inr ⟨event, verdict, rfl⟩

end Join

/-! ### Being on time -/

/-- Tasks that wake at the instant of the clock are still to run, but none is late. -/
structure OnTime (timeline : Timeline) : Prop where
  whole : Period.millisecond ∣ timeline.clock
  awaits : ∀ task ∈ timeline.tasks, task.Awaits timeline.clock

/-- Whatever was to run has run. -/
structure Settled (timeline : Timeline) : Prop where
  whole : Period.millisecond ∣ timeline.clock
  awaits : ∀ task ∈ timeline.tasks, task.Awaits (timeline.clock + 1)

theorem Settled.onTime (settled : timeline.Settled) : timeline.OnTime where
  whole := settled.whole
  awaits := fun task member => (settled.awaits task member).mono (Nat.le_succ _)

theorem Settled.runDue_eq (settled : timeline.Settled) : timeline.runDue = timeline :=
  runDue_of_undue fun task member => (settled.awaits task member).isDue_eq_false

theorem Settled.advanceTo_eq (settled : timeline.Settled) (past : target ≤ timeline.clock) :
    timeline.advanceTo target = timeline := by
  have awake : ∀ task ∈ timeline.tasks, ∀ wake, task.wake? = some wake → target ≤ wake := by
    intro task member wake wakes
    have ahead := (settled.awaits task member).wake wake wakes
    omega
  rw [advanceTo_of_wakes_ge timeline awake, Nat.max_eq_left past]

theorem OnTime.runDue (onTime : timeline.OnTime) : timeline.runDue.Settled where
  whole := by
    rw [clock_runDue]
    exact onTime.whole
  awaits := by
    intro task member
    rw [tasks_runDue, List.mem_append, List.mem_map] at member
    rw [clock_runDue]
    rcases member with waiting | ⟨woken, due, rfl⟩
    · obtain ⟨present, undue⟩ := List.mem_filter.mp waiting
      exact (onTime.awaits task present).undue (by simpa using undue)
    · obtain ⟨present, due⟩ := List.mem_filter.mp due
      exact (onTime.awaits woken present).fired due

theorem Settled.onTime_nextWake (settled : timeline.Settled) {wake : Nat}
    (next : timeline.nextWake? = some wake) : { timeline with clock := wake }.OnTime := by
  obtain ⟨⟨first, _, wakes⟩, least⟩ := nextWake?_eq_some_iff.mp next
  refine ⟨?_, fun task member => ⟨least task member, (settled.awaits task member).paced⟩⟩
  cases first with
  | sweeper name every due =>
      obtain rfl := Option.some.inj wakes
      exact Instant.whole_ceiling due
  | delivery name event verdict =>
      cases verdict with
      | answered answer => cases wakes
      | pausing seconds deadline =>
          obtain rfl := Option.some.inj wakes
          exact Instant.whole_ceiling deadline

/-- What holds before a wait, and of a timeline whose clock passes no wake, and of one that has run
what is due, holds after the wait. -/
theorem Settled.advanceTo_induction {motive : Timeline → Prop} (target : Nat)
    (whole : Period.millisecond ∣ target)
    (later : ∀ (timeline : Timeline) (clock : Nat), timeline.Settled → motive timeline →
      timeline.clock ≤ clock → { timeline with clock }.OnTime → motive { timeline with clock })
    (run : ∀ timeline : Timeline, timeline.OnTime → motive timeline → motive timeline.runDue)
    (settled : timeline.Settled) (start : motive timeline) :
    motive (timeline.advanceTo target) := by
  have reached (current : Timeline) : current.Settled →
      Period.millisecond ∣ max current.clock target := by
    intro settled
    rcases Nat.le_total current.clock target with below | above
    · rwa [Nat.max_eq_right below]
    · rw [Nat.max_eq_left above]
      exact settled.whole
  fun_induction Timeline.advanceTo target timeline with
  | case1 timeline none =>
      have idle := nextWake?_eq_none_iff.mp none
      refine later timeline _ settled start (Nat.le_max_left _ _) ⟨reached timeline settled, ?_⟩
      intro task member
      refine ⟨fun wake wakes => ?_, (settled.awaits task member).paced⟩
      rw [idle task member] at wakes
      cases wakes
  | case2 timeline wake next between ih =>
      have woken := settled.onTime_nextWake next
      exact ih woken.runDue
        (run _ woken (later timeline wake settled start (Nat.le_of_lt between.1) woken))
  | case3 timeline wake next outside =>
      obtain ⟨⟨first, present, wakes⟩, least⟩ := nextWake?_eq_some_iff.mp next
      have ahead := (settled.awaits first present).wake wake wakes
      refine later timeline _ settled start (Nat.le_max_left _ _) ⟨reached timeline settled, ?_⟩
      intro task member
      refine ⟨fun other otherWakes => ?_, (settled.awaits task member).paced⟩
      have least := least task member other otherWakes
      show max timeline.clock target ≤ other
      omega

theorem Settled.advanceTo (settled : timeline.Settled) (whole : Period.millisecond ∣ target) :
    (timeline.advanceTo target).OnTime :=
  settled.advanceTo_induction target whole (fun _ _ _ _ _ onTime => onTime)
    (fun _ onTime _ => onTime.runDue.onTime) settled.onTime

/-! ### Scenarios -/

theorem Settled.decide (settled : timeline.Settled) (event : Event) :
    (timeline.decide event).2.Settled := ⟨settled.whole, settled.awaits⟩

theorem OnTime.log (onTime : timeline.OnTime) (records : List LogRecord) :
    (timeline.log records).OnTime := ⟨onTime.whole, onTime.awaits⟩

theorem Settled.log (settled : timeline.Settled) (records : List LogRecord) :
    (timeline.log records).Settled := ⟨settled.whole, settled.awaits⟩

theorem Settled.attend (settled : timeline.Settled) (event : Event) :
    (timeline.attend event).2.OnTime := by
  have decided := settled.decide event
  unfold Timeline.attend
  split
  · rename_i answer after same
    rw [same] at decided
    exact decided.onTime
  · rename_i seconds deadline after same
    rw [same] at decided
    exact (decided.advanceTo (Instant.whole_ceiling deadline)).log _

theorem Settled.exchange (settled : timeline.Settled) (request : Http.Request) :
    (timeline.exchange request).2.OnTime := by
  unfold Timeline.exchange
  split
  · exact (settled.log _).onTime
  · rename_i event records _
    exact ((settled.log records).attend event).log _

theorem Settled.startSweeper (settled : timeline.Settled) (name : String) (every : Nat) :
    (timeline.startSweeper name every).Settled where
  whole := settled.whole
  awaits := by
    intro task member
    rcases List.mem_append.mp member with other | new
    · obtain ⟨task, present, rfl⟩ := List.mem_map.mp other
      exact (settled.awaits task present).renamed (Task.isSweeper name)
    · obtain rfl := List.mem_singleton.mp new
      have paced : Period.millisecond ≤
          max Period.shortestSweep (min every Period.longest) := Nat.le_max_left _ _
      constructor
      · intro wake wakes
        obtain rfl := Option.some.inj wakes
        have reached := Instant.le_ceiling
          (timeline.clock + max Period.shortestSweep (min every Period.longest))
        have long : 1 ≤ Period.millisecond := by decide
        show timeline.clock + 1 ≤ _
        omega
      · rintro _ _ _ ⟨⟩
        exact paced

theorem Settled.cancelSweeper (settled : timeline.Settled) (name : String) :
    (timeline.cancelSweeper name).2.Settled := by
  unfold Timeline.cancelSweeper
  split
  · exact ⟨settled.whole, fun task member => settled.awaits task (List.mem_filter.mp member).1⟩
  · exact settled

theorem Settled.spawn (settled : timeline.Settled) (name : String) (event : Event) :
    (timeline.spawn name event).OnTime where
  whole := settled.whole
  awaits := by
    intro task member
    rcases List.mem_append.mp member with other | new
    · obtain ⟨task, present, rfl⟩ := List.mem_map.mp other
      exact (settled.onTime.awaits task present).renamed (Task.isDelivery name)
    · obtain rfl := List.mem_singleton.mp new
      refine ⟨?_, fun _ _ _ => nofun⟩
      intro wake wakes
      cases verdict : (Delivery.handle timeline.clock event timeline.store).verdict with
      | answered answer =>
          simp only [verdict, Task.wake?] at wakes
          cases wakes
      | pausing seconds deadline =>
          simp only [verdict, Task.wake?, Option.some.injEq] at wakes
          obtain ⟨_, rfl⟩ := (Delivery.verdict_eq_pausing_iff seconds deadline).mp verdict
          subst wakes
          exact Nat.le_trans (Instant.le_deadline _ _) (Instant.le_ceiling _)

theorem Settled.relieved (settled : timeline.Settled) (name : String) :
    (timeline.relieved name).Settled where
  whole := settled.whole
  awaits := fun task member => settled.awaits task (List.mem_filter.mp member).1

theorem Settled.join (settled : timeline.Settled) (name : String) :
    (timeline.join name).2.Settled := by
  rcases timeline.find?_isDelivery_cases name with found | ⟨event, verdict, found⟩
  · rw [join_of_none found]
    exact settled
  · cases verdict with
    | answered answer =>
        rw [join_of_answered found]
        exact settled.relieved name
    | pausing seconds deadline =>
        rw [join_of_pausing found]
        exact (settled.advanceTo (Instant.whole_ceiling deadline)).runDue.relieved name

theorem Settled.perform (settled : timeline.Settled) (step : ScenarioStep) :
    (timeline.perform step).2.OnTime := by
  cases step with
  | sleep period => exact settled.advanceTo (Instant.whole_ceiling _)
  | startSweeper name every => exact (settled.startSweeper name every).onTime
  | cancelSweeper name => exact (settled.cancelSweeper name).onTime
  | handle event => exact settled.attend event
  | spawn name event => exact settled.spawn name event
  | join name => exact (settled.join name).onTime
  | exchange request => exact settled.exchange request
  | increase id | get id | delete id | reset | removeStale | isEmpty | ttl | poll name =>
      exact ⟨settled.onTime.whole, settled.onTime.awaits⟩

theorem Settled.step (settled : timeline.Settled) (step : ScenarioStep) :
    (timeline.step step).2.Settled := (settled.perform step).runDue

def played (timeline : Timeline) (steps : List ScenarioStep) : Timeline :=
  steps.foldl (fun timeline step => (timeline.step step).2) timeline

theorem played_append (timeline : Timeline) (before after : List ScenarioStep) :
    timeline.played (before ++ after) = (timeline.played before).played after :=
  List.foldl_append

theorem Settled.played (settled : timeline.Settled) (steps : List ScenarioStep) :
    (timeline.played steps).Settled := by
  induction steps generalizing timeline with
  | nil => exact settled
  | cons step rest ih => exact ih (settled.step step)

theorem settled_start (ttl : Nat) : (start ttl).Settled where
  whole := Nat.dvd_zero _
  awaits := by intro task member; cases member

end Timeline

end ScriptedResponder
