import ScriptedResponder.Proofs.Delivery.Likeness
import ScriptedResponder.Proofs.Scenario.Waking

/-!
Two timelines of which one lacks some tasks of the other. A veil hides tasks, and silences what they
log; behind it the two match as long as a hidden task that runs leaves a store that is alike. They
need not stop at the same instants: the timeline with more tasks wakes more often, and the other
passes through. `Matches.perform` says that a step that does not ask for a hidden task has the same
result on both, and lets them match again.
-/

set_option autoImplicit false

namespace ScriptedResponder

structure Veil extends Likeness where
  hides : Task → Bool
  silences : LogRecord → Bool
  hides_fired : ∀ task, hides task.fired = hides task
  silences_sweep : ∀ removed, silences (.staleRemoved removed) = true
  silences_pause : ∀ name event seconds deadline,
    hides (.delivery name event (.pausing seconds deadline)) = true →
      silences (Delivery.pauseRecord event seconds) = true
  sweep {now left right} : alike now left right → ∀ name every due,
    alike now (left.removeStale now)
      (if hides (.sweeper name every due) then right else right.removeStale now)

def ScenarioStep.bearer? : ScenarioStep → Option String
  | .spawn name _ | .poll name | .join name => some name
  | _ => none

def ScenarioStep.sweeps : ScenarioStep → Bool
  | .removeStale | .startSweeper _ _ | .cancelSweeper _ => true
  | _ => false

namespace Veil

variable {veil : Veil} {left right : Timeline}

/-- The right timeline is the left one without the tasks that are hidden. -/
structure Matches (veil : Veil) (left right : Timeline) : Prop where
  clock : right.clock = left.clock
  alike : veil.alike left.clock left.store right.store
  tasks : right.tasks = left.tasks.filter fun task => !veil.hides task
  records : right.records.filter (fun record => !veil.silences record) =
    left.records.filter fun record => !veil.silences record

/-- Deliveries of a name, and those that have lost it, are in sight. -/
def Shows (veil : Veil) (name : String) : Prop :=
  ∀ event verdict, veil.hides (.delivery (some name) event verdict) = false ∧
    veil.hides (.delivery none event verdict) = false

theorem Shows.hides_eq_false {name : String} (shows : veil.Shows name) {task : Task}
    (bears : task.isDelivery name = true) :
    veil.hides task = false ∧ veil.hides task.unnamed = false := by
  cases task with
  | sweeper other every due => cases bears
  | delivery other event verdict =>
      obtain rfl : other = some name := of_decide_eq_true bears
      exact shows event verdict

theorem filter_shown (veil : Veil) (chosen : Task → Bool) (tasks : List Task) :
    (tasks.filter fun task => !veil.hides task).filter chosen =
      (tasks.filter chosen).filter fun task => !veil.hides task := by
  rw [List.filter_filter, List.filter_filter]
  exact List.filter_congr fun task _ => Bool.and_comm _ _

theorem filter_silent {records : List LogRecord}
    (silent : ∀ record ∈ records, veil.silences record = true) :
    records.filter (fun record => !veil.silences record) = [] :=
  List.filter_eq_nil_iff.mpr fun record member => by simp [silent record member]

theorem silences_removed (timeline : Timeline) :
    let removed := timeline.store.staleCount timeline.clock
    ∀ record ∈ (if removed = 0 then [] else [LogRecord.staleRemoved removed]),
      veil.silences record = true := by
  intro removed
  split
  · exact fun _ => nofun
  · exact List.forall_mem_singleton.mpr (veil.silences_sweep removed)

namespace Matches

/-! ### Parts of a timeline -/

theorem logs (isMatch : veil.Matches left right) {ofLeft ofRight : List LogRecord}
    (same : ofRight.filter (fun record => !veil.silences record) =
      ofLeft.filter fun record => !veil.silences record) :
    veil.Matches (left.log ofLeft) (right.log ofRight) where
  clock := isMatch.clock
  alike := isMatch.alike
  tasks := isMatch.tasks
  records := by
    unfold Timeline.log
    rw [List.filter_append, List.filter_append, isMatch.records, same]

theorem log (isMatch : veil.Matches left right) (records : List LogRecord) :
    veil.Matches (left.log records) (right.log records) := isMatch.logs rfl

theorem logLeft (isMatch : veil.Matches left right) {records : List LogRecord}
    (silent : ∀ record ∈ records, veil.silences record = true) :
    veil.Matches (left.log records) right where
  clock := isMatch.clock
  alike := isMatch.alike
  tasks := isMatch.tasks
  records := by
    unfold Timeline.log
    rw [List.filter_append, filter_silent silent, List.append_nil, isMatch.records]

theorem withStores (isMatch : veil.Matches left right) {ofLeft ofRight : CountStore}
    (alike : veil.alike left.clock ofLeft ofRight) :
    veil.Matches { left with store := ofLeft } { right with store := ofRight } :=
  ⟨isMatch.clock, alike, isMatch.tasks, isMatch.records⟩

theorem withTasks (isMatch : veil.Matches left right) {ofLeft ofRight : List Task}
    (tasks : ofRight = ofLeft.filter fun task => !veil.hides task) :
    veil.Matches { left with tasks := ofLeft } { right with tasks := ofRight } :=
  ⟨isMatch.clock, isMatch.alike, tasks, isMatch.records⟩

theorem advance (isMatch : veil.Matches left right) {clock : Nat} (later : left.clock ≤ clock) :
    veil.Matches { left with clock } { right with clock } :=
  ⟨rfl, veil.later isMatch.alike later, isMatch.tasks, isMatch.records⟩

theorem mem_left (isMatch : veil.Matches left right) {task : Task} (member : task ∈ right.tasks) :
    task ∈ left.tasks := by
  rw [isMatch.tasks] at member
  exact (List.mem_filter.mp member).1

theorem settled (isMatch : veil.Matches left right) (settled : left.Settled) : right.Settled where
  whole := isMatch.clock ▸ settled.whole
  awaits := by
    intro task member
    rw [isMatch.clock]
    exact settled.awaits task (isMatch.mem_left member)

/-! ### Tasks that run -/

theorem fire_hidden (isMatch : veil.Matches left right) {task : Task}
    (hidden : veil.hides task = true) : veil.Matches (left.fire task) right := by
  have appended : right.tasks =
      (left.tasks ++ [task.fired]).filter fun task => !veil.hides task := by
    rw [List.filter_append, isMatch.tasks]
    simp [veil.hides_fired, hidden]
  cases task with
  | sweeper name every due =>
      have swept := veil.sweep isMatch.alike name every due
      rw [if_pos hidden] at swept
      exact ((isMatch.withStores swept).withTasks appended).logLeft (silences_removed left)
  | delivery name event verdict =>
      cases verdict with
      | answered answer => exact isMatch.withTasks appended
      | pausing seconds deadline =>
          exact (isMatch.withTasks appended).logLeft
            (List.forall_mem_singleton.mpr (veil.silences_pause name event seconds deadline hidden))

theorem fire_shown (isMatch : veil.Matches left right) {task : Task}
    (shown : veil.hides task = false) : veil.Matches (left.fire task) (right.fire task) := by
  have appended : right.tasks ++ [task.fired] =
      (left.tasks ++ [task.fired]).filter fun task => !veil.hides task := by
    rw [List.filter_append, isMatch.tasks]
    simp [veil.hides_fired, shown]
  cases task with
  | sweeper name every due =>
      have swept := veil.sweep isMatch.alike name every due
      have sameInstant :
          right.store.removeStale left.clock = right.store.removeStale right.clock := by
        rw [isMatch.clock]
      rw [if_neg (by simp [shown]), sameInstant] at swept
      have silent := (filter_silent (veil.silences_removed right)).trans
        (filter_silent (veil.silences_removed left)).symm
      exact ((isMatch.withStores swept).withTasks appended).logs silent
  | delivery name event verdict =>
      cases verdict with
      | answered answer => exact isMatch.withTasks appended
      | pausing seconds deadline => exact (isMatch.withTasks appended).log _

theorem foldl_fire (isMatch : veil.Matches left right) (tasks : List Task) :
    veil.Matches (tasks.foldl Timeline.fire left)
      ((tasks.filter fun task => !veil.hides task).foldl Timeline.fire right) := by
  induction tasks generalizing left right with
  | nil => exact isMatch
  | cons task rest ih =>
      cases sight : veil.hides task with
      | true =>
          rw [List.filter_cons_of_neg (by simp [sight])]
          exact ih (isMatch.fire_hidden sight)
      | false =>
          rw [List.filter_cons_of_pos (by simp [sight])]
          exact ih (isMatch.fire_shown sight)

theorem runDue (isMatch : veil.Matches left right) : veil.Matches left.runDue right.runDue := by
  have due : right.tasks.filter (Task.isDue right.clock) =
      (left.tasks.filter (Task.isDue left.clock)).filter fun task => !veil.hides task := by
    rw [isMatch.tasks, isMatch.clock, filter_shown]
  have waiting : (right.tasks.filter fun task => !task.isDue right.clock) =
      (left.tasks.filter fun task => !task.isDue left.clock).filter
        fun task => !veil.hides task := by
    rw [isMatch.tasks, isMatch.clock, filter_shown]
  unfold Timeline.runDue
  rw [due]
  exact (isMatch.withTasks waiting).foldl_fire _

/-- The left timeline stops at every wake, and the right one may stop with it. -/
theorem advanceTo (isMatch : veil.Matches left right) (settled : left.Settled) (target : Nat) :
    veil.Matches (left.advanceTo target) (right.advanceTo target) := by
  fun_induction Timeline.advanceTo target left generalizing right with
  | case1 left none =>
      have asleep := Timeline.nextWake?_eq_none_iff.mp none
      rw [Timeline.advanceTo_of_wakes_ge right, isMatch.clock]
      · exact isMatch.advance (Nat.le_max_left _ _)
      · intro task member wake wakes
        rw [asleep task (isMatch.mem_left member)] at wakes
        cases wakes
  | case2 left wake next between ih =>
      obtain ⟨_, least⟩ := Timeline.nextWake?_eq_some_iff.mp next
      rw [Timeline.advanceTo_through (isMatch.clock ▸ between.1) between.2
        fun task member => least task (isMatch.mem_left member)]
      exact ih (isMatch.advance (Nat.le_of_lt between.1)).runDue
        (settled.onTime_nextWake next).runDue
  | case3 left wake next outside =>
      obtain ⟨⟨first, present, wakes⟩, least⟩ := Timeline.nextWake?_eq_some_iff.mp next
      have ahead := (settled.awaits first present).wake wake wakes
      rw [Timeline.advanceTo_of_wakes_ge right, isMatch.clock]
      · exact isMatch.advance (Nat.le_max_left _ _)
      · intro task member other otherWakes
        have later := least task (isMatch.mem_left member) other otherWakes
        omega

/-! ### Deliveries -/

theorem decide (isMatch : veil.Matches left right) (event : Event) :
    (left.decide event).1 = (right.decide event).1 ∧
      veil.Matches (left.decide event).2 (right.decide event).2 := by
  obtain ⟨verdict, records, alike⟩ := veil.toLikeness.handle isMatch.alike event
  have sameInstant : Delivery.handle left.clock event right.store =
      Delivery.handle right.clock event right.store := by rw [isMatch.clock]
  rw [sameInstant] at verdict records alike
  have same := congrArg (List.filter fun record => !veil.silences record) records
  exact ⟨verdict, (isMatch.withStores alike).logs same.symm⟩

theorem attend (isMatch : veil.Matches left right) (settled : left.Settled) (event : Event) :
    (left.attend event).1 = (right.attend event).1 ∧
      veil.Matches (left.attend event).2 (right.attend event).2 := by
  obtain ⟨verdict, decided⟩ := isMatch.decide event
  unfold Timeline.attend
  cases ofLeft : left.decide event with
  | mk leftVerdict leftDecided =>
      cases ofRight : right.decide event with
      | mk rightVerdict rightDecided =>
          rw [ofLeft, ofRight] at verdict decided
          obtain rfl : leftVerdict = rightVerdict := verdict
          cases leftVerdict with
          | answered answer => exact ⟨rfl, decided⟩
          | pausing seconds deadline =>
              have settledDecided := settled.decide event
              rw [ofLeft] at settledDecided
              exact ⟨rfl, (decided.advanceTo settledDecided _).log _⟩

theorem exchange (isMatch : veil.Matches left right) (settled : left.Settled)
    (request : Http.Request) :
    (left.exchange request).1 = (right.exchange request).1 ∧
      veil.Matches (left.exchange request).2 (right.exchange request).2 := by
  unfold Timeline.exchange
  split
  · exact ⟨rfl, isMatch.log _⟩
  · rename_i event records _
    obtain ⟨answer, attended⟩ := (isMatch.log records).attend (settled.log records) event
    simp only [← answer, true_and]
    exact attended.log _

theorem spawn (isMatch : veil.Matches left right) {name : String} (shows : veil.Shows name)
    (event : Event) : veil.Matches (left.spawn name event) (right.spawn name event) := by
  obtain ⟨verdict, decided⟩ := isMatch.decide event
  have renamed : (right.tasks.map fun task =>
      if task.isDelivery name then task.unnamed else task) =
      (left.tasks.map fun task => if task.isDelivery name then task.unnamed else task).filter
        fun task => !veil.hides task := by
    have unseen (task : Task) (bears : task.isDelivery name = true) :
        (!veil.hides task.unnamed) = !veil.hides task := by
      simp [shows.hides_eq_false bears]
    rw [isMatch.tasks, Task.filter_renamed unseen]
  have fresh : [Task.delivery (some name) event (right.decide event).1] =
      [Task.delivery (some name) event (left.decide event).1].filter
        fun task => !veil.hides task := by
    rw [← verdict]
    simp [(shows event (left.decide event).1).1]
  apply decided.withTasks
  rw [List.filter_append]
  exact congr (congrArg List.append renamed) fresh

theorem find?_isDelivery (isMatch : veil.Matches left right) {name : String}
    (shows : veil.Shows name) :
    right.tasks.find? (Task.isDelivery name) = left.tasks.find? (Task.isDelivery name) := by
  rw [isMatch.tasks, List.find?_filter]
  congr 1
  funext task
  cases bears : task.isDelivery name with
  | true => simp [(shows.hides_eq_false bears).1]
  | false => simp

theorem relieved (isMatch : veil.Matches left right) (name : String) :
    veil.Matches (left.relieved name) (right.relieved name) := by
  apply isMatch.withTasks
  rw [isMatch.tasks, filter_shown]

theorem join (isMatch : veil.Matches left right) (settled : left.Settled) {name : String}
    (shows : veil.Shows name) :
    (left.join name).1 = (right.join name).1 ∧
      veil.Matches (left.join name).2 (right.join name).2 := by
  have same := isMatch.find?_isDelivery shows
  rcases left.find?_isDelivery_cases name with found | ⟨event, verdict, found⟩
  · rw [Timeline.join_of_none found, Timeline.join_of_none (same.trans found)]
    exact ⟨rfl, isMatch⟩
  · cases verdict with
    | answered answer =>
        rw [Timeline.join_of_answered found, Timeline.join_of_answered (same.trans found)]
        exact ⟨rfl, isMatch.relieved name⟩
    | pausing seconds deadline =>
        rw [Timeline.join_of_pausing found, Timeline.join_of_pausing (same.trans found)]
        exact ⟨rfl, (isMatch.advanceTo settled _).runDue.relieved name⟩

/-! ### Steps -/

theorem perform (isMatch : veil.Matches left right) (settled : left.Settled)
    {step : ScenarioStep} (aside : step.sweeps = false)
    (shows : ∀ name, step.bearer? = some name → veil.Shows name) :
    (step ≠ .isEmpty → (left.perform step).1 = (right.perform step).1) ∧
      veil.Matches (left.perform step).2 (right.perform step).2 := by
  cases step with
  | removeStale | startSweeper name every | cancelSweeper name => cases aside
  | isEmpty => exact ⟨fun asked => absurd rfl asked, isMatch⟩
  | increase id =>
      have sameInstant :
          right.store.increase left.clock id = right.store.increase right.clock id := by
        rw [isMatch.clock]
      have counted := veil.increase isMatch.alike id
      rw [sameInstant] at counted
      refine ⟨fun _ => ?_, isMatch.withStores counted⟩
      simp only [Timeline.perform, isMatch.clock, Likeness.observed isMatch.alike id]
  | get id =>
      simp only [Timeline.perform, isMatch.clock, veil.count isMatch.alike id]
      exact ⟨fun _ => trivial, isMatch⟩
  | delete id => exact ⟨fun _ => rfl, isMatch.withStores (veil.delete isMatch.alike id)⟩
  | reset => exact ⟨fun _ => rfl, isMatch.withStores (veil.reset isMatch.alike)⟩
  | ttl =>
      simp only [Timeline.perform, veil.ttl isMatch.alike]
      exact ⟨fun _ => trivial, isMatch⟩
  | sleep period =>
      simp only [Timeline.perform, Timeline.sleep, isMatch.clock]
      exact ⟨fun _ => trivial, isMatch.advanceTo settled _⟩
  | handle event =>
      obtain ⟨answer, attended⟩ := isMatch.attend settled event
      exact ⟨fun _ => congrArg (StepResult.answer ∘ some) answer, attended⟩
  | spawn name event => exact ⟨fun _ => rfl, isMatch.spawn (shows name rfl) event⟩
  | poll name =>
      have found := isMatch.find?_isDelivery (shows name rfl)
      simp only [Timeline.perform, Timeline.isFinished?, found]
      exact ⟨fun _ => trivial, isMatch⟩
  | join name =>
      obtain ⟨answer, joined⟩ := isMatch.join settled (shows name rfl)
      exact ⟨fun _ => congrArg StepResult.answer answer, joined⟩
  | exchange request =>
      obtain ⟨response, exchanged⟩ := isMatch.exchange settled request
      exact ⟨fun _ => congrArg StepResult.response response, exchanged⟩

end Matches

end Veil

end ScriptedResponder
