import Mathlib.Data.List.Forall2
import ScriptedResponder.Proofs.Scenario.Veil

/-!
Sweeping is never noticed. A store that has been swept lacks entries, but it counts as it would have
counted with them; so with sweepers behind a veil a scenario matches what is left of it when every
sweep, every start of a sweeper and every cancellation is taken out. `sweeping_unseen` says what the
two scenarios show: the same results at the same times, and the same log but for what sweepers say
of themselves. Only the number of entries tells, and it is never greater for the sweeping.
-/

set_option autoImplicit false

namespace ScriptedResponder

/-! ### Swept stores -/

/-- A store and what sweeps have left of it: entries are missing, but from now on no count
differs. -/
structure CountStore.Thinned (now : Nat) (thin full : CountStore) : Prop where
  ttl : thin.ttl = full.ttl
  entries : thin.entries.Sublist full.entries
  count : ∀ later id, now ≤ later → thin.get later id = full.get later id

namespace CountStore.Thinned

variable {now : Nat} {thin full : CountStore}

theorem refl (now : Nat) (store : CountStore) : store.Thinned now store :=
  ⟨rfl, List.Sublist.refl _, fun _ _ _ => rfl⟩

theorem increase (thinned : thin.Thinned now full) (id : String) :
    (thin.increase now id).Thinned now (full.increase now id) where
  ttl := thinned.ttl
  entries := by
    have same : thin.observed now id = full.observed now id := by
      simp only [observed, thinned.ttl, thinned.count now id (Nat.le_refl now)]
    unfold CountStore.increase
    rw [same]
    exact (thinned.entries.filter _).cons_cons _
  count := by
    intro later other since
    rw [get_increase, get_increase, thinned.ttl, thinned.count now id (Nat.le_refl now),
      thinned.count later other since]

theorem delete (thinned : thin.Thinned now full) (id : String) :
    (thin.delete id).Thinned now (full.delete id) where
  ttl := thinned.ttl
  entries := thinned.entries.filter _
  count := by
    intro later other since
    rw [get_delete, get_delete, thinned.count later other since]

theorem reset (thinned : thin.Thinned now full) : thin.reset.Thinned now full.reset :=
  ⟨thinned.ttl, List.Sublist.refl _, fun _ _ _ => rfl⟩

theorem removeStale (thinned : thin.Thinned now full) :
    (thin.removeStale now).Thinned now full where
  ttl := thinned.ttl
  entries := by
    obtain ⟨removed, split, _⟩ := thin.exists_entries_eq_removeStale_append now
    have kept := List.sublist_append_left (thin.removeStale now).entries removed
    rw [← split] at kept
    exact kept.trans thinned.entries
  count := fun later id since =>
    (get_removeStale id thin since).trans (thinned.count later id since)

theorem size_le (thinned : thin.Thinned now full) : thin.size ≤ full.size :=
  thinned.entries.length_le

end CountStore.Thinned

def Likeness.thinning : Likeness where
  alike := CountStore.Thinned
  ttl := CountStore.Thinned.ttl
  count := fun thinned id => thinned.count _ id (Nat.le_refl _)
  later := fun thinned since =>
    ⟨thinned.ttl, thinned.entries, fun later id after =>
      thinned.count later id (Nat.le_trans since after)⟩
  increase := CountStore.Thinned.increase
  delete := CountStore.Thinned.delete
  reset := CountStore.Thinned.reset

/-! ### Sweepers behind a veil -/

def Task.sweeps : Task → Bool
  | .sweeper _ _ _ => true
  | .delivery _ _ _ => false

def LogRecord.tellsSweeping : LogRecord → Bool
  | .staleRemoved _ | .sweepingEnded => true
  | .undecodable .. | .received .. | .conditionFailed .. | .actionFailed .. | .countsDiscarded .. |
    .executed .. | .nothingApplied .. | .invalidEvent .. | .receivedOverHttp .. |
    .replyNotEncodable .. => false

def Veil.sweeping : Veil where
  toLikeness := .thinning
  hides := Task.sweeps
  silences := LogRecord.tellsSweeping
  hides_fired := by
    intro task
    cases task <;> rfl
  silences_sweep := fun _ => rfl
  silences_pause := fun _ _ _ _ => nofun
  sweep := fun thinned _ _ _ => thinned.removeStale

namespace Timeline

open Veil (sweeping)

variable {left right : Timeline}

theorem shows_sweeping (name : String) : sweeping.Shows name := fun _ _ => ⟨rfl, rfl⟩

theorem filter_renamed (name : String) (tasks : List Task) :
    (tasks.map fun task => if task.isSweeper name then task.unnamed else task).filter
        (fun task => !task.sweeps) = tasks.filter fun task => !task.sweeps := by
  have same (task : Task) : (!task.unnamed.sweeps) = !task.sweeps := by
    cases task <;> rfl
  rw [Task.filter_renamed fun task _ => same task]
  apply Task.map_renamed
  intro task member
  have kept := (List.mem_filter.mp member).2
  cases task with
  | sweeper other every due => cases kept
  | delivery other event verdict => rfl

theorem filter_cancelled (name : String) (tasks : List Task) :
    (tasks.filter fun task => !task.isSweeper name).filter (fun task => !task.sweeps) =
      tasks.filter fun task => !task.sweeps := by
  rw [List.filter_filter]
  apply List.filter_congr
  intro task _
  cases task <;> simp [Task.sweeps, Task.isSweeper]

/-- Of a step that sweeps only the left timeline knows. -/
theorem matches_performLeft (isMatch : sweeping.Matches left right) {step : ScenarioStep}
    (sweeps : step.sweeps = true) : sweeping.Matches (left.perform step).2 right := by
  cases step with
  | removeStale => exact isMatch.withStores isMatch.alike.removeStale
  | startSweeper name every =>
      have tasks : right.tasks = (left.startSweeper name every).tasks.filter
          fun task => !sweeping.hides task := by
        rw [isMatch.tasks]
        unfold startSweeper
        rw [List.filter_append]
        exact ((List.append_nil _).trans (filter_renamed name left.tasks)).symm
      exact isMatch.withTasks tasks
  | cancelSweeper name =>
      simp only [perform, cancelSweeper]
      split
      · have tasks : right.tasks = (left.tasks.filter fun task => !task.isSweeper name).filter
            fun task => !sweeping.hides task :=
          isMatch.tasks.trans (filter_cancelled name left.tasks).symm
        exact (isMatch.withTasks tasks).logLeft (List.forall_mem_singleton.mpr rfl)
      · exact isMatch
  | increase _ | get _ | delete _ | reset | isEmpty | ttl | sleep _ | handle _ | spawn _ _ | poll _
    | join _ | exchange _ => cases sweeps

theorem matches_stepLeft (isMatch : sweeping.Matches left right) (settled : left.Settled)
    {step : ScenarioStep} (sweeps : step.sweeps = true) :
    sweeping.Matches (left.step step).2 right := by
  have performed := (matches_performLeft isMatch sweeps).runDue
  rw [(isMatch.settled settled).runDue_eq] at performed
  exact performed

theorem matches_step (isMatch : sweeping.Matches left right) (settled : left.Settled)
    {step : ScenarioStep} (aside : step.sweeps = false) :
    (step ≠ .isEmpty → (left.step step).1 = (right.step step).1) ∧
      sweeping.Matches (left.step step).2 (right.step step).2 := by
  obtain ⟨result, performed⟩ := isMatch.perform settled aside fun name _ => shows_sweeping name
  exact ⟨result, performed.runDue⟩

def cleared (timeline : Timeline) : Timeline := { timeline with records := [] }

theorem observe_cons (timeline : Timeline) (step : ScenarioStep) (rest : List ScenarioStep) :
    let stepped := timeline.cleared.step step
    timeline.observe (step :: rest) =
      { result := stepped.1
        size := stepped.2.store.size
        clock := stepped.2.clock
        records := stepped.2.records } :: stepped.2.observe rest := rfl

theorem observe_cleared (timeline : Timeline) (steps : List ScenarioStep) :
    timeline.cleared.observe steps = timeline.observe steps := by
  cases steps <;> rfl

theorem matches_cleared (isMatch : sweeping.Matches left right) :
    sweeping.Matches left.cleared right.cleared :=
  ⟨isMatch.clock, isMatch.alike, isMatch.tasks, rfl⟩

end Timeline

/-! ### Whole scenarios -/

/-- An observation with sweeping, beside the one without it of the same step. -/
structure Observation.Unswept (step : ScenarioStep) (swept unswept : Observation) : Prop where
  result : step ≠ .isEmpty → swept.result = unswept.result
  clock : swept.clock = unswept.clock
  size : swept.size ≤ unswept.size
  records : swept.records.filter (fun record => !record.tellsSweeping) =
    unswept.records.filter fun record => !record.tellsSweeping

namespace Scenario

def withoutSweeping (steps : List ScenarioStep) : List ScenarioStep :=
  steps.filter fun step => !step.sweeps

def told (observations : List Observation) : List LogRecord :=
  (observations.flatMap Observation.records).filter fun record => !record.tellsSweeping

def lastSize (before : Nat) (observations : List Observation) : Nat :=
  observations.foldl (fun _ observation => observation.size) before

def asides (steps : List ScenarioStep) (observations : List Observation) :
    List (ScenarioStep × Observation) :=
  (steps.zip observations).filter fun seen => !seen.1.sweeps

open Timeline

variable {left right : Timeline}

theorem told_cons (observation : Observation) (rest : List Observation) :
    told (observation :: rest) =
      observation.records.filter (fun record => !record.tellsSweeping) ++ told rest := by
  unfold told
  rw [List.flatMap_cons, List.filter_append]

theorem observe_unswept (isMatch : Veil.sweeping.Matches left right) (settled : left.Settled)
    (steps : List ScenarioStep) :
    List.Forall₂ (fun seen unswept => Observation.Unswept seen.1 seen.2 unswept)
        (asides steps (left.observe steps)) (right.observe (withoutSweeping steps)) ∧
      told (left.observe steps) = told (right.observe (withoutSweeping steps)) ∧
      lastSize left.store.size (left.observe steps) ≤
        lastSize right.store.size (right.observe (withoutSweeping steps)) := by
  induction steps generalizing left right with
  | nil => exact ⟨.nil, rfl, isMatch.alike.size_le⟩
  | cons step rest ih =>
      have cleared := matches_cleared isMatch
      have settledCleared : left.cleared.Settled := ⟨settled.whole, settled.awaits⟩
      rw [observe_cons]
      cases sweeps : step.sweeps with
      | true =>
          -- The right timeline does not take this step, and only its log is cleared.
          have stepped := matches_stepLeft cleared settledCleared sweeps
          obtain ⟨same, log, size⟩ := ih stepped (settledCleared.step step)
          have kept : withoutSweeping (step :: rest) = withoutSweeping rest :=
            List.filter_cons_of_neg (by simp [sweeps])
          have unseen (ofStep : Observation) (ofRest : List Observation) :
              asides (step :: rest) (ofStep :: ofRest) = asides rest ofRest :=
            List.filter_cons_of_neg (by simp [sweeps])
          have silent : (left.cleared.step step).2.records.filter
              (fun record => !record.tellsSweeping) = [] := stepped.records.symm
          rw [observe_cleared] at same log size
          rw [kept, unseen, told_cons, silent]
          exact ⟨same, log, size⟩
      | false =>
          obtain ⟨result, stepped⟩ := matches_step cleared settledCleared sweeps
          obtain ⟨same, log, size⟩ := ih stepped (settledCleared.step step)
          have kept : withoutSweeping (step :: rest) = step :: withoutSweeping rest :=
            List.filter_cons_of_pos (by simp [sweeps])
          rw [kept, observe_cons, told_cons, told_cons, log]
          refine ⟨?_, congrArg (· ++ _) stepped.records.symm, size⟩
          have seen (ofStep : Observation) (ofRest : List Observation) :
              asides (step :: rest) (ofStep :: ofRest) = (step, ofStep) :: asides rest ofRest :=
            List.filter_cons_of_pos (by simp [sweeps])
          rw [seen]
          exact .cons ⟨result, stepped.clock.symm, stepped.alike.size_le, stepped.records.symm⟩ same

/-- A scenario shows the same with and without its sweeping: every other step has the same result at
the same time, all logs but the sweepers' own are the same, and after every step there are at most
as many entries. -/
theorem sweeping_unseen (ttl : Nat) (steps : List ScenarioStep) :
    let swept := run ttl steps
    let unswept := run ttl (withoutSweeping steps)
    List.Forall₂ (fun seen unswept => Observation.Unswept seen.1 seen.2 unswept)
        (asides steps swept) unswept ∧
      told swept = told unswept ∧
      ∀ count, lastSize 0 (run ttl (steps.take count)) ≤
        lastSize 0 (run ttl (withoutSweeping (steps.take count))) := by
  intro swept unswept
  have isMatch : Veil.sweeping.Matches (start ttl) (start ttl) :=
    ⟨rfl, CountStore.Thinned.refl _ _, rfl, rfl⟩
  have observed (steps : List ScenarioStep) := observe_unswept isMatch (settled_start ttl) steps
  exact ⟨(observed steps).1, (observed steps).2.1, fun count => (observed (steps.take count)).2.2⟩

end Scenario

end ScriptedResponder
