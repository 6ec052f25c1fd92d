import Mathlib.Data.List.Basic
import ScriptedResponder.Proofs.Delivery.Transcript
import ScriptedResponder.Proofs.Http.Admission
import ScriptedResponder.Proofs.Scenario.Overlap

/-!
The log of a whole scenario. Deliveries overlap, so what each of them has said is scattered over the
log; but every record of a delivery belongs to one of them, and each has said its own records in
their order.
-/

set_option autoImplicit false

namespace ScriptedResponder

/-- A list made up of others, each of which keeps its order in it. -/
inductive Interleaves {α : Type} : List (List α) → List α → Prop
  | nil : Interleaves [] []
  | fresh {lists : List (List α)} {whole : List α} (interleaves : Interleaves lists whole) :
      Interleaves (lists ++ [[]]) whole
  | write {before : List (List α)} {list : List α} {after : List (List α)} {whole : List α}
      (interleaves : Interleaves (before ++ list :: after) whole) (item : α) :
      Interleaves (before ++ (list ++ [item]) :: after) (whole ++ [item])

namespace Interleaves

variable {α : Type} {lists before after : List (List α)} {list whole : List α}

theorem perm (interleaves : Interleaves lists whole) : whole.Perm lists.flatten := by
  induction interleaves with
  | nil => exact .refl _
  | fresh _ ih => simpa using ih
  | @write before list after whole _ item ih =>
      have moved : (before.flatten ++ list ++ item :: after.flatten).Perm
          (item :: (before.flatten ++ list ++ after.flatten)) := List.perm_middle
      simp only [List.flatten_append, List.flatten_cons, List.append_assoc, List.cons_append,
        List.nil_append] at ih moved ⊢
      exact (List.perm_append_singleton item whole).trans ((ih.cons item).trans moved.symm)

theorem writes (interleaves : Interleaves (before ++ list :: after) whole) (items : List α) :
    Interleaves (before ++ (list ++ items) :: after) (whole ++ items) := by
  induction items generalizing list whole with
  | nil =>
      rw [List.append_nil, List.append_nil]
      exact interleaves
  | cons item rest ih =>
      have further := ih (interleaves.write item)
      rwa [List.append_assoc, List.append_assoc] at further

theorem add (interleaves : Interleaves lists whole) (items : List α) :
    Interleaves (lists ++ [items]) (whole ++ items) := interleaves.fresh.writes items

end Interleaves

/-! ### Pauses -/

structure Pause where
  event : Event
  seconds : Nat
  deadline : Nat
  deriving DecidableEq, Repr

def Call.pause? (call : Call) : Option Pause :=
  match call.decision.verdict with
  | .answered _ => none
  | .pausing seconds deadline => some { event := call.event, seconds, deadline }

def Task.pause? : Task → Option Pause
  | .delivery _ event (.pausing seconds deadline) => some { event, seconds, deadline }
  | .delivery _ _ (.answered _) => none
  | .sweeper _ _ _ => none

def Pause.record (pause : Pause) : LogRecord := Delivery.pauseRecord pause.event pause.seconds

theorem Task.pause?_unnamed (task : Task) : task.unnamed.pause? = task.pause? := by
  cases task with
  | sweeper label every due => rfl
  | delivery label event verdict => cases verdict <;> rfl

theorem Task.pause?_fired (task : Task) : task.fired.pause? = none := by
  cases task <;> rfl

theorem Call.told_eq_of_pause? {call : Call} {pause : Pause} (pauses : call.pause? = some pause) :
    call.told true = call.told false ++ [pause.record] ∧
      ∀ clock, call.isOver clock = decide (pause.deadline ≤ clock) := by
  unfold Call.pause? at pauses
  unfold Call.told Call.closing Call.isOver
  cases verdict : call.decision.verdict with
  | answered answer =>
      rw [verdict] at pauses
      cases pauses
  | pausing seconds deadline =>
      rw [verdict] at pauses
      obtain rfl := Option.some.inj pauses
      refine ⟨?_, fun _ => rfl⟩
      rw [if_pos rfl, if_neg Bool.false_ne_true, List.append_nil]
      rfl

theorem Call.told_eq_of_pause?_none {call : Call} (prompt : call.pause? = none) (ended : Bool) :
    call.told ended = call.told false ∧ ∀ clock, call.isOver clock = true := by
  unfold Call.pause? at prompt
  unfold Call.told Call.closing Call.isOver
  cases verdict : call.decision.verdict with
  | answered answer =>
      refine ⟨?_, fun _ => rfl⟩
      rw [ite_self, ite_self]
  | pausing seconds deadline =>
      rw [verdict] at prompt
      cases prompt

theorem Http.receive_aside (request : Http.Request) :
    ∀ record ∈ (Http.receive request).2, record.tellsDelivery = false := by
  unfold Http.receive
  split
  · exact fun _ => nofun
  · split
    · exact fun _ => nofun
    · split
      · exact fun _ => nofun
      · split <;> exact List.forall_mem_singleton.mpr rfl

theorem Http.encodeAnswer_aside (answer : Answer) :
    ∀ record ∈ (Http.encodeAnswer answer).2, record.tellsDelivery = false := by
  unfold Http.encodeAnswer
  split
  · exact fun _ => nofun
  · split
    · exact List.forall_mem_singleton.mpr rfl
    · exact fun _ => nofun

/-! ### What has been logged -/

abbrev Call.Entry := Call × Bool

/-- The pause whose end is still to be logged. -/
def Call.awaited (entry : Call.Entry) : Option Pause :=
  if entry.2 then none else entry.1.pause?

namespace Timeline

def call (timeline : Timeline) (event : Event) : Call :=
  { now := timeline.clock, event, store := timeline.store }

def made (timeline : Timeline) (step : ScenarioStep) : List Call :=
  step.delivered?.toList.map timeline.call

/-- The deliveries that the steps of a scenario make, directly, as tasks or by requests. -/
def calls (timeline : Timeline) : List ScenarioStep → List Call
  | [] => []
  | step :: rest => timeline.made step ++ (timeline.step step).2.calls rest

variable {timeline after : Timeline} {entries : List Call.Entry} {calls : List Call}
  {held : List Pause}

/-- The log is made up of what the deliveries have said; those that have not said all wait as tasks,
or are held by whoever makes them. -/
structure Logged (entries : List Call.Entry) (held : List Pause) (timeline : Timeline) : Prop where
  interleaves : Interleaves (entries.map fun entry => entry.1.told entry.2)
    (timeline.records.filter LogRecord.tellsDelivery)
  pending : (entries.filterMap Call.awaited).Perm (timeline.tasks.filterMap Task.pause? ++ held)
  ended : ∀ entry ∈ entries, entry.2 = true → entry.1.isOver timeline.clock = true

def Logs (calls : List Call) (held : List Pause) (timeline : Timeline) : Prop :=
  ∃ entries : List Call.Entry, entries.map Prod.fst = calls ∧ timeline.Logged entries held

/-- What neither adds to the log of deliveries nor brings or takes a pause makes no difference. -/
theorem Logged.follow (logged : timeline.Logged entries held) (later : timeline.clock ≤ after.clock)
    (tasks : (after.tasks.filterMap Task.pause?).Perm (timeline.tasks.filterMap Task.pause?))
    (records : after.records.filter LogRecord.tellsDelivery =
      timeline.records.filter LogRecord.tellsDelivery) : after.Logged entries held where
  interleaves := by
    rw [records]
    exact logged.interleaves
  pending := logged.pending.trans (tasks.symm.append_right held)
  ended := by
    intro entry member finished
    have ended := logged.ended entry member finished
    unfold Call.isOver at ended ⊢
    split at ended
    · rfl
    · exact decide_eq_true (Nat.le_trans (of_decide_eq_true ended) later)

theorem Owes.bears {owed : String → Option Answer} (owes : timeline.Owes owed) {name : String}
    {event : Event} {verdict : Verdict}
    (found : timeline.tasks.find? (Task.isDelivery name) =
      some (.delivery (some name) event verdict)) : timeline.Bears name event verdict := by
  refine ⟨verdict, ?_, fun _ _ => rfl⟩
  have few : (timeline.tasks.filter (Task.isDelivery name)).length ≤ 1 := by
    have same : (fun task => (Task.answerFor? name task).isSome) = Task.isDelivery name := by
      funext task
      cases task with
      | sweeper label every due => rfl
      | delivery label event verdict => by_cases bears : label = some name <;>
          simp [Task.answerFor?, Task.isDelivery, bears]
    have counted := congrArg List.length (owes name)
    rw [List.length_filterMap_eq_countP, same, List.countP_eq_length_filter] at counted
    rw [counted]
    cases owed name <;> simp
  rw [← List.head?_filter] at found
  cases bearers : timeline.tasks.filter (Task.isDelivery name) with
  | nil =>
      rw [bearers] at found
      cases found
  | cons first rest =>
      rw [bearers] at found few
      obtain rfl := Option.some.inj found
      have none : rest = [] := List.eq_nil_of_length_eq_zero (by simpa using few)
      rw [none]

theorem Settled.lt_deadline (settled : timeline.Settled) {task : Task} {pause : Pause}
    (member : task ∈ timeline.tasks) (pauses : task.pause? = some pause) :
    timeline.clock < pause.deadline := by
  cases task with
  | sweeper label every due => cases pauses
  | delivery label event verdict =>
      cases verdict with
      | answered answer => cases pauses
      | pausing seconds deadline =>
          obtain rfl := Option.some.inj pauses
          have ahead := (settled.awaits _ member).wake _ rfl
          have reached := Instant.ceiling_le_iff deadline settled.whole
          show timeline.clock < deadline
          omega

namespace Logs

theorem follow (logs : timeline.Logs calls held) (later : timeline.clock ≤ after.clock)
    (tasks : (after.tasks.filterMap Task.pause?).Perm (timeline.tasks.filterMap Task.pause?))
    (records : after.records.filter LogRecord.tellsDelivery =
      timeline.records.filter LogRecord.tellsDelivery) : after.Logs calls held := by
  obtain ⟨entries, same, logged⟩ := logs
  exact ⟨entries, same, logged.follow later tasks records⟩

theorem aside (logs : timeline.Logs calls held) {records : List LogRecord}
    (aside : ∀ record ∈ records, record.tellsDelivery = false) :
    (timeline.log records).Logs calls held := by
  refine logs.follow (Nat.le_refl _) (.refl _) ?_
  have none : records.filter LogRecord.tellsDelivery = [] :=
    List.filter_eq_nil_iff.mpr fun record member => by simp [aside record member]
  unfold log
  rw [List.filter_append, none, List.append_nil]

theorem settle {pause : Pause} (logs : timeline.Logs calls (pause :: held))
    (reached : pause.deadline ≤ timeline.clock) :
    (timeline.log [pause.record]).Logs calls held := by
  obtain ⟨entries, rfl, logged⟩ := logs
  have awaited : pause ∈ entries.filterMap Call.awaited :=
    logged.pending.symm.subset (List.mem_append_right _ List.mem_cons_self)
  obtain ⟨⟨call, ended⟩, member, awaits⟩ := List.mem_filterMap.mp awaited
  obtain ⟨before, after, rfl⟩ := List.append_of_mem member
  cases ended with
  | true => cases awaits
  | false =>
      obtain ⟨told, isOver⟩ := Call.told_eq_of_pause? awaits
      refine ⟨before ++ (call, true) :: after, by simp, ?_, ?_, ?_⟩
      · have written := logged.interleaves
        rw [List.map_append, List.map_cons] at written ⊢
        have appended : (timeline.log [pause.record]).records.filter LogRecord.tellsDelivery =
            timeline.records.filter LogRecord.tellsDelivery ++ [pause.record] :=
          List.filter_append _ _
        rw [appended, told]
        exact written.write pause.record
      · have pending := logged.pending
        rw [List.filterMap_append, List.filterMap_cons_some awaits] at pending
        rw [List.filterMap_append, List.filterMap_cons_none rfl]
        exact ((List.perm_middle.symm.trans pending).trans List.perm_middle).cons_inv
      · intro entry present finished
        rcases List.mem_append.mp present with earlier | later
        · exact logged.ended entry (List.mem_append_left _ earlier) finished
        · rcases List.mem_cons.mp later with rfl | later
          · rw [isOver]
            exact decide_eq_true reached
          · exact logged.ended entry
              (List.mem_append_right _ (List.mem_cons_of_mem _ later)) finished

theorem fire {task : Task} (logs : timeline.Logs calls (task.pause?.toList ++ held))
    (reached : ∀ pause, task.pause? = some pause → pause.deadline ≤ timeline.clock) :
    (timeline.fire task).Logs calls held := by
  have tasks : ((timeline.fire task).tasks.filterMap Task.pause?).Perm
      (timeline.tasks.filterMap Task.pause?) := by
    have line : (timeline.fire task).tasks = timeline.tasks ++ [task.fired] :=
      tasks_foldl_fire [task] timeline
    rw [line, List.filterMap_append, List.filterMap_cons_none task.pause?_fired]
    exact .of_eq (List.append_nil _)
  cases task with
  | sweeper label every due =>
      refine logs.follow (Nat.le_refl _) tasks ?_
      have silent : (if timeline.store.staleCount timeline.clock = 0 then []
          else [LogRecord.staleRemoved (timeline.store.staleCount timeline.clock)]).filter
            LogRecord.tellsDelivery = [] := by
        split <;> rfl
      refine (List.filter_append _ _).trans ?_
      rw [silent, List.append_nil]
  | delivery label event verdict =>
      cases verdict with
      | answered answer => exact logs.follow (Nat.le_refl _) tasks rfl
      | pausing seconds deadline =>
          have settled : (timeline.log [Delivery.pauseRecord event seconds]).Logs calls held :=
            logs.settle (reached _ rfl)
          exact settled.follow (Nat.le_refl _) tasks rfl

theorem foldl_fire {tasks : List Task}
    (logs : timeline.Logs calls (tasks.filterMap Task.pause? ++ held))
    (reached : ∀ task ∈ tasks, ∀ pause, task.pause? = some pause →
      pause.deadline ≤ timeline.clock) : (tasks.foldl Timeline.fire timeline).Logs calls held := by
  induction tasks generalizing timeline with
  | nil => exact logs
  | cons task rest ih =>
      have first : (timeline.fire task).Logs calls (rest.filterMap Task.pause? ++ held) := by
        apply fire _ (reached task List.mem_cons_self)
        rw [← List.append_assoc]
        have split : (task :: rest).filterMap Task.pause? =
            task.pause?.toList ++ rest.filterMap Task.pause? := by
          cases pauses : task.pause? with
          | none => exact List.filterMap_cons_none pauses
          | some pause => exact List.filterMap_cons_some pauses
        rw [← split]
        exact logs
      refine ih first fun other member pause pauses => ?_
      rw [clock_fire]
      exact reached other (List.mem_cons_of_mem task member) pause pauses

theorem runDue (logs : timeline.Logs calls held) : timeline.runDue.Logs calls held := by
  unfold Timeline.runDue
  apply foldl_fire
  · obtain ⟨entries, same, logged⟩ := logs
    refine ⟨entries, same, logged.interleaves, ?_, logged.ended⟩
    have split := (List.filter_append_perm (Task.isDue timeline.clock) timeline.tasks).filterMap
      Task.pause?
    rw [List.filterMap_append] at split
    have swapped := (List.perm_append_comm.trans split).symm.append_right held
    rw [List.append_assoc] at swapped
    exact logged.pending.trans swapped
  · intro task member pause pauses
    have due := (List.mem_filter.mp member).2
    cases task with
    | sweeper label every due => cases pauses
    | delivery label event verdict =>
        cases verdict with
        | answered answer => cases pauses
        | pausing seconds deadline =>
            obtain rfl := Option.some.inj pauses
            exact Nat.le_trans (Instant.le_ceiling deadline) (of_decide_eq_true due)

theorem advanceTo (logs : timeline.Logs calls held) (settled : timeline.Settled) {target : Nat}
    (whole : Period.millisecond ∣ target) : (timeline.advanceTo target).Logs calls held :=
  settled.advanceTo_induction target whole
    (fun _ _ _ logs later _ => logs.follow later (.refl _) rfl)
    (fun _ _ logs => logs.runDue) logs

/-! ### Deliveries -/

theorem decide (logs : timeline.Logs calls held) (event : Event) :
    (timeline.decide event).2.Logs (calls ++ [timeline.call event])
      ((timeline.call event).pause?.toList ++ held) := by
  obtain ⟨entries, rfl, logged⟩ := logs
  refine ⟨entries ++ [(timeline.call event, false)], by simp, ?_, ?_, ?_⟩
  · have own : (timeline.call event).decision.records.filter LogRecord.tellsDelivery =
        (timeline.call event).decision.records :=
      List.filter_eq_self.mpr Delivery.tellsDelivery_handle
    have said : (timeline.call event).told false = (timeline.call event).decision.records :=
      List.append_nil _
    have written : (timeline.decide event).2.records.filter LogRecord.tellsDelivery =
        timeline.records.filter LogRecord.tellsDelivery ++ (timeline.call event).told false := by
      rw [said, ← own]
      exact List.filter_append _ _
    rw [written, List.map_append]
    exact logged.interleaves.add ((timeline.call event).told false)
  · have awaits : [(timeline.call event, false)].filterMap Call.awaited =
        (timeline.call event).pause?.toList := by
      have own : Call.awaited (timeline.call event, false) = (timeline.call event).pause? := rfl
      cases pauses : (timeline.call event).pause? with
      | none => exact List.filterMap_cons_none (own.trans pauses)
      | some pause => exact List.filterMap_cons_some (own.trans pauses)
    have added := logged.pending.append_right (timeline.call event).pause?.toList
    rw [List.append_assoc] at added
    rw [List.filterMap_append, awaits]
    exact added.trans (List.perm_append_comm.append_left _)
  · intro entry member finished
    rcases List.mem_append.mp member with earlier | new
    · exact logged.ended entry earlier finished
    · obtain rfl := List.mem_singleton.mp new
      cases finished

theorem attend (logs : timeline.Logs calls held) (settled : timeline.Settled) (event : Event) :
    (timeline.attend event).2.Logs (calls ++ [timeline.call event]) held ∧
      (timeline.call event).isOver (timeline.attend event).2.clock = true := by
  have decided := logs.decide event
  have settledDecided := settled.decide event
  have same : (timeline.decide event).1 = (timeline.call event).decision.verdict := rfl
  unfold Timeline.attend
  split
  · rename_i answer after decision
    rw [decision] at decided same
    have prompt : (timeline.call event).pause? = none := by
      unfold Call.pause?
      rw [← same]
    rw [prompt] at decided
    exact ⟨decided, (Call.told_eq_of_pause?_none prompt true).2 _⟩
  · rename_i seconds deadline after decision
    rw [decision] at decided same settledDecided
    have pauses : (timeline.call event).pause? = some { event, seconds, deadline } := by
      unfold Call.pause?
      rw [← same]
      rfl
    rw [pauses] at decided
    have waited := decided.advanceTo settledDecided (Instant.whole_ceiling deadline)
    have reached : deadline ≤ (after.advanceTo (Instant.ceiling deadline)).clock := by
      rw [clock_advanceTo]
      exact Nat.le_trans (Instant.le_ceiling deadline) (Nat.le_max_right _ _)
    have ended : deadline ≤ ((after.advanceTo (Instant.ceiling deadline)).log
        [Delivery.pauseRecord event seconds]).clock := by
      rw [clock_log]
      exact reached
    refine ⟨waited.settle reached, ?_⟩
    rw [(Call.told_eq_of_pause? pauses).2]
    exact decide_eq_true ended

theorem employ {task : Task} (logs : timeline.Logs calls (task.pause?.toList ++ held)) :
    Logs calls held { timeline with tasks := timeline.tasks ++ [task] } := by
  obtain ⟨entries, same, logged⟩ := logs
  refine ⟨entries, same, logged.interleaves, ?_, logged.ended⟩
  have line : (timeline.tasks ++ [task]).filterMap Task.pause? =
      timeline.tasks.filterMap Task.pause? ++ task.pause?.toList := by
    rw [List.filterMap_append]
    cases pauses : task.pause? with
    | none => rw [List.filterMap_cons_none pauses]; rfl
    | some pause => rw [List.filterMap_cons_some pauses]; rfl
  rw [line, List.append_assoc]
  exact logged.pending

theorem pause?_filter {chosen : Task → Bool} {tasks : List Task}
    (quiet : ∀ task ∈ tasks, chosen task = false → task.pause? = none) :
    (tasks.filter chosen).filterMap Task.pause? = tasks.filterMap Task.pause? := by
  rw [List.filterMap_filter]
  refine List.filterMap_congr fun task member => ?_
  cases chose : chosen task with
  | true => simp
  | false => simp [quiet task member chose]

theorem pause?_renamed (chosen : Task → Bool) (tasks : List Task) :
    (tasks.map fun task => if chosen task then task.unnamed else task).filterMap Task.pause? =
      tasks.filterMap Task.pause? := by
  rw [List.filterMap_map]
  congr 1
  funext task
  cases chose : chosen task with
  | true => simp [chose, Task.pause?_unnamed]
  | false => simp [chose]

theorem spawn (logs : timeline.Logs calls held) (name : String) (event : Event) :
    (timeline.spawn name event).Logs (calls ++ [timeline.call event]) held := by
  have renamed : Logs calls held
      { timeline with
        tasks := timeline.tasks.map fun task =>
          if task.isDelivery name then task.unnamed else task } :=
    logs.follow (Nat.le_refl _) (.of_eq (pause?_renamed _ _)) rfl
  have decided := renamed.decide event
  have same : (timeline.call event).pause? =
      (Task.delivery (some name) event (timeline.call event).decision.verdict).pause? := by
    unfold Call.pause?
    cases (timeline.call event).decision.verdict <;> rfl
  have held : Logs (calls ++ [timeline.call event]) ((timeline.call event).pause?.toList ++ held)
      (Timeline.decide event { timeline with
        tasks := timeline.tasks.map fun task =>
          if task.isDelivery name then task.unnamed else task }).2 := decided
  rw [same] at held
  exact held.employ

theorem exchange (logs : timeline.Logs calls held) (settled : timeline.Settled)
    (request : Http.Request) :
    (timeline.exchange request).2.Logs (calls ++ timeline.made (.exchange request)) held ∧
      ∀ event, (Http.receive request).1 = .accepted event →
        (timeline.call event).isOver (timeline.exchange request).2.clock = true := by
  have turned := Http.receive_aside request
  unfold Timeline.exchange
  cases received : Http.receive request with
  | mk reception records =>
      rw [received] at turned
      have logged := logs.aside turned
      cases reception with
      | answered response =>
          have none : timeline.made (.exchange request) = [] := by
            simp [made, ScenarioStep.delivered?, received]
          rw [none, List.append_nil]
          exact ⟨logged, by simp⟩
      | accepted event =>
          have one : timeline.made (.exchange request) = [timeline.call event] := by
            simp [made, ScenarioStep.delivered?, received]
          obtain ⟨attended, ended⟩ := logged.attend (settled.log records) event
          rw [one]
          refine ⟨attended.aside (Http.encodeAnswer_aside _), fun other same => ?_⟩
          obtain rfl := Http.Reception.accepted.inj same
          have clock := clock_log (Http.encodeAnswer ((timeline.log records).attend event).1).2
            ((timeline.log records).attend event).2
          rw [← clock] at ended
          exact ended

/-! ### Joining -/

theorem relieved {name : String} {event : Event} {answer : Answer}
    (logs : timeline.Logs calls held)
    (alone : timeline.tasks.filter (Task.isDelivery name) =
      [.delivery (some name) event (.answered answer)]) :
    (timeline.relieved name).Logs calls held := by
  refine logs.follow (Nat.le_refl _) (.of_eq (pause?_filter ?_)) rfl
  intro task member bears
  have found : task ∈ timeline.tasks.filter (Task.isDelivery name) :=
    List.mem_filter.mpr ⟨member, by simpa using bears⟩
  rw [alone] at found
  obtain rfl := List.mem_singleton.mp found
  rfl

theorem join (logs : timeline.Logs calls held) (settled : timeline.Settled)
    {owed : String → Option Answer} (owes : timeline.Owes owed) (name : String) :
    (timeline.join name).2.Logs calls held := by
  rcases timeline.find?_isDelivery_cases name with found | ⟨event, verdict, found⟩
  · rw [join_of_none found]
    exact logs
  · have bears := owes.bears found
    cases verdict with
    | answered answer =>
        rw [join_of_answered found]
        exact logs.relieved (bears.filter_eq settled)
    | pausing seconds deadline =>
        rw [join_of_pausing found]
        have whole := Instant.whole_ceiling deadline
        have onTime := settled.advanceTo whole
        -- The wait is none of the steps that take the delivery.
        have waited := (bears.waits (settled.waits_advanceTo .reset whole) nofun).runDue onTime
        have reached : deadline ≤ (timeline.advanceTo (Instant.ceiling deadline)).runDue.clock := by
          rw [clock_runDue, clock_advanceTo]
          exact Nat.le_trans (Instant.le_ceiling deadline) (Nat.le_max_right _ _)
        have alone := waited.filter_eq onTime.runDue
        rw [Verdict.asOf, if_pos reached] at alone
        exact ((logs.advanceTo settled whole).runDue).relieved alone

/-! ### Scenarios -/

theorem quietly (before : Timeline) (logs : timeline.Logs calls held) {step : ScenarioStep}
    (quiet : step.delivered? = none) : timeline.Logs (calls ++ before.made step) held := by
  unfold made
  rw [quiet, Option.toList_none, List.map_nil, List.append_nil]
  exact logs

theorem perform (logs : timeline.Logs calls []) (settled : timeline.Settled)
    {owed : String → Option Answer} (owes : timeline.Owes owed) (step : ScenarioStep) :
    (timeline.perform step).2.Logs (calls ++ timeline.made step) [] := by
  cases step with
  | handle event => exact (logs.attend settled event).1
  | spawn name event => exact logs.spawn name event
  | exchange request => exact (logs.exchange settled request).1
  | sleep period =>
      exact (logs.advanceTo settled (Instant.whole_ceiling _)).quietly timeline rfl
  | join name => exact (logs.join settled owes name).quietly timeline rfl
  | startSweeper name every =>
      refine quietly timeline ?_ rfl
      refine logs.follow (Nat.le_refl _) (.of_eq ?_) rfl
      refine (List.filterMap_append ..).trans ?_
      rw [pause?_renamed]
      exact List.append_nil _
  | cancelSweeper name =>
      refine quietly timeline ?_ rfl
      simp only [Timeline.perform, Timeline.cancelSweeper]
      split
      · have stopped : Logs calls []
            { timeline with tasks := timeline.tasks.filter fun task => !task.isSweeper name } := by
          refine logs.follow (Nat.le_refl _) (.of_eq (pause?_filter ?_)) rfl
          intro task _ stops
          cases task with
          | sweeper label every due => rfl
          | delivery label event verdict => cases stops
        exact stopped.aside (List.forall_mem_singleton.mpr rfl)
      · exact logs
  | increase id | get id | delete id | reset | removeStale | isEmpty | ttl | poll name =>
      refine quietly timeline ?_ rfl
      exact logs.follow (Nat.le_refl _) (.refl _) rfl

theorem played {period : Nat} {account : Account} (logs : timeline.Logs calls [])
    (settled : timeline.Settled) (agrees : Agrees period timeline account)
    (steps : List ScenarioStep) :
    (timeline.played steps).Logs (calls ++ timeline.calls steps) [] := by
  induction steps generalizing timeline calls account with
  | nil =>
      have none : calls ++ timeline.calls [] = calls := List.append_nil calls
      rw [none]
      exact logs
  | cons step rest ih =>
      have stepped := (logs.perform settled agrees.owes step).runDue
      have further := ih stepped (settled.step step) (agrees.move (.take step))
      rw [List.append_assoc] at further
      exact further

/-- Once what is due has run, a delivery waits exactly if its pause is not over. -/
theorem settled (logs : timeline.Logs calls []) (settled : timeline.Settled) :
    Interleaves (calls.map (Call.records timeline.clock))
        (timeline.records.filter LogRecord.tellsDelivery) ∧
      calls.countP (fun call => !call.isOver timeline.clock) =
        timeline.tasks.countP fun task => task.pause?.isSome := by
  obtain ⟨entries, rfl, logged⟩ := logs
  have current : ∀ entry ∈ entries,
      entry.1.told entry.2 = entry.1.records timeline.clock ∧
        (Call.awaited entry).isSome = !entry.1.isOver timeline.clock := by
    rintro ⟨call, ended⟩ member
    cases ended with
    | true =>
        have isOver := logged.ended _ member rfl
        simp only [Call.records, Call.awaited, isOver] at isOver ⊢
        simp
    | false =>
        cases pauses : call.pause? with
        | none =>
            obtain ⟨told, isOver⟩ := Call.told_eq_of_pause?_none pauses true
            simp [Call.records, Call.awaited, isOver, told, pauses]
        | some pause =>
            have awaited : pause ∈ entries.filterMap Call.awaited :=
              List.mem_filterMap.mpr ⟨_, member, pauses⟩
            have waits := logged.pending.subset awaited
            rw [List.append_nil] at waits
            obtain ⟨task, present, same⟩ := List.mem_filterMap.mp waits
            have ahead := settled.lt_deadline present same
            have isOver := (Call.told_eq_of_pause? pauses).2 timeline.clock
            rw [decide_eq_false (Nat.not_le_of_lt ahead)] at isOver
            simp [Call.records, Call.awaited, isOver, pauses]
  constructor
  · have interleaves := logged.interleaves
    rw [List.map_congr_left fun entry member => (current entry member).1] at interleaves
    rw [List.map_map]
    exact interleaves
  · have pending := logged.pending.length_eq
    rw [List.append_nil, List.length_filterMap_eq_countP,
      List.length_filterMap_eq_countP] at pending
    rw [List.countP_map, ← pending]
    exact List.countP_congr fun entry member => by
      simp [(current entry member).2]

end Logs

theorem logs_start (ttl : Nat) : (start ttl).Logs [] [] :=
  ⟨[], rfl, .nil, .refl _, fun _ => nofun⟩

end Timeline

namespace Call

theorem countP_info (clock : Nat) (call : Call) :
    (call.records clock).countP (fun record => record.level = .info) =
      if call.isOver clock then 1 else 0 := by
  have truthful := call.truthful clock
  cases ended : call.isOver clock with
  | true =>
      obtain ⟨earlier, last, said, concludes⟩ := truthful.ended ended
      have none : earlier.countP (fun record => record.level = .info) = 0 :=
        List.countP_eq_zero.mpr fun record member => by simp [concludes.others record member]
      rw [said, List.countP_append, none, List.countP_singleton]
      simp [concludes.level]
  | false =>
      obtain ⟨said, _⟩ := truthful.waiting ended
      rw [said]
      unfold receptions
      split <;> rfl

theorem countP_info_flatten (clock : Nat) (calls : List Call) :
    (calls.map (records clock)).flatten.countP (fun record => record.level = .info) =
      calls.countP (isOver clock) := by
  induction calls with
  | nil => rfl
  | cons call rest ih =>
      rw [List.map_cons, List.flatten_cons, List.countP_append, ih, countP_info, List.countP_cons,
        Nat.add_comm]

end Call

namespace Timeline.Settled

variable {timeline : Timeline}

theorem spawned_call (settled : timeline.Settled) (event : Event) (name : String)
    (later : List ScenarioStep) (apart : ∀ step ∈ later, step.taker? ≠ some name) :
    let call := timeline.call event
    let reached := (timeline.step (.spawn name event)).2.played later
    (reached.step (.poll name)).1 = .finished (some (call.isOver reached.clock)) ∧
      (reached.step (.join name)).1 = .answer (some call.answer) := by
  intro call reached
  have settledReached : reached.Settled := (settled.step _).played later
  have isMatch := Veil.matches_relieved name reached
  have bears : reached.Bears name event call.decision.verdict :=
    (settled.bears_spawn name event).played (settled.step _) later apart
  unfold Call.isOver Call.answer
  cases verdict : call.decision.verdict with
  | answered answer =>
      rw [verdict] at bears
      exact ⟨congrArg StepResult.finished (bears.poll_of_answered settledReached),
        (bears.join_answered settledReached isMatch).1⟩
  | pausing seconds deadline =>
      rw [verdict] at bears
      exact ⟨congrArg StepResult.finished (bears.poll_of_pausing settledReached),
        (bears.join_pausing settledReached isMatch []).1⟩

end Timeline.Settled

/-- The log of every scenario is made up of what its deliveries have said. Each says what is true of
it; those that are over have said so once, and those that are not wait as tasks. Who makes a
delivery gets its answer when it is over. -/
theorem deliveries_logged (ttl : Nat) (steps : List ScenarioStep) :
    let timeline := (Timeline.start ttl).played steps
    let calls := (Timeline.start ttl).calls steps
    Interleaves (calls.map (Call.records timeline.clock))
      (timeline.records.filter LogRecord.tellsDelivery) ∧
    (∀ call ∈ calls, call.Truthful timeline.clock) ∧
    timeline.records.countP (fun record => record.level = .info && record.tellsDelivery) =
      calls.countP (Call.isOver timeline.clock) ∧
    calls.countP (fun call => !call.isOver timeline.clock) =
      timeline.tasks.countP (fun task => task.pause?.isSome) ∧
    (∀ event,
      let call := timeline.call event
      let handled := timeline.step (.handle event)
      (handled.1 = .answer (some call.answer) ∧ call.isOver handled.2.clock = true) ∧
      (∀ request, (Http.receive request).1 = .accepted event →
        let exchanged := timeline.step (.exchange request)
        exchanged.1 = .response (Http.encodeAnswer call.answer).1 ∧
          call.isOver exchanged.2.clock = true) ∧
      (∀ name later, (∀ step ∈ later, step.taker? ≠ some name) →
        let reached := (timeline.step (.spawn name event)).2.played later
        (reached.step (.poll name)).1 = .finished (some (call.isOver reached.clock)) ∧
          (reached.step (.join name)).1 = .answer (some call.answer))) := by
  intro timeline calls
  have settled : timeline.Settled := (Timeline.settled_start ttl).played steps
  have logs : timeline.Logs calls [] :=
    (Timeline.logs_start ttl).played (Timeline.settled_start ttl) (Agrees.start ttl) steps
  obtain ⟨interleaves, waiting⟩ := logs.settled settled
  refine ⟨interleaves, fun call _ => call.truthful _, ?_, waiting, ?_⟩
  · rw [← List.countP_filter, interleaves.perm.countP_eq, Call.countP_info_flatten]
  intro event call handled
  refine ⟨⟨?_, ?_⟩, ?_, settled.spawned_call event⟩
  · exact congrArg (StepResult.answer ∘ some) (timeline.attend_answer event)
  · have ended := (logs.attend settled event).2
    rw [← Timeline.clock_runDue] at ended
    exact ended
  · intro request accepted exchanged
    have received : Http.receive request = (.accepted event, (Http.receive request).2) := by
      rw [← accepted]
    have response := (timeline.exchange_accepted received).1
    have ended := (logs.exchange settled request).2 event accepted
    rw [← Timeline.clock_runDue] at ended
    exact ⟨congrArg StepResult.response response, ended⟩

theorem deliveries_logged_pause :
    let note : Event :=
      { id := "1", type := "note", source := "/", specVersion := "1.0",
        dataContentType := some "application/json",
        data := Bytes.ofText "[[\"\", \"delay-ack:3\"]]" }
    let timeline := (Timeline.start (Period.ofSeconds 10)).played [.spawn "first" note]
    let reached := timeline.played [.sleep (Period.ofSeconds 1)]
    timeline.records.countP (fun record => record.level = .info && record.tellsDelivery) = 0 ∧
      timeline.tasks.countP (fun task => task.pause?.isSome) = 1 ∧
      (reached.step (.join "first")).1 = .answer (some .ack) := by
  intro note timeline reached
  obtain ⟨_, _, ended, waiting, _⟩ := deliveries_logged (Period.ofSeconds 10) [.spawn "first" note]
  obtain ⟨_, _, _, _, made⟩ := deliveries_logged (Period.ofSeconds 10) []
  have joined := ((made note).2.2 "first" [.sleep (Period.ofSeconds 1)] (by decide)).2
  have answer : ((Timeline.start (Period.ofSeconds 10)).call note).answer = .ack := by
    decide +kernel
  refine ⟨ended.trans ?_, waiting.symm.trans ?_, joined.trans ?_⟩
  · decide +kernel
  · decide +kernel
  · exact congrArg (StepResult.answer ∘ some) answer

end ScriptedResponder
