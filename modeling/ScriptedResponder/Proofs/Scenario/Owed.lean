import ScriptedResponder.Scenario
import ScriptedResponder.Proofs.Delivery.Verdict

/-!
What spawned deliveries owe. A delivery's answer is settled when it is spawned; afterwards its task
is moved about in the line, put to sleep and woken, but as long as nobody joins it or takes its name
there is one task of that name, with that answer. `Owes` states this for every name at once, and
each thing that a timeline does keeps it or changes it at one name.
-/

set_option autoImplicit false

namespace ScriptedResponder

namespace Task

/-- The answer that a delivery of this name has, or will have when its pause is over. -/
def answerFor? (name : String) : Task → Option Answer
  | .sweeper _ _ _ => none
  | .delivery other _ verdict => if other = some name then some verdict.answer else none

def fired : Task → Task
  | .sweeper name every due => .sweeper name every (due + every)
  | .delivery name event verdict => .delivery name event (.answered verdict.answer)

theorem answerFor?_fired (name : String) (task : Task) :
    task.fired.answerFor? name = task.answerFor? name := by
  cases task <;> rfl

theorem answerFor?_unnamed (name : String) (task : Task) : task.unnamed.answerFor? name = none := by
  cases task with
  | sweeper other every due => rfl
  | delivery other event verdict =>
      have different : ¬ (none : Option String) = some name := Option.some_ne_none name ∘ Eq.symm
      simp only [unnamed, answerFor?, if_neg different]

theorem answerFor?_sweeper {name other : String} {task : Task}
    (sweeper : task.isSweeper other = true) :
    task.answerFor? name = none := by
  cases task with
  | sweeper _ _ _ => rfl
  | delivery _ _ _ => cases sweeper

/-- Of the deliveries of one name nothing is left under it, and nothing else was under it. -/
theorem answerFor?_vacated (name bearer : String) (task : Task) :
    (if task.isDelivery name then none else task.answerFor? bearer) =
      if bearer = name then none else task.answerFor? bearer := by
  cases task with
  | sweeper _ _ _ => simp only [isDelivery, answerFor?, ite_self]; rfl
  | delivery other event verdict =>
      by_cases same : other = some name
      · subst same
        by_cases bearing : bearer = name
        · simp only [isDelivery, decide_true, if_true, if_pos bearing]
        · have different : ¬ some name = some bearer :=
            fun equal => bearing (Option.some.inj equal).symm
          simp only [isDelivery, answerFor?, if_neg different, ite_self]
      · simp only [isDelivery, decide_eq_true_eq, if_neg same]
        by_cases bearing : bearer = name
        · subst bearing
          simp only [answerFor?, if_neg same, ite_self]
        · rw [if_neg bearing]

theorem findSome?_answerFor? (name : String) (tasks : List Task) :
    tasks.findSome? (answerFor? name) = (tasks.find? (isDelivery name)).bind (answerFor? name) := by
  induction tasks with
  | nil => rfl
  | cons task rest ih =>
      cases task with
      | sweeper other every due => exact ih
      | delivery other event verdict =>
          by_cases same : other = some name
          · have bears : isDelivery name (.delivery other event verdict) = true :=
              decide_eq_true same
            rw [List.find?_cons_of_pos bears]
            simp only [List.findSome?_cons, Option.bind_some, answerFor?, if_pos same]
          · have passes : ¬ isDelivery name (.delivery other event verdict) = true :=
              fun bears => same (of_decide_eq_true bears)
            rw [List.find?_cons_of_neg passes, ← ih]
            simp only [List.findSome?_cons, answerFor?, if_neg same]

end Task

namespace Timeline

/-- Of every name there is one delivery with the answer owed, or none. -/
def Owes (timeline : Timeline) (owed : String → Option Answer) : Prop :=
  ∀ name, timeline.tasks.filterMap (Task.answerFor? name) = (owed name).toList

theorem tasks_foldl_fire (tasks : List Task) (timeline : Timeline) :
    (tasks.foldl fire timeline).tasks = timeline.tasks ++ tasks.map Task.fired := by
  induction tasks generalizing timeline with
  | nil => exact (List.append_nil _).symm
  | cons task rest ih =>
      have first : (timeline.fire task).tasks = timeline.tasks ++ [task.fired] := by
        cases task with
        | sweeper name every due => rfl
        | delivery name event verdict => cases verdict <;> rfl
      rw [List.foldl_cons, ih, first, List.map_cons, List.append_assoc, List.singleton_append]

namespace Owes

variable {timeline : Timeline} {owed : String → Option Answer}

theorem of_perm {tasks : List Task} (owes : timeline.Owes owed)
    (perm : ∀ name, (tasks.filterMap (Task.answerFor? name)).Perm
      (timeline.tasks.filterMap (Task.answerFor? name))) (name : String) :
    tasks.filterMap (Task.answerFor? name) = (owed name).toList := by
  have same := perm name
  rw [owes name] at same
  -- A list of at most one answer has no other order.
  cases answer : owed name with
  | none =>
      rw [answer] at same
      exact same.eq_nil
  | some settled =>
      rw [answer] at same
      exact same.eq_singleton

theorem runDue (owes : timeline.Owes owed) : timeline.runDue.Owes owed := by
  intro name
  have line : timeline.runDue.tasks =
      (timeline.tasks.filter fun task => !task.isDue timeline.clock) ++
        (timeline.tasks.filter (Task.isDue timeline.clock)).map Task.fired :=
    tasks_foldl_fire _ _
  rw [line]
  apply owes.of_perm
  intro name
  have settled : (Task.answerFor? name ∘ Task.fired) = Task.answerFor? name :=
    funext (Task.answerFor?_fired name)
  rw [List.filterMap_append, List.filterMap_map, settled, ← List.filterMap_append]
  have split := List.filter_append_perm (Task.isDue timeline.clock) timeline.tasks
  exact (List.perm_append_comm.trans split).filterMap _

theorem advanceTo (owes : timeline.Owes owed) (target : Nat) :
    (timeline.advanceTo target).Owes owed := by
  fun_induction Timeline.advanceTo target timeline with
  | case1 timeline _ => exact owes
  | case2 timeline wake _ _ ih =>
      have woken : { timeline with clock := wake }.Owes owed := owes
      exact ih woken.runDue
  | case3 timeline wake _ _ => exact owes

theorem log (owes : timeline.Owes owed) (records : List LogRecord) :
    (timeline.log records).Owes owed := owes

theorem attend (owes : timeline.Owes owed) (event : Event) :
    (timeline.attend event).2.Owes owed := by
  have decided : (timeline.decide event).2.Owes owed := owes
  unfold Timeline.attend
  split
  · rename_i answer after same
    rw [same] at decided
    exact decided
  · rename_i seconds deadline after same
    rw [same] at decided
    exact (decided.advanceTo _).log _

theorem exchange (owes : timeline.Owes owed) (request : Http.Request) :
    (timeline.exchange request).2.Owes owed := by
  unfold Timeline.exchange
  split
  · exact owes
  · rename_i event records _
    exact ((owes.log records).attend event).log _

theorem startSweeper (owes : timeline.Owes owed) (name : String) (every : Nat) :
    (timeline.startSweeper name every).Owes owed := by
  intro bearer
  have unmoved : (Task.answerFor? bearer ∘ fun task : Task =>
      if task.isSweeper name then task.unnamed else task) = Task.answerFor? bearer := by
    funext task
    by_cases sweeper : task.isSweeper name = true
    · simp only [Function.comp, if_pos sweeper, Task.answerFor?_unnamed,
        Task.answerFor?_sweeper sweeper]
    · simp only [Function.comp, if_neg sweeper]
  unfold Timeline.startSweeper
  rw [List.filterMap_append, List.filterMap_map, unmoved, owes bearer]
  exact List.append_nil _

theorem cancelSweeper (owes : timeline.Owes owed) (name : String) :
    (timeline.cancelSweeper name).2.Owes owed := by
  unfold Timeline.cancelSweeper
  split
  · intro bearer
    have unmoved : (fun task : Task =>
        if !task.isSweeper name then task.answerFor? bearer else none) =
        Task.answerFor? bearer := by
      funext task
      cases sweeper : task.isSweeper name with
      | true => exact (Task.answerFor?_sweeper sweeper).symm
      | false => rfl
    rw [List.filterMap_filter, unmoved, owes bearer]
  · exact owes

theorem vacated (owes : timeline.Owes owed) (name bearer : String) :
    timeline.tasks.filterMap (fun task =>
        if task.isDelivery name then none else task.answerFor? bearer) =
      (if bearer = name then none else owed bearer).toList := by
  have pointwise := funext (Task.answerFor?_vacated name bearer)
  rw [pointwise]
  by_cases same : bearer = name
  · simp only [if_pos same]
    exact List.filterMap_eq_nil_iff.mpr fun _ _ => rfl
  · simp only [if_neg same]
    exact owes bearer

theorem spawn (owes : timeline.Owes owed) (name : String) (event : Event) :
    (timeline.spawn name event).Owes fun bearer =>
      if bearer = name then
        some (Delivery.handle timeline.clock event timeline.store).verdict.answer
      else owed bearer := by
  intro bearer
  have line : (timeline.spawn name event).tasks =
      (timeline.tasks.map fun task => if task.isDelivery name then task.unnamed else task) ++
        [.delivery (some name) event
          (Delivery.handle timeline.clock event timeline.store).verdict] := rfl
  have renamed : (Task.answerFor? bearer ∘ fun task : Task =>
      if task.isDelivery name then task.unnamed else task) =
      fun task => if task.isDelivery name then none else task.answerFor? bearer := by
    funext task
    by_cases delivery : task.isDelivery name = true
    · simp only [Function.comp, if_pos delivery, Task.answerFor?_unnamed]
    · simp only [Function.comp, if_neg delivery]
  rw [line, List.filterMap_append, List.filterMap_map, renamed, owes.vacated]
  by_cases same : bearer = name
  · subst same
    have settled : Task.answerFor? bearer (.delivery (some bearer) event
        (Delivery.handle timeline.clock event timeline.store).verdict) =
        some (Delivery.handle timeline.clock event timeline.store).verdict.answer := if_pos rfl
    simp only [if_true, Option.toList_none, List.nil_append, List.filterMap_cons, settled,
      List.filterMap_nil, Option.toList_some]
  · have different : ¬ some name = some bearer := fun equal => same (Option.some.inj equal).symm
    simp only [if_neg same, Task.answerFor?, if_neg different, List.filterMap_cons_none,
      List.filterMap_nil, List.append_nil]

theorem join_answer (owes : timeline.Owes owed) (name : String) :
    (timeline.join name).1 = owed name := by
  have first : (timeline.tasks.filterMap (Task.answerFor? name)).head? = owed name := by
    rw [owes name]
    cases owed name <;> rfl
  rw [← first, List.head?_filterMap, Task.findSome?_answerFor?]
  unfold Timeline.join
  cases found : timeline.tasks.find? (Task.isDelivery name) with
  | none => rfl
  | some task =>
      have bears : task.isDelivery name = true := List.find?_some found
      cases task with
      | sweeper _ _ _ => cases bears
      | delivery other event verdict =>
          have same : other = some name := of_decide_eq_true bears
          cases verdict <;>
            simp only [Option.bind_some, Task.answerFor?, if_pos same, Verdict.answer]

theorem taken (owes : timeline.Owes owed) (name : String) :
    Owes { timeline with tasks := timeline.tasks.filter fun task => !task.isDelivery name }
      fun bearer => if bearer = name then none else owed bearer := by
  intro bearer
  have left : (fun task : Task => if !task.isDelivery name then task.answerFor? bearer else none) =
      fun task => if task.isDelivery name then none else task.answerFor? bearer := by
    funext task
    cases task.isDelivery name <;> rfl
  rw [List.filterMap_filter, left]
  exact owes.vacated name bearer

theorem join (owes : timeline.Owes owed) (name : String) :
    (timeline.join name).2.Owes fun bearer => if bearer = name then none else owed bearer := by
  have answered := owes.join_answer name
  unfold Timeline.join at answered ⊢
  cases found : timeline.tasks.find? (Task.isDelivery name) with
  | none =>
      simp only [found] at answered
      have unchanged : (fun bearer => if bearer = name then none else owed bearer) = owed := by
        funext bearer
        by_cases same : bearer = name
        · rw [if_pos same, same, answered]
        · rw [if_neg same]
      rw [unchanged]
      exact owes
  | some task =>
      have bears : task.isDelivery name = true := List.find?_some found
      cases task with
      | sweeper _ _ _ => cases bears
      | delivery other event verdict =>
          cases verdict with
          | answered answer => exact owes.taken name
          | pausing seconds deadline => exact (owes.advanceTo _).runDue.taken name

end Owes

end Timeline

end ScriptedResponder
