import ScriptedResponder.Delivery

/-!
A responder on a clock that moves only when something waits. Sweepers and paused deliveries are
tasks; each wakes at a whole millisecond, and tasks that wake together run in the order in which
they began to wait. Whoever waits sees every earlier wake happen at its own time, and is itself the
first to go on at the instant it waited for.
-/

set_option autoImplicit false

namespace ScriptedResponder

/-- Something that runs beside the one who drives the clock. A task loses its name when another of
its kind takes it. -/
inductive Task
  | sweeper (name : Option String) (every : Nat) (due : Nat)
  | delivery (name : Option String) (event : Event) (verdict : Verdict)
  deriving DecidableEq, Repr

namespace Task

def wake? : Task → Option Nat
  | .sweeper _ _ due => some (Instant.ceiling due)
  | .delivery _ _ (.pausing _ deadline) => some (Instant.ceiling deadline)
  | .delivery _ _ (.answered _) => none

def isDue (now : Nat) (task : Task) : Bool :=
  match task.wake? with
  | none => false
  | some wake => wake ≤ now

def isSweeper (name : String) : Task → Bool
  | .sweeper other _ _ => other = some name
  | .delivery .. => false

def isDelivery (name : String) : Task → Bool
  | .sweeper .. => false
  | .delivery other _ _ => other = some name

def unnamed : Task → Task
  | .sweeper _ every due => .sweeper none every due
  | .delivery _ event verdict => .delivery none event verdict

end Task

structure Timeline where
  clock : Nat
  store : CountStore
  tasks : List Task
  records : List LogRecord
  deriving DecidableEq, Repr

namespace Timeline

def start (ttl : Nat) : Timeline :=
  { clock := 0, store := CountStore.ofTtl ttl, tasks := [], records := [] }

def log (records : List LogRecord) (timeline : Timeline) : Timeline :=
  { timeline with records := timeline.records ++ records }

/-! ### Tasks -/

def sweep (timeline : Timeline) : Timeline :=
  let removed := timeline.store.staleCount timeline.clock
  { timeline with
    store := timeline.store.removeStale timeline.clock
    records := timeline.records ++ if removed = 0 then [] else [.staleRemoved removed] }

def fire (timeline : Timeline) : Task → Timeline
  | .sweeper name every due =>
      let swept := timeline.sweep
      { swept with tasks := swept.tasks ++ [.sweeper name every (due + every)] }
  | .delivery name event (.pausing seconds _) =>
      { timeline with
        tasks := timeline.tasks ++ [.delivery name event (.answered .ack)]
        records := timeline.records ++ [Delivery.pauseRecord event seconds] }
  | .delivery name event (.answered answer) =>
      { timeline with tasks := timeline.tasks ++ [.delivery name event (.answered answer)] }

def runDue (timeline : Timeline) : Timeline :=
  (timeline.tasks.filter (Task.isDue timeline.clock)).foldl fire
    { timeline with tasks := timeline.tasks.filter fun task => !task.isDue timeline.clock }

def nextWake? (timeline : Timeline) : Option Nat :=
  (timeline.tasks.filterMap Task.wake?).min?

theorem clock_fire (timeline : Timeline) (task : Task) :
    (timeline.fire task).clock = timeline.clock := by
  cases task with
  | sweeper name every due => rfl
  | delivery name event verdict => cases verdict <;> rfl

theorem clock_foldl_fire (tasks : List Task) (timeline : Timeline) :
    (tasks.foldl fire timeline).clock = timeline.clock := by
  induction tasks generalizing timeline with
  | nil => rfl
  | cons task rest ih => rw [List.foldl_cons, ih, clock_fire]

theorem clock_runDue (timeline : Timeline) : timeline.runDue.clock = timeline.clock :=
  clock_foldl_fire _ _

/-- Move the clock to an instant. Tasks that wake before it run at their own time; those that wake
at it are left to run. -/
def advanceTo (target : Nat) (timeline : Timeline) : Timeline :=
  match timeline.nextWake? with
  | none => { timeline with clock := max timeline.clock target }
  | some wake =>
      if _between : timeline.clock < wake ∧ wake < target then
        advanceTo target { timeline with clock := wake }.runDue
      else { timeline with clock := max timeline.clock target }
  termination_by target - timeline.clock
  decreasing_by
    rw [clock_runDue]
    show target - wake < target - timeline.clock
    omega

/-! ### What the driver of the clock does -/

def sleep (period : Nat) (timeline : Timeline) : Timeline :=
  timeline.advanceTo (Instant.ceiling (Instant.deadline timeline.clock period))

def startSweeper (name : String) (every : Nat) (timeline : Timeline) : Timeline :=
  let every := max Period.shortestSweep (min every Period.longest)
  let others := timeline.tasks.map fun task =>
    if task.isSweeper name then task.unnamed else task
  { timeline with tasks := others ++ [.sweeper (some name) every (timeline.clock + every)] }

def cancelSweeper (name : String) (timeline : Timeline) : Bool × Timeline :=
  if timeline.tasks.any (Task.isSweeper name) then
    (true,
      { timeline with
        tasks := timeline.tasks.filter fun task => !task.isSweeper name
        records := timeline.records ++ [.sweepingEnded] })
  else (false, timeline)

def decide (event : Event) (timeline : Timeline) : Verdict × Timeline :=
  let decision := Delivery.handle timeline.clock event timeline.store
  (decision.verdict,
    { timeline with
      store := decision.store
      records := timeline.records ++ decision.records })

def attend (event : Event) (timeline : Timeline) : Answer × Timeline :=
  match timeline.decide event with
  | (.answered answer, decided) => (answer, decided)
  | (.pausing seconds deadline, decided) =>
      let waited := decided.advanceTo (Instant.ceiling deadline)
      (.ack, waited.log [Delivery.pauseRecord event seconds])

def spawn (name : String) (event : Event) (timeline : Timeline) : Timeline :=
  let others := timeline.tasks.map fun task =>
    if task.isDelivery name then task.unnamed else task
  let (verdict, decided) := { timeline with tasks := others }.decide event
  { decided with tasks := decided.tasks ++ [.delivery (some name) event verdict] }

def isFinished? (name : String) (timeline : Timeline) : Option Bool :=
  match timeline.tasks.find? (Task.isDelivery name) with
  | some (.delivery _ _ (.answered _)) => some true
  | some _ => some false
  | none => none

def join (name : String) (timeline : Timeline) : Option Answer × Timeline :=
  let taken (waited : Timeline) : Timeline :=
    { waited with tasks := waited.tasks.filter fun task => !task.isDelivery name }
  match timeline.tasks.find? (Task.isDelivery name) with
  | some (.delivery _ _ (.answered answer)) => (some answer, taken timeline)
  | some (.delivery _ _ (.pausing _ deadline)) =>
      (some .ack, taken (timeline.advanceTo (Instant.ceiling deadline)).runDue)
  | _ => (none, timeline)

end Timeline

end ScriptedResponder
