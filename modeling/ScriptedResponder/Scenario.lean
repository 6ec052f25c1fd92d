import ScriptedResponder.Http.Service
import ScriptedResponder.Timeline

/-!
Scenarios: a list of steps taken one after the other on a fresh timeline. After each step whatever
is due runs, and then the step's result, the store's size, the clock and the new log records are
observed.
-/

set_option autoImplicit false

namespace ScriptedResponder

inductive ScenarioStep
  | increase (id : String)
  | get (id : String)
  | delete (id : String)
  | reset
  | removeStale
  | isEmpty
  | ttl
  | sleep (period : Nat)
  | startSweeper (name : String) (every : Nat)
  | cancelSweeper (name : String)
  | handle (event : Event)
  | spawn (name : String) (event : Event)
  | poll (name : String)
  | join (name : String)
  | exchange (request : Http.Request)
  deriving DecidableEq, Repr

inductive StepResult
  | nothing
  | number (value : Nat)
  | truth (value : Bool)
  | period (value : Nat)
  | stopped (wasRunning : Bool)
  | answer (answer : Option Answer)
  | finished (state : Option Bool)
  | response (response : Http.Response)
  deriving DecidableEq, Repr

/-- What is seen after a step; the records are those of this step alone. -/
structure Observation where
  result : StepResult
  size : Nat
  clock : Nat
  records : List LogRecord
  deriving DecidableEq, Repr

namespace Timeline

def exchange (request : Http.Request) (timeline : Timeline) : Http.Response × Timeline :=
  match Http.receive request with
  | (.answered response, records) => (response, timeline.log records)
  | (.accepted event, records) =>
      let (answer, attended) := (timeline.log records).attend event
      let (response, unsent) := Http.encodeAnswer answer
      (response, attended.log unsent)

def perform (timeline : Timeline) : ScenarioStep → StepResult × Timeline
  | .increase id =>
      (.number (timeline.store.observed timeline.clock id).count,
        { timeline with store := timeline.store.increase timeline.clock id })
  | .get id => (.number (timeline.store.get timeline.clock id), timeline)
  | .delete id => (.nothing, { timeline with store := timeline.store.delete id })
  | .reset => (.nothing, { timeline with store := timeline.store.reset })
  | .removeStale =>
      (.number (timeline.store.staleCount timeline.clock),
        { timeline with store := timeline.store.removeStale timeline.clock })
  | .isEmpty => (.truth timeline.store.isEmpty, timeline)
  | .ttl => (.period timeline.store.ttl, timeline)
  | .sleep period => (.nothing, timeline.sleep period)
  | .startSweeper name every => (.nothing, timeline.startSweeper name every)
  | .cancelSweeper name =>
      let (wasRunning, stopped) := timeline.cancelSweeper name
      (.stopped wasRunning, stopped)
  | .handle event =>
      let (answer, attended) := timeline.attend event
      (.answer (some answer), attended)
  | .spawn name event => (.nothing, timeline.spawn name event)
  | .poll name => (.finished (timeline.isFinished? name), timeline)
  | .join name =>
      let (answer, joined) := timeline.join name
      (.answer answer, joined)
  | .exchange request =>
      let (response, exchanged) := timeline.exchange request
      (.response response, exchanged)

def step (timeline : Timeline) (scenarioStep : ScenarioStep) : StepResult × Timeline :=
  let (result, performed) := timeline.perform scenarioStep
  (result, performed.runDue)

def observe (timeline : Timeline) : List ScenarioStep → List Observation
  | [] => []
  | scenarioStep :: rest =>
      let (result, after) := { timeline with records := [] }.step scenarioStep
      { result, size := after.store.size, clock := after.clock, records := after.records } ::
        observe after rest

end Timeline

def Scenario.run (ttl : Nat) (steps : List ScenarioStep) : List Observation :=
  (Timeline.start ttl).observe steps

end ScriptedResponder
