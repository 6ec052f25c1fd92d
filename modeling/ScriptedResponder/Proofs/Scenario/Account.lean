import ScriptedResponder.Proofs.Scenario.Elapse
import ScriptedResponder.Proofs.Scenario.Owed
import ScriptedResponder.Proofs.Store.Recency

/-!
The meaning of a whole run of the responder. An account of a run is kept from its history alone: the
journal of what has happened to ids, and the answers owed to spawned deliveries. No store, task or
wait is in it. `answers_eq_account` says that every delivery, whichever way it is made, is answered
as the account says.
-/

set_option autoImplicit false

namespace ScriptedResponder

/-! ### Answers from the journal -/

namespace Journal

def retries (period : Nat) (journal : Journal) (id : String) : Nat :=
  journal.chronicle.count period journal.clock id

def answer (period : Nat) (journal : Journal) (event : Event) : Answer :=
  match Instruction.ofBody event.data with
  | .error _ => .nack
  | .ok instructions =>
      Delivery.answerTo event (journal.retries period event.id : Nat) instructions

end Journal

/-- A store counts as the journal does, and its entries stand as the journal has them. -/
structure Tracks (period : Nat) (session : Session) (journal : Journal) : Prop where
  remembers : Remembers period session journal
  recent : Recent period session journal

namespace Tracks

variable {period : Nat} {session next : Session} {journal : Journal}

theorem opened (ttl clock : Nat) :
    Tracks (min ttl Period.longest) (.opened ttl clock) (.opened clock) where
  remembers := .opened ttl clock
  recent := .opened ttl clock

theorem after (tracks : Tracks period session journal) (calls : List StoreCall) :
    Tracks period (session.after calls) (journal.after calls) where
  remembers := tracks.remembers.after calls
  recent := tracks.recent.after calls

theorem elapses (tracks : Tracks period session journal) (elapses : session.Elapses next) :
    Tracks period next { journal with clock := next.clock } := by
  induction elapses with
  | refl =>
      have same : { journal with clock := session.clock } = journal := by
        rw [← tracks.remembers.clock]
      rw [same]
      exact tracks
  | advance wait _ ih => exact ih.after [.advance wait]
  | sweep _ ih => exact ih.after [.removeStale]

/-- A delivery finds the earlier observations of its chain: its own is taken off again, unless it
was forgotten at once. -/
theorem retries_eq (tracks : Tracks period session journal) (id : String) :
    session.retries id = journal.retries period id := by
  have counted : session.store.get session.clock id = journal.retries period id := by
    unfold Journal.retries
    rw [tracks.remembers.clock]
    exact tracks.remembers.count session.clock id (Nat.le_refl _)
  unfold Session.retries
  rw [CountStore.get_increase, if_pos rfl, tracks.remembers.ttl, counted]
  by_cases forgotten : session.clock + period ≤ session.clock
  · obtain rfl : period = 0 := by omega
    rw [if_pos forgotten, ← counted, tracks.recent.get_eq_zero id]
  · rw [if_neg forgotten, Nat.add_sub_cancel]

theorem answer_handle (tracks : Tracks period session journal) (event : Event) :
    (Delivery.handle session.clock event session.store).verdict.answer =
      journal.answer period event := by
  unfold Journal.answer
  cases read : Instruction.ofBody event.data with
  | error error =>
      rw [Delivery.handle_of_error read]
      rfl
  | ok instructions =>
      rw [Delivery.answer_handle read, ← tracks.retries_eq event.id]
      rfl

end Tracks

/-! ### Runs -/

/-- What may happen next: a step of a scenario, or a wait, which need not end at a whole
millisecond as those of scenarios do. -/
inductive Move
  | wait (period : Nat)
  | take (step : ScenarioStep)
  deriving DecidableEq, Repr

def Move.calls (retries : String → Nat) : Move → List StoreCall
  | .wait _ => []
  | .take step => step.calls retries

namespace Timeline

def move (timeline : Timeline) : Move → Timeline
  | .wait period => (timeline.advanceTo (timeline.clock + period)).runDue
  | .take step => (timeline.step step).2

def after (timeline : Timeline) (moves : List Move) : Timeline := moves.foldl move timeline

def history (timeline : Timeline) : List Move → List (Move × Nat)
  | [] => []
  | move :: rest => (move, (timeline.move move).clock) :: (timeline.move move).history rest

theorem elapses_move (timeline : Timeline) (move : Move) :
    (timeline.session.after (move.calls timeline.session.retries)).Elapses
      (timeline.move move).session := by
  cases move with
  | wait period => exact (elapses_advanceTo _ timeline).trans (elapses_runDue _)
  | take step => exact timeline.elapses_step step

theorem attend_answer (timeline : Timeline) (event : Event) :
    (timeline.attend event).1 =
      (Delivery.handle timeline.clock event timeline.store).verdict.answer := by
  have decided : (timeline.decide event).1 =
      (Delivery.handle timeline.clock event timeline.store).verdict := rfl
  rw [← decided]
  unfold attend
  split
  · rename_i answer after same
    rw [same]
    rfl
  · rename_i seconds deadline after same
    rw [same]
    rfl

end Timeline

/-! ### Accounts -/

structure Account where
  journal : Journal
  owed : String → Option Answer

namespace Account

def opened : Account := { journal := .opened 0, owed := fun _ => none }

def owedAfter (period : Nat) (account : Account) : ScenarioStep → String → Option Answer
  | .spawn name event => fun bearer =>
      if bearer = name then some (account.journal.answer period event) else account.owed bearer
  | .join name => fun bearer => if bearer = name then none else account.owed bearer
  | _ => account.owed

def note (period : Nat) (account : Account) (move : Move) (clock : Nat) : Account :=
  let calls := move.calls (account.journal.retries period)
  { journal := { account.journal.after calls with clock }
    owed :=
      match move with
      | .wait _ => account.owed
      | .take step => account.owedAfter period step }

def after (period : Nat) (account : Account) (history : List (Move × Nat)) : Account :=
  history.foldl (fun account entry => account.note period entry.1 entry.2) account

end Account

structure Agrees (period : Nat) (timeline : Timeline) (account : Account) : Prop where
  tracks : Tracks period timeline.session account.journal
  owes : timeline.Owes account.owed

namespace Agrees

variable {period : Nat} {timeline : Timeline} {account : Account}

theorem start (ttl : Nat) :
    Agrees (min ttl Period.longest) (Timeline.start ttl) Account.opened where
  tracks := .opened ttl 0
  owes _ := rfl

theorem owes_perform (agrees : Agrees period timeline account) (step : ScenarioStep) :
    (timeline.perform step).2.Owes (account.owedAfter period step) := by
  have owes := agrees.owes
  cases step with
  | sleep wait => exact owes.advanceTo _
  | startSweeper name every => exact owes.startSweeper name every
  | cancelSweeper name => exact owes.cancelSweeper name
  | handle event => exact owes.attend event
  | spawn name event =>
      have answered : (Delivery.handle timeline.clock event timeline.store).verdict.answer =
          account.journal.answer period event := agrees.tracks.answer_handle event
      have spawned := owes.spawn name event
      rw [answered] at spawned
      exact spawned
  | join name => exact owes.join name
  | exchange request => exact owes.exchange request
  | increase id | get id | delete id | reset | removeStale | isEmpty | ttl | poll name => exact owes

theorem move (agrees : Agrees period timeline account) (move : Move) :
    Agrees period (timeline.move move) (account.note period move (timeline.move move).clock) where
  tracks := by
    have counts : timeline.session.retries = account.journal.retries period :=
      funext agrees.tracks.retries_eq
    have elapses := timeline.elapses_move move
    rw [counts] at elapses
    exact (agrees.tracks.after _).elapses elapses
  owes := by
    cases move with
    | wait wait => exact (agrees.owes.advanceTo _).runDue
    | take step => exact (agrees.owes_perform step).runDue

theorem after (agrees : Agrees period timeline account) (moves : List Move) :
    Agrees period (timeline.after moves) (account.after period (timeline.history moves)) := by
  induction moves generalizing timeline account with
  | nil => exact agrees
  | cons first rest ih => exact ih (agrees.move first)

end Agrees

/-- However a delivery is made, its answer is the journal's: directly, as a task that is joined
later, or by a request. The number of retries in it is one less than the length of the longest chain
that the delivery ends. -/
theorem answers_eq_account (ttl : Nat) (moves : List Move) :
    let period := min ttl Period.longest
    let timeline := (Timeline.start ttl).after moves
    let account := Account.opened.after period ((Timeline.start ttl).history moves)
    let journal := account.journal
    journal.clock = timeline.clock ∧
    (∀ id, LongestChain period id (journal.write (.observed id)).chronicle
      (journal.retries period id + 1) journal.clock) ∧
    (∀ event, (Delivery.handle timeline.clock event timeline.store).verdict.answer =
      journal.answer period event) ∧
    (∀ event, (timeline.step (.handle event)).1 =
      .answer (some (journal.answer period event))) ∧
    (∀ name, (timeline.step (.join name)).1 = .answer (account.owed name)) ∧
    (∀ request, (timeline.step (.exchange request)).1 = .response
      (match (Http.receive request).1 with
        | .answered response => response
        | .accepted event => (Http.encodeAnswer (journal.answer period event)).1)) := by
  intro period timeline account journal
  have agrees : Agrees period timeline account := (Agrees.start ttl).after moves
  have answered (event : Event) :
      (Delivery.handle timeline.clock event timeline.store).verdict.answer =
        journal.answer period event :=
    agrees.tracks.answer_handle event
  refine ⟨agrees.tracks.remembers.clock, ?_, answered, ?_, ?_, ?_⟩
  · intro id
    exact Chronicle.longestChain_observed journal.clock journal.chronicle
  · intro event
    have attended := timeline.attend_answer event
    exact congrArg (StepResult.answer ∘ some) (attended.trans (answered event))
  · intro name
    exact congrArg StepResult.answer (agrees.owes.join_answer name)
  · intro request
    apply congrArg StepResult.response
    cases received : Http.receive request with
    | mk reception records =>
        cases reception with
        | answered response => rfl
        | accepted event =>
            have attended := (timeline.log records).attend_answer event
            exact congrArg (fun answer => (Http.encodeAnswer answer).1)
              (attended.trans (answered event))

end ScriptedResponder
