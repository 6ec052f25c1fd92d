import Mathlib.Data.List.Basic
import ScriptedResponder.Proofs.Delivery.Calls

/-!
Deliveries that contend for one store. Each takes its steps in turn with the others, in any order,
and the clock may advance between turns; a step makes at most one call, so turns are what the lock of
the store lets through. A condition is judged on the count that is there at its own turn. Two
conditions of one delivery may therefore be judged on two counts, and a list of which every count
satisfies one may be passed over; as long as no other delivery counts the id or resets the store
between the readings, there is one count for the whole list.
-/

set_option autoImplicit false

namespace ScriptedResponder

/-! ### Turns -/

structure Contention where
  clock : Nat
  store : CountStore
  deliveries : List (Event × Stage)
  deriving DecidableEq, Repr

inductive Turn
  | wait (period : Nat)
  | take (number : Nat)
  deriving DecidableEq, Repr

namespace Contention

def gathered (session : Session) (events : List Event) : Contention :=
  { clock := session.clock
    store := session.store
    deliveries := events.map fun event => (event, .received) }

def session (contention : Contention) : Session :=
  { clock := contention.clock, store := contention.store }

/-- Let some time pass, or one delivery take its next step. -/
def turn (contention : Contention) : Turn → Contention
  | .wait period => { contention with clock := contention.clock + period }
  | .take number =>
      match contention.deliveries[number]? with
      | none => contention
      | some (event, stage) =>
          let progress := Delivery.step contention.clock event contention.store stage
          { contention with
            store := progress.store
            deliveries := contention.deliveries.set number (event, progress.stage) }

def after (contention : Contention) (turns : List Turn) : Contention := turns.foldl turn contention

def found (number : Nat) (contention : Contention) : List Turn → List Session
  | [] => []
  | turn :: rest =>
      (if turn = .take number then [contention.session] else []) ++
        (contention.turn turn).found number rest

def rivalCall? (number : Nat) (contention : Contention) : Turn → Option StoreCall
  | .wait _ => none
  | .take other =>
      if other = number then none
      else (contention.deliveries[other]?).bind fun delivery =>
        Delivery.call? delivery.1 delivery.2

def isJudging (number : Nat) (contention : Contention) : Bool :=
  match contention.deliveries[number]? with
  | some (_, .judging _) => true
  | _ => false

/-- The calls that the others make while a delivery judges its conditions. -/
def rivalCalls (number : Nat) (contention : Contention) : List Turn → List StoreCall
  | [] => []
  | turn :: rest =>
      (if contention.isJudging number then (contention.rivalCall? number turn).toList else []) ++
        (contention.turn turn).rivalCalls number rest

end Contention

theorem CountStore.get_between {store : CountStore} {id : String} {first now last : Nat}
    (since : first ≤ now) (before : now ≤ last) (same : store.get last id = store.get first id) :
    store.get now id = store.get first id := by
  unfold get at same ⊢
  cases found : store.find? id with
  | none => rfl
  | some entry =>
      simp only [found, CountEntry.isExpired, decide_eq_true_eq] at same ⊢
      by_cases expiredFirst : entry.expiresAt ≤ first
      · rw [if_pos expiredFirst, if_pos (Nat.le_trans expiredFirst since)]
      · by_cases expired : entry.expiresAt ≤ now
        · rw [if_pos (Nat.le_trans expired before)] at same
          rw [if_pos expired]
          exact same
        · rw [if_neg expired, if_neg expiredFirst]

namespace Delivery

def reading (event : Event) (session : Session) : Nat :=
  retries session.clock event session.store

def stageAfter (event : Event) (stage : Stage) (sessions : List Session) : Stage :=
  sessions.foldl (fun stage session => (step session.clock event session.store stage).stage) stage

/-- The answer if each condition is judged on a reading of its own; none if they are too few. -/
def answerAlong (event : Event) : List Instruction → List Nat → Option Answer
  | [], _ => some .ack
  | _ :: _, [] => none
  | instruction :: remaining, reading :: readings =>
      if instruction.decides reading then some (instruction.answer event)
      else answerAlong event remaining readings

variable {event : Event}

/-! ### Steps of one delivery -/

theorem stageAfter_decided (verdict : Verdict) (sessions : List Session) :
    stageAfter event (.decided verdict) sessions = .decided verdict := by
  induction sessions with
  | nil => rfl
  | cons session rest ih => exact ih

theorem stageAfter_enough (event : Event) (sessions : List Session) (stage : Stage)
    (enough : stepsLeft event stage ≤ sessions.length) :
    ∃ verdict, stageAfter event stage sessions = .decided verdict := by
  induction sessions generalizing stage with
  | nil =>
      cases stage with
      | decided verdict => exact ⟨verdict, rfl⟩
      | received =>
          simp only [stepsLeft, List.length_nil] at enough
          split at enough <;> omega
      | judging remaining | deciding instruction =>
          simp only [stepsLeft, List.length_nil] at enough
          omega
  | cons session rest ih =>
      cases undecided : stage.verdict? with
      | none =>
          have fewer := stepsLeft_step_lt session.clock event session.store stage undecided
          rw [List.length_cons] at enough
          exact ih (step session.clock event session.store stage).stage (by omega)
      | some verdict =>
          cases stage with
          | decided own => exact ⟨own, stageAfter_decided own _⟩
          | received | judging remaining | deciding instruction => cases undecided

theorem exists_verdict_deciding (event : Event) (session : Session) {instruction : Instruction}
    {condition : Condition}
    (judged : Condition.ofText instruction.condition = .ok condition) :
    ∃ verdict,
      (step session.clock event session.store (.deciding instruction)).stage = .decided verdict ∧
        verdict.answer = instruction.answer event := by
  cases understood : Action.ofText instruction.action with
  | error error =>
      refine ⟨.answered .nack, ?_, ?_⟩
      · simp only [step, understood, refusedBy]
      · simp only [Verdict.answer, Instruction.answer, Instruction.executed?, judged, understood]
  | ok action =>
      obtain ⟨verdict, decided⟩ :=
        execute_decided session.clock event instruction session.store action
      have answered := (decideFrom_execute session.clock event session.store [] instruction
        action).1
      rw [decided, decideFrom_decided] at answered
      refine ⟨verdict, ?_, ?_⟩
      · simp only [step, understood, decided]
      · simp only [Instruction.answer, Instruction.executed?, judged, understood]
        exact answered

theorem store_judging (now : Nat) (store : CountStore) (instructions : List Instruction) :
    (step now event store (.judging instructions)).store = store := by
  cases instructions with
  | nil => rfl
  | cons instruction remaining =>
      cases judged : Condition.ofText instruction.condition <;> simp only [step, judged]

theorem step_judging (event : Event) (session : Session) (instruction : Instruction)
    (remaining : List Instruction) :
    let stage := (step session.clock event session.store
      (.judging (instruction :: remaining))).stage
    if instruction.decides (reading event session) then
      (stage = .decided (.answered .nack) ∧ instruction.answer event = .nack) ∨
        (stage = .deciding instruction ∧
          ∃ condition, Condition.ofText instruction.condition = .ok condition)
    else stage = .judging remaining := by
  intro stage
  cases judged : Condition.ofText instruction.condition with
  | error error =>
      have decides : instruction.decides (reading event session) = true := by
        simp only [Instruction.decides, judged]
      have reached : stage = .decided (.answered .nack) := by simp only [stage, step, judged]
      have answered : instruction.answer event = .nack := by
        simp only [Instruction.answer, Instruction.executed?, judged]
      rw [if_pos decides]
      exact .inl ⟨reached, answered⟩
  | ok condition =>
      have same : instruction.decides (reading event session) =
          condition.holds (retries session.clock event session.store) := by
        simp only [Instruction.decides, judged, reading]
      have reached : stage = if condition.holds (retries session.clock event session.store) = true
          then .deciding instruction else .judging remaining := by
        simp only [stage, step, judged]
      rw [same]
      by_cases holds : condition.holds (retries session.clock event session.store) = true
      · rw [if_pos holds] at reached ⊢
        exact .inr ⟨reached, condition, rfl⟩
      · rw [if_neg holds] at reached ⊢
        exact reached

theorem answerAlong_of_decided (instructions : List Instruction) (sessions : List Session)
    {verdict : Verdict}
    (decided : stageAfter event (.judging instructions) sessions = .decided verdict) :
    answerAlong event instructions (sessions.map (reading event)) = some verdict.answer := by
  induction instructions generalizing sessions with
  | nil =>
      cases sessions with
      | nil => cases decided
      | cons session rest =>
          have settled : stageAfter event (.decided (.answered .ack)) rest = .decided verdict :=
            decided
          rw [stageAfter_decided] at settled
          obtain rfl := Stage.decided.inj settled
          rfl
  | cons instruction remaining ih =>
      cases sessions with
      | nil => cases decided
      | cons session rest =>
          have judged := step_judging event session instruction remaining
          have further : stageAfter event (step session.clock event session.store
              (.judging (instruction :: remaining))).stage rest = .decided verdict := decided
          simp only [List.map_cons, answerAlong]
          by_cases decides : instruction.decides (reading event session) = true
          · rw [if_pos decides] at judged ⊢
            rcases judged with ⟨reached, answered⟩ | ⟨reached, condition, read⟩
            · rw [reached, stageAfter_decided] at further
              obtain rfl := Stage.decided.inj further
              rw [answered]
              rfl
            · rw [reached] at further
              cases rest with
              | nil => cases further
              | cons next rest =>
                  obtain ⟨own, settled, answered⟩ := exists_verdict_deciding event next read
                  have last : stageAfter event (step next.clock event next.store
                      (.deciding instruction)).stage rest = .decided verdict := further
                  rw [settled, stageAfter_decided] at last
                  obtain rfl := Stage.decided.inj last
                  rw [answered]
          · rw [if_neg decides] at judged ⊢
            rw [judged] at further
            exact ih rest further

end Delivery

namespace Contention

variable {contention : Contention} {number : Nat} {event : Event}

/-! ### One delivery among the others -/

theorem turn_take {stage : Stage} (here : contention.deliveries[number]? = some (event, stage)) :
    contention.turn (.take number) =
      { contention with
        store := (Delivery.step contention.clock event contention.store stage).store
        deliveries := contention.deliveries.set number
          (event, (Delivery.step contention.clock event contention.store stage).stage) } := by
  simp only [turn, here]

theorem stage_turn_of_ne {turn : Turn} {delivery : Event × Stage}
    (other : turn ≠ .take number) (here : contention.deliveries[number]? = some delivery) :
    (contention.turn turn).deliveries[number]? = some delivery := by
  cases turn with
  | wait period => exact here
  | take rival =>
      have different : rival ≠ number := fun same => other (congrArg Turn.take same)
      cases found : contention.deliveries[rival]? with
      | none =>
          simp only [Contention.turn, found]
          exact here
      | some own =>
          simp only [Contention.turn, found, List.getElem?_set_ne different]
          exact here

theorem stage_turn_take {stage : Stage}
    (here : contention.deliveries[number]? = some (event, stage)) :
    (contention.turn (.take number)).deliveries[number]? =
      some (event, (Delivery.step contention.clock event contention.store stage).stage) := by
  have within := (List.getElem?_eq_some_iff.mp here).1
  rw [turn_take here]
  exact List.getElem?_set_self within

theorem stage_after (turns : List Turn) {stage : Stage}
    (here : contention.deliveries[number]? = some (event, stage)) :
    (contention.after turns).deliveries[number]? =
      some (event, Delivery.stageAfter event stage (contention.found number turns)) := by
  induction turns generalizing contention stage with
  | nil => exact here
  | cons turn rest ih =>
      by_cases own : turn = .take number
      · subst own
        have found : contention.found number (.take number :: rest) =
            contention.session :: (contention.turn (.take number)).found number rest := by
          simp only [Contention.found, if_true, List.singleton_append]
        rw [found]
        exact ih (stage_turn_take here)
      · have found : contention.found number (turn :: rest) =
            (contention.turn turn).found number rest := by
          simp only [Contention.found, if_neg own, List.nil_append]
        rw [found]
        exact ih (stage_turn_of_ne own here)

theorem clock_le_turn (contention : Contention) (turn : Turn) :
    contention.clock ≤ (contention.turn turn).clock := by
  cases turn with
  | wait period => exact Nat.le_add_right _ _
  | take number => cases found : contention.deliveries[number]? <;> simp [Contention.turn, found]

theorem clock_le_after (contention : Contention) (turns : List Turn) :
    contention.clock ≤ (contention.after turns).clock := by
  induction turns generalizing contention with
  | nil => exact Nat.le_refl _
  | cons turn rest ih => exact Nat.le_trans (contention.clock_le_turn turn) (ih _)

/-! ### What the others do to the count -/

theorem session_turn_rival {other : Nat} (different : other ≠ number) :
    (contention.turn (.take other)).session =
      contention.session.after (contention.rivalCall? number (.take other)).toList := by
  cases found : contention.deliveries[other]? with
  | none =>
      simp only [Contention.turn, rivalCall?, found, if_neg different, Option.bind_none]
      rfl
  | some delivery =>
      obtain ⟨event, stage⟩ := delivery
      simp only [Contention.turn, rivalCall?, found, if_neg different, Option.bind_some]
      exact Delivery.session_step contention.session event stage

/-- A call by which another delivery would change the count of an id. -/
def Disturbs (id : String) (call : StoreCall) : Prop := call = .increase id ∨ call = .reset

theorem get_rivalCall {other : Nat} {id : String} (different : other ≠ number)
    (quiet : ∀ call ∈ (contention.rivalCall? number (.take other)).toList, ¬ Disturbs id call)
    (later : Nat) :
    (contention.turn (.take other)).store.get later id = contention.store.get later id := by
  have same : (contention.turn (.take other)).store =
      (contention.session.after (contention.rivalCall? number (.take other)).toList).store :=
    congrArg Session.store (session_turn_rival different)
  rw [same]
  cases called : contention.rivalCall? number (.take other) with
  | none => rfl
  | some call =>
      have harmless : ¬ Disturbs id call := quiet call (by simp [called])
      simp only [rivalCall?, if_neg different, Option.bind_eq_some_iff] at called
      obtain ⟨delivery, _, made⟩ := called
      rcases Delivery.call?_cases made with rfl | rfl | rfl
      · have elsewhere : ¬ id = delivery.1.id :=
          fun equal => harmless (.inl (congrArg StoreCall.increase equal.symm))
        change (contention.store.increase contention.clock delivery.1.id).get later id = _
        rw [CountStore.get_increase, if_neg elsewhere]
      · rfl
      · exact absurd (.inr rfl) harmless

/-! ### One count for a whole list -/

/-- While a delivery judges, no other changes the count of an id, nor does the count expire before
the last turn is over. -/
structure Undisturbed (number : Nat) (id : String) (contention : Contention) (turns : List Turn) :
    Prop where
  calls : ∀ call ∈ contention.rivalCalls number turns, ¬ Disturbs id call
  lasting : contention.store.get (contention.after turns).clock id =
    contention.store.get contention.clock id

/-- Where an undisturbed delivery stands: it has yet to judge the rest of its list on the count that
the store holds until the limit, or its answer is settled. -/
inductive Steady (number : Nat) (event : Event) (count limit : Nat) (answer : Answer)
    (contention : Contention) : Prop
  | judging (remaining : List Instruction)
      (here : contention.deliveries[number]? = some (event, .judging remaining))
      (answers : Delivery.answerTo event (count - 1 : Nat) remaining = answer)
      (held : ∀ later, contention.clock ≤ later → later ≤ limit →
        contention.store.get later event.id = count)
  | deciding (instruction : Instruction) (condition : Condition)
      (here : contention.deliveries[number]? = some (event, .deciding instruction))
      (judged : Condition.ofText instruction.condition = .ok condition)
      (answers : instruction.answer event = answer)
  | decided (verdict : Verdict)
      (here : contention.deliveries[number]? = some (event, .decided verdict))
      (answers : verdict.answer = answer)

variable {count limit : Nat} {answer : Answer}

theorem Steady.own (steady : Steady number event count limit answer contention)
    (within : contention.clock ≤ limit) :
    Steady number event count limit answer (contention.turn (.take number)) := by
  cases steady with
  | judging remaining here answers held =>
      have next := stage_turn_take here
      cases remaining with
      | nil => exact .decided (.answered .ack) next answers
      | cons instruction remaining =>
          have reads : Delivery.reading event contention.session = count - 1 :=
            congrArg (· - 1) (held contention.clock (Nat.le_refl _) within)
          have judged := Delivery.step_judging event contention.session instruction remaining
          rw [reads] at judged
          unfold Delivery.answerTo at answers
          by_cases decides : instruction.decides (count - 1 : Nat) = true
          · rw [List.find?_cons_of_pos decides] at answers
            rw [if_pos decides] at judged
            rcases judged with ⟨reached, nacked⟩ | ⟨reached, condition, read⟩
            · exact .decided (.answered .nack) (reached ▸ next) (nacked.symm.trans answers)
            · exact .deciding instruction condition (reached ▸ next) read answers
          · rw [List.find?_cons_of_neg decides] at answers
            rw [if_neg decides] at judged
            refine .judging remaining (judged ▸ next) answers ?_
            rw [turn_take here, Delivery.store_judging]
            exact held
  | deciding instruction condition here judged answers =>
      obtain ⟨verdict, decided, answered⟩ :=
        Delivery.exists_verdict_deciding event contention.session judged
      have next := stage_turn_take here
      exact .decided verdict (decided ▸ next) (answered.trans answers)
  | decided verdict here answers => exact .decided verdict (stage_turn_take here) answers

theorem Steady.turn (steady : Steady number event count limit answer contention) (turn : Turn)
    (within : contention.clock ≤ limit)
    (quiet : ∀ call ∈ contention.rivalCalls number [turn], ¬ Disturbs event.id call) :
    Steady number event count limit answer (contention.turn turn) := by
  by_cases own : turn = .take number
  · subst own
    exact steady.own within
  cases steady with
  | judging remaining here answers held =>
      refine .judging remaining (stage_turn_of_ne own here) answers ?_
      cases turn with
      | wait period =>
          intro later after
          exact held later (Nat.le_trans (Nat.le_add_right _ period) after)
      | take other =>
          have different : other ≠ number := fun same => own (congrArg Turn.take same)
          have judges : contention.isJudging number = true := by simp [isJudging, here]
          simp only [rivalCalls, judges, if_true, List.append_nil] at quiet
          intro later after before
          rw [get_rivalCall different quiet]
          exact held later (Nat.le_trans (contention.clock_le_turn _) after) before
  | deciding instruction condition here judged answers =>
      exact .deciding instruction condition (stage_turn_of_ne own here) judged answers
  | decided verdict here answers => exact .decided verdict (stage_turn_of_ne own here) answers

theorem Steady.after (steady : Steady number event count limit answer contention)
    (turns : List Turn) (within : (contention.after turns).clock ≤ limit)
    (quiet : ∀ call ∈ contention.rivalCalls number turns, ¬ Disturbs event.id call) :
    Steady number event count limit answer (contention.after turns) := by
  induction turns generalizing contention with
  | nil => exact steady
  | cons turn rest ih =>
      have early : contention.clock ≤ limit :=
        Nat.le_trans (contention.clock_le_after (turn :: rest)) within
      have first : ∀ call ∈ contention.rivalCalls number [turn], ¬ Disturbs event.id call := by
        intro call member
        refine quiet call ?_
        simp only [rivalCalls, List.append_nil] at member
        exact List.mem_append_left _ member
      exact ih (steady.turn turn early first) within
        fun call member => quiet call (List.mem_append_right _ member)

theorem answer_of_undisturbed {instructions : List Instruction} {turns : List Turn}
    {verdict : Verdict} (undisturbed : contention.Undisturbed number event.id turns)
    (here : contention.deliveries[number]? = some (event, .judging instructions))
    (decided : (contention.after turns).deliveries[number]? = some (event, .decided verdict)) :
    verdict.answer =
      Delivery.answerTo event (Delivery.reading event contention.session : Nat) instructions := by
  have steady : Steady number event (contention.store.get contention.clock event.id)
      (contention.after turns).clock _ contention :=
    .judging instructions here rfl fun later since until_ =>
      CountStore.get_between since until_ undisturbed.lasting
  have reached := steady.after turns (Nat.le_refl _) undisturbed.calls
  cases reached with
  | judging remaining settled =>
      rw [decided] at settled
      cases settled
  | deciding instruction condition settled =>
      rw [decided] at settled
      cases settled
  | decided own settled answers =>
      rw [decided] at settled
      cases settled
      exact answers

/-- Each condition is judged on the count that is there at the delivery's own turn, and the first
that its own count satisfies, or that is malformed, decides. A delivery that is undisturbed while it
judges is answered by its whole list at one count, so a list of which every count satisfies one
condition is not passed over. -/
theorem judged_by_turns {instructions : List Instruction}
    (read : Instruction.ofBody event.data = .ok instructions) (contention : Contention)
    (number : Nat) (turns : List Turn) :
    let reached := contention.after turns
    let found := contention.found number turns
    (contention.deliveries[number]? = some (event, .received) →
      (instructions.length + 3 ≤ found.length →
        ∃ verdict, reached.deliveries[number]? = some (event, .decided verdict)) ∧
      ∀ verdict, reached.deliveries[number]? = some (event, .decided verdict) →
        ∃ counted judged, found = counted :: judged ∧
          Delivery.answerAlong event instructions (judged.map (Delivery.reading event)) =
            some verdict.answer) ∧
    (contention.deliveries[number]? = some (event, .judging instructions) →
      contention.Undisturbed number event.id turns →
      ∀ verdict, reached.deliveries[number]? = some (event, .decided verdict) →
        let count : Nat := Delivery.reading event contention.session
        verdict.answer = Delivery.answerTo event count instructions ∧
        ((∀ other : Nat, ∃ instruction ∈ instructions, instruction.decides other = true) →
          ∃ instruction ∈ instructions, instruction.decides count = true ∧
            verdict.answer = instruction.answer event)) := by
  intro reached found
  constructor
  · intro here
    have brought : reached.deliveries[number]? = _ := stage_after turns here
    constructor
    · intro enough
      have left : Delivery.stepsLeft event .received = instructions.length + 3 := by
        simp only [Delivery.stepsLeft, read]
      obtain ⟨verdict, decided⟩ :=
        Delivery.stageAfter_enough event found .received (left ▸ enough)
      exact ⟨verdict, brought.trans (congrArg (fun stage => some (event, stage)) decided)⟩
    · intro verdict decided
      rw [brought] at decided
      have decided : Delivery.stageAfter event .received found = .decided verdict :=
        congrArg Prod.snd (Option.some.inj decided)
      cases turnsFound : found with
      | nil =>
          rw [turnsFound] at decided
          cases decided
      | cons counted judged =>
          rw [turnsFound] at decided
          have judging : Delivery.stageAfter event (.judging instructions) judged =
              .decided verdict := by
            simpa only [Delivery.stageAfter, List.foldl_cons, Delivery.step, read] using decided
          exact ⟨counted, judged, rfl, Delivery.answerAlong_of_decided instructions judged judging⟩
  · intro here undisturbed verdict decided count
    have answered : verdict.answer = Delivery.answerTo event count instructions :=
      answer_of_undisturbed undisturbed here decided
    refine ⟨answered, ?_⟩
    intro covering
    obtain ⟨some, member, decides⟩ := covering count
    cases first : instructions.find? (Instruction.decides (count : Nat)) with
    | none => exact absurd decides (List.find?_eq_none.mp first some member)
    | some instruction =>
        refine ⟨instruction, List.mem_of_find?_eq_some first, List.find?_some first, ?_⟩
        rw [answered, Delivery.answerTo, first]

theorem judged_by_turns_twice :
    let instructions : List Instruction :=
      [{ condition := "retrycount_lt:1", action := "nack", reply := none },
        { condition := "", action := "ack", reply := none }]
    let event : Event :=
      { id := "1", type := "note", source := "/", specVersion := "1.0",
        dataContentType := some "application/json",
        data := Bytes.ofText "[[\"retrycount_lt:1\", \"nack\"], [\"\", \"ack\"]]" }
    let start := gathered (.opened Period.second 0) [event, event]
    let counted := start.after [.take 0, .take 1]
    let turns : List Turn := [.take 1, .take 0, .take 0, .wait 1, .take 0, .take 0]
    let all := .take 0 :: .take 1 :: turns
    (∃ verdict, (start.after all).deliveries[0]? = some (event, .decided verdict)) ∧
      (∃ first judged, start.found 0 all = first :: judged ∧
        Delivery.answerAlong event instructions (judged.map (Delivery.reading event)) =
          some .ack) ∧
      Answer.ack =
        Delivery.answerTo event (Delivery.reading event counted.session : Nat) instructions ∧
      ∃ instruction ∈ instructions, Answer.ack = instruction.answer event := by
  intro instructions event start counted turns all
  have read : Instruction.ofBody event.data = .ok instructions := by decide +kernel
  have decided : (start.after all).deliveries[0]? =
      some (event, .decided (.answered .ack)) := by
    decide +kernel
  have undisturbed : counted.Undisturbed 0 event.id turns :=
    { calls := by
        unfold Disturbs
        decide +kernel
      lasting := by decide +kernel }
  have always : Condition.ofText "" = .ok .always := by decide +kernel
  have covering (other : Nat) : ∃ instruction ∈ instructions, instruction.decides other = true := by
    refine ⟨_, List.mem_cons_of_mem _ List.mem_cons_self, ?_⟩
    simp only [Instruction.decides, always, Condition.holds]
  obtain ⟨enough, along⟩ := (judged_by_turns read start 0 all).1 (by decide +kernel)
  have whole := (judged_by_turns read counted 0 turns).2 (by decide +kernel) undisturbed
    (.answered .ack) (by decide +kernel)
  obtain ⟨instruction, member, _, answered⟩ := whole.2 covering
  exact ⟨enough (by decide +kernel), along (.answered .ack) decided, whole.1, instruction, member,
    answered⟩

/-- Two deliveries of one event whose list leaves out no count. The second is counted between the
readings of the first, which finds no earlier delivery at its first condition and one at its second,
and passes both over. -/
theorem covering_list_passed_over :
    let instructions : List Instruction :=
      [{ condition := "retrycount_gt:0", action := "nack", reply := none },
        { condition := "retrycount_lt:1", action := "nack", reply := none }]
    let event : Event :=
      { id := "1", type := "note", source := "/", specVersion := "1.0",
        dataContentType := some "application/json",
        data := Bytes.ofText ("[\x7b\"condition\":\"retrycount_gt:0\",\"action\":\"nack\"\x7d," ++
          "\x7b\"condition\":\"retrycount_lt:1\",\"action\":\"nack\"\x7d]") }
    let turns : List Turn := [.take 0, .take 0, .take 1, .take 0, .take 0]
    let reached := (gathered (.opened Period.second 0) [event, event]).after turns
    Instruction.ofBody event.data = .ok instructions ∧
      (∀ count : Int, ∃ instruction ∈ instructions, instruction.decides count = true) ∧
      (∀ count : Int, Delivery.answerTo event count instructions = .nack) ∧
      (∀ entry ∈ reached.store.entries, reached.clock < entry.expiresAt) ∧
      reached.deliveries[0]? = some (event, .decided (.answered .ack)) := by
  intro instructions event turns reached
  have above : Condition.ofText "retrycount_gt:0" = .ok (.retriesAbove 0) := by decide +kernel
  have below : Condition.ofText "retrycount_lt:1" = .ok (.retriesBelow 1) := by decide +kernel
  have nacks : ∀ instruction ∈ instructions, instruction.answer event = .nack := by decide +kernel
  have covering (count : Int) :
      ∃ instruction ∈ instructions, instruction.decides count = true := by
    by_cases positive : 0 < count
    · exact ⟨_, List.mem_cons_self, by simpa [Instruction.decides, above, Condition.holds]⟩
    · refine ⟨_, List.mem_cons_of_mem _ List.mem_cons_self, ?_⟩
      simp only [Instruction.decides, below, Condition.holds, decide_eq_true_eq]
      omega
  refine ⟨by decide +kernel, covering, ?_, by decide +kernel, by decide +kernel⟩
  intro count
  obtain ⟨some, member, decides⟩ := covering count
  unfold Delivery.answerTo
  cases first : instructions.find? (Instruction.decides count) with
  | none => exact absurd decides (List.find?_eq_none.mp first some member)
  | some instruction => exact nacks instruction (List.mem_of_find?_eq_some first)

end Contention

end ScriptedResponder
